import DocAudit.Error
import DocAudit.Policy.Selector

/-!
# Compiling a configuration

Compiling reads every pattern of a configuration.  It goes on after a faulty one, so that one run
reports all of them, each with its path in the configuration.
-/

namespace DocAudit.Policy

open DocAudit.Pattern

/-! ## 1. Problems -/

/-- A faulty pattern and its path in the configuration. -/
structure PatternProblem where
  path : String
  error : PatternError
deriving Repr, DecidableEq, Inhabited

/-- A computation that collects problems. -/
abbrev Compiler (α : Type) := StateM (List PatternProblem) α

/-- The problems of the faulty patterns of a list from the place `index` on. -/
def problemsFrom (path : String) (index : Nat) : List String → List PatternProblem
  | [] => []
  | p :: ps =>
    match compileAnchored p with
    | .error e =>
      ⟨path ++ "[" ++ toString index ++ "]", ⟨p, index, e⟩⟩ :: problemsFrom path (index + 1) ps
    | .ok _ => problemsFrom path (index + 1) ps

/-! ## 2. Parts -/

/-- The set of a list of patterns; the empty set if one of them is faulty. -/
def compileSet (path : String) (ps : List String) : Compiler PatternSet := do
  match PatternSet.compile ps with
  | .ok s => return s
  | .error _ =>
    modify (· ++ problemsFrom path 0 ps)
    return .empty

/-- The set of a single pattern. -/
def compileSingle (path p : String) : Compiler PatternSet := do
  match PatternSet.compile [p] with
  | .ok s => return s
  | .error e =>
    modify (· ++ [⟨path, e⟩])
    return .empty

/-- A filter. -/
def compileFilter (path : String) (f : Config.Filter) : Compiler PatternFilter := do
  let inc ← compileSet (path ++ ".include") f.includes
  let exc ← compileSet (path ++ ".exclude") f.excludes
  return ⟨inc, exc⟩

/-- A selector, if there is one. -/
def compileSelector (path : String) (s : Option Config.Selector) : Compiler (Option Selector) := do
  match s with
  | none => return none
  | some s =>
    let packages ← compileSet (path ++ ".package_patterns") s.packagePatterns
    let fqns ← compileSet (path ++ ".fqn_patterns") s.fqnPatterns
    let simpleNames ← compileSet (path ++ ".simple_name_patterns") s.simpleNamePatterns
    let signatures ← compileSet (path ++ ".signature_patterns") s.signaturePatterns
    let annotations ← match s.annotations with
      | some f => some <$> compileFilter (path ++ ".annotations") f
      | none => pure none
    return some ⟨s.targets, s.visibility, s.memberKinds, s.accessorKinds, packages, fqns,
      simpleNames, signatures, annotations⟩

/-- The scope of a scan. -/
def compileScan (s : Config.Scan) : Compiler Scope := do
  let packages ← compileFilter "scan.packages" s.packages
  let typeNames ← compileFilter "scan.types.names" s.types.names
  let typeAnnotations ← compileFilter "scan.types.annotations" s.types.annotations
  let memberNames ← compileFilter "scan.members.names" s.members.names
  let memberAnnotations ← compileFilter "scan.members.annotations" s.members.annotations
  return ⟨some packages, some typeNames, some typeAnnotations, some memberNames,
    some memberAnnotations, s.types.kinds, s.members.kinds, s.visibilities, s.members.inherited⟩

/-- The override at the place `i`. -/
def compileOverride (i : Nat) (o : Config.Override) : Compiler Override := do
  let path := "defaults.severity.overrides[" ++ toString i ++ "].match"
  let condition ← compileSelector path o.condition
  return ⟨condition, o.severity⟩

/-- The policy at the place `i`. -/
def compilePolicy (i : Nat) (p : Config.Policy) : Compiler AnnotationPolicy := do
  let path := "defaults.annotation_policies[" ++ toString i ++ "].annotation_pattern"
  let pattern ← compileSingle path p.annotationPattern
  return ⟨pattern, p.targets, p.effect, p.rules, p.toSeverity, p.shift.getD 0⟩

/-- The rule entry at the place `i`. -/
def compileRule (i : Nat) (r : Config.RuleEntry) : Compiler RuleEntry := do
  let condition ← compileSelector ("rules[" ++ toString i ++ "].when") r.condition
  return ⟨r.id, r.isEnabled, r.severity, condition, r.options⟩

/-- The items of a list from the place `i` on. -/
def compileEach {α β : Type} (one : Nat → α → Compiler β) (i : Nat) : List α → Compiler (List β)
  | [] => pure []
  | a :: as => do
    let b ← one i a
    return b :: (← compileEach one (i + 1) as)

/-! ## 3. The whole -/

/-- The compiled configuration, whatever problems there are. -/
def compileAll (c : Config) : Compiler Compiled := do
  let scan ← compileScan c.scan
  let overrides ← compileEach compileOverride 0 c.defaults.severity.overrides
  let policies ← compileEach compilePolicy 0 c.defaults.policies
  let rules ← compileEach compileRule 0 c.rules
  return ⟨c.projectRoot, scan, c.defaults.severity.byVisibility, overrides, policies, rules,
    c.failOn⟩

/-- **Compiles a configuration**, or lists its faulty patterns. -/
def compile (c : Config) : Except (List PatternProblem) Compiled :=
  match (compileAll c).run [] with
  | (out, []) => .ok out
  | (_, ps) => .error ps

/-- The error that a faulty pattern is. -/
def errorOfPattern (e : PatternError) : Error := .pattern e.pattern e.index (.plain e.cause.message)

/-- The problem that a faulty pattern is. -/
def PatternProblem.toProblem (p : PatternProblem) : Problem :=
  .mk p.path p.error.pattern (errorOfPattern p.error)

/-- Compiles a configuration that may be absent. -/
def compileChecked (c : Option Config) : Except Error Compiled :=
  match c with
  | none => .error .noConfig
  | some c =>
    match compile c with
    | .ok out => .ok out
    | .error ps => .error (.uncompiled (ps.map PatternProblem.toProblem))

end DocAudit.Policy
