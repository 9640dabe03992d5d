import DocAudit.Config.Basic
import DocAudit.Pattern.Set

/-!
# Compiled configurations

A compiled configuration is a configuration in which every pattern has become an expression.  This
file holds its types and the conditions they put on elements; `Policy/Compile.lean` builds them.
-/

namespace DocAudit.Policy

open DocAudit.Pattern

/-! ## 1. Selectors -/

/-- A compiled condition on elements; an empty list or set is no condition. -/
structure Selector where
  targets : List Kind
  visibilities : List Visibility
  memberKinds : List MemberKind
  accessorKinds : List AccessorKind
  packages : PatternSet
  fqns : PatternSet
  simpleNames : PatternSet
  signatures : PatternSet
  annotations : Option PatternFilter

/-- Whether a value meets a list that is empty or names it. -/
def allows {α : Type} [BEq α] (allowed : List α) (value : α) : Bool :=
  allowed.isEmpty || allowed.contains value

/-- Whether one of some values is in a list, if the list is not empty. -/
def allowsOne {α : Type} [BEq α] (allowed values : List α) : Bool :=
  allowed.isEmpty || values.any allowed.contains

/-- Whether a text matches a set that is empty or has a pattern for it. -/
def allowsText (set : PatternSet) (value : String) : Bool := set.isEmpty || set.matches_ value

/-- Whether an element meets a selector. -/
def Selector.matches_ (s : Selector) (e : Element) : Bool :=
  allows s.targets e.kind && allows s.visibilities e.visibility &&
    allowsOne s.memberKinds e.memberKinds && allowsOne s.accessorKinds e.accessorKinds &&
    allowsText s.packages e.package && allowsText s.simpleNames e.name &&
    allowsText s.fqns e.qualifiedName && allowsText s.signatures e.signature &&
    (match s.annotations with
      | some f => f.matchesAny e.annotations
      | none => true)

/-- Whether an element meets a selector that may be absent. -/
def meets (s : Option Selector) (e : Element) : Bool :=
  match s with
  | some s => s.matches_ e
  | none => true

/-! ## 2. Scope -/

/-- What is scanned; an absent filter admits everything. -/
structure Scope where
  packages : Option PatternFilter
  typeNames : Option PatternFilter
  typeAnnotations : Option PatternFilter
  memberNames : Option PatternFilter
  memberAnnotations : Option PatternFilter
  typeKinds : Config.TypeKinds
  memberKinds : Config.MemberKinds
  visibilities : List Visibility
  inherited : Bool

/-- Whether elements of a visibility are scanned. -/
def Scope.allowsVisibility (s : Scope) (v : Visibility) : Bool := s.visibilities.contains v

/-- Whether a filter that may be absent lets a text pass. -/
def passes (f : Option PatternFilter) (value : String) : Bool :=
  match f with
  | some f => f.matches_ value
  | none => true

/-- Whether a filter that may be absent admits a thing with the given labels. -/
def admits (f : Option PatternFilter) (labels : List String) : Bool :=
  match f with
  | some f => f.admits labels
  | none => true

/-! ## 3. Policies and rules -/

/-- A severity for the elements that a selector picks. -/
structure Override where
  condition : Option Selector
  severity : Severity

/-- A compiled annotation policy. -/
structure AnnotationPolicy where
  pattern : PatternSet
  targets : List Kind
  effect : Effect
  rules : List String
  toSeverity : Severity
  shift : Int64

/-- Whether a policy applies to an element. -/
def AnnotationPolicy.applies (p : AnnotationPolicy) (e : Element) : Bool :=
  allows p.targets e.kind && p.pattern.matchesAny e.annotations

/-- A compiled rule entry. -/
structure RuleEntry where
  id : String
  enabled : Bool
  severity : Severity
  condition : Option Selector
  options : Option Yaml.Node

/-- A compiled configuration. -/
structure Compiled where
  projectRoot : String
  scan : Scope
  byVisibility : List (Visibility × Severity)
  overrides : List Override
  policies : List AnnotationPolicy
  rules : List RuleEntry
  failOn : Severity

/-- The first entry of a rule. -/
def Compiled.rule? (c : Compiled) (id : String) : Option RuleEntry := c.rules.find? (·.id == id)

/-- The enabled rule entries in their order. -/
def Compiled.enabledRules (c : Compiled) : List RuleEntry := c.rules.filter (·.enabled)

end DocAudit.Policy
