import DocAudit.Config.Basic
import DocAudit.Error

/-!
# Constraints on configurations

A configuration has to meet constraints: some fields are required, some hold words of a list, rule
ids are unique, and an effect needs what it acts with.  `Config.faults` lists every field that
breaks one, with its path; of several constraints on one field the first that fails is reported.
-/

namespace DocAudit

open Text Decimal

namespace Config

/-! ## 1. Constraints on single fields -/

/-- A field that may not be empty. -/
def required (path value : String) : List FieldError :=
  if value == "" then [⟨path, "field is required"⟩] else []

/-- A field that has to hold one of some words. -/
def oneOf (path : String) (words : List String) (value : String) : List FieldError :=
  if words.contains value then []
  else [⟨path, "invalid value " ++ quoted value ++ " (must be one of: " ++ join ", " words ++ ")"⟩]

/-- A field that may not be empty and has to hold one of some words. -/
def requiredOneOf (path : String) (words : List String) (value : String) : List FieldError :=
  if value == "" then required path value else oneOf path words value

/-- A field that is empty or holds one of some words. -/
def optionalOneOf (path : String) (words : List String) (value : String) : List FieldError :=
  if value == "" then [] else oneOf path words value

/-- The path of an item of a list. -/
def itemPath (path : String) (i : Nat) : String := path ++ "[" ++ toString i ++ "]"

/-- What the items of a list break, each under its path. -/
def eachItem {α : Type} (path : String) (check : String → α → List FieldError) (i : Nat) :
    List α → List FieldError
  | [] => []
  | x :: xs => check (itemPath path i) x ++ eachItem path check (i + 1) xs

/-- A list of which every item has to be one of some words. -/
def eachOneOf (path : String) (words : List String) (values : List String) : List FieldError :=
  eachItem path (fun p v => oneOf p words v) 0 values

/-- The words for severities. -/
def severityWords : List String := Severity.scale.map (·.text)

/-- The words for visibilities. -/
def visibilityWords : List String := Visibility.all.map (·.text)

/-- The words for kinds. -/
def kindWords : List String := Kind.all.map (·.text)

/-- The words for member kinds. -/
def memberKindWords : List String := MemberKind.all.map (·.text)

/-- The words for accessor kinds. -/
def accessorKindWords : List String := AccessorKind.all.map (·.text)

/-- The words for effects. -/
def effectWords : List String := Effect.all.map (·.text)

/-! ## 2. Sections -/

/-- What a selector breaks. -/
def Selector.faults (path : String) (s : Selector) : List FieldError :=
  eachOneOf (path ++ ".targets") kindWords (s.targets.map (·.text)) ++
    eachOneOf (path ++ ".visibility") visibilityWords (s.visibility.map (·.text)) ++
    eachOneOf (path ++ ".member_kinds") memberKindWords (s.memberKinds.map (·.text)) ++
    eachOneOf (path ++ ".accessor_kinds") accessorKindWords (s.accessorKinds.map (·.text))

/-- What a selector that may be absent breaks. -/
def selectorFaults (path : String) : Option Selector → List FieldError
  | none => []
  | some s => s.faults path

/-- What the severities of the visibilities break: a key and its value are reported under the
key. -/
def visibilityFaults (path : String) (es : List (Visibility × Severity)) : List FieldError :=
  es.flatMap fun (v, s) =>
    let p := path ++ "[" ++ v.text ++ "]"
    oneOf p visibilityWords v.text ++ oneOf p severityWords s.text

/-- What an override breaks. -/
def Override.faults (path : String) (o : Override) : List FieldError :=
  selectorFaults (path ++ ".match") o.condition ++
    requiredOneOf (path ++ ".severity") severityWords o.severity.text

/-- What an effect lacks: to set a severity it needs one, and to shift one a distance. -/
def Policy.payloadFaults (path : String) (p : Policy) : List FieldError :=
  if p.effect == .setSeverity && p.toSeverity.text == "" then
    [⟨path ++ ".to_severity", "field is required when effect is SET_SEVERITY"⟩]
  else if p.effect == .shiftSeverity && p.shift.isNone then
    [⟨path ++ ".shift", "field is required when effect is SHIFT_SEVERITY"⟩]
  else []

/-- What an annotation policy breaks. -/
def Policy.faults (path : String) (p : Policy) : List FieldError :=
  required (path ++ ".annotation_pattern") p.annotationPattern ++
    eachOneOf (path ++ ".targets") kindWords (p.targets.map (·.text)) ++
    requiredOneOf (path ++ ".effect") effectWords p.effect.text ++
    optionalOneOf (path ++ ".to_severity") severityWords p.toSeverity.text ++
    p.payloadFaults path

/-- What a rule entry breaks. -/
def RuleEntry.faults (path : String) (r : RuleEntry) : List FieldError :=
  required (path ++ ".id") r.id ++
    optionalOneOf (path ++ ".severity") severityWords r.severity.text ++
    selectorFaults (path ++ ".when") r.condition

/-- Whether a list has no repeated item. -/
def isUnique : List String → Bool
  | [] => true
  | x :: xs => !xs.contains x && isUnique xs

/-- What the rule entries break; with a repeated id nothing else of them is looked at. -/
def rulesFaults (path : String) (rs : List RuleEntry) : List FieldError :=
  if isUnique (rs.map (·.id)) then eachItem path RuleEntry.faults 0 rs
  else [⟨path, "duplicate id values are not allowed"⟩]

/-- What the part of the trace that is sampled breaks. -/
def ratioFaults (path : String) (x : Binary64) : List FieldError :=
  if !Binary64.le .zero x then [⟨path, "must be at least 0"⟩]
  else if !x.le .one then [⟨path, "must be at most 1"⟩]
  else []

/-- What the telemetry breaks. -/
def Telemetry.faults (path : String) (t : Telemetry) : List FieldError :=
  oneOf (path ++ ".logging.level") ["debug", "info", "warn", "error"] t.logging.level ++
    oneOf (path ++ ".logging.format") ["json", "text", "console"] t.logging.format ++
    (if t.tracing.enabled && t.tracing.endpoint == "" then
      [⟨path ++ ".tracing.endpoint", "field is required when enabled is true"⟩] else []) ++
    ratioFaults (path ++ ".tracing.sample_ratio") t.tracing.sampleRatio

end Config

/-! ## 3. The whole -/

/-- **Every field of a configuration that breaks a constraint.** -/
def Config.faults (c : Config) : List FieldError :=
  Config.required "project_root" c.projectRoot ++
    Config.eachOneOf "scan.visibilities" Config.visibilityWords
      (c.scan.visibilities.map (·.text)) ++
    Config.visibilityFaults "defaults.severity.by_visibility" c.defaults.severity.byVisibility ++
    Config.eachItem "defaults.severity.overrides" Config.Override.faults 0
      c.defaults.severity.overrides ++
    Config.eachItem "defaults.annotation_policies" Config.Policy.faults 0 c.defaults.policies ++
    Config.rulesFaults "rules" c.rules ++
    Config.requiredOneOf "fail_on.severity" Config.severityWords c.failOn.text ++
    c.telemetry.faults "telemetry"

/-- Checks a configuration that may be absent. -/
def validate : Option Config → Except Error Unit
  | none => .error (.invalid [⟨"config", "configuration is nil"⟩])
  | some c =>
    match c.faults with
    | [] => .ok ()
    | fs => .error (.invalid fs)

end DocAudit
