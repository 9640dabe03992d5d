import DocAudit.Element
import DocAudit.Yaml.Node
import DocAudit.Decimal.Binary64

/-!
# The configuration of an audit

What is scanned, how severe a finding is, which rules run, and what the run reports about itself.
`Config.default` is the configuration that a document is decoded over; `Config.empty` has no value
anywhere.
-/

namespace DocAudit

open Decimal

namespace Config

/-! ## 1. What is scanned -/

/-- Lists of patterns that include and exclude. -/
structure Filter where
  includes : List String
  excludes : List String
deriving Repr, DecidableEq, Inhabited

/-- The filter without patterns. -/
def Filter.none : Filter := ⟨[], []⟩

/-- Whether a filter has no patterns. -/
def Filter.isEmpty (f : Filter) : Bool := f.includes.isEmpty && f.excludes.isEmpty

/-- The kinds of types that are scanned. -/
structure TypeKinds where
  structs : Bool
  interfaces : Bool
  funcTypes : Bool
  defined : Bool
  aliases : Bool
  /-- Types that have the method of an error, whatever their kind. -/
  errors : Bool
deriving Repr, DecidableEq, Inhabited

/-- Which types are scanned. -/
structure TypeScan where
  kinds : TypeKinds
  names : Filter
  annotations : Filter
deriving Repr, DecidableEq, Inhabited

/-- The kinds of members that are scanned. -/
structure MemberKinds where
  fields : Bool
  methods : Bool
  constructors : Bool
  functions : Bool
  constants : Bool
  vars : Bool
  getters : Bool
  setters : Bool
  embedded : Bool
deriving Repr, DecidableEq, Inhabited

/-- Which members are scanned. -/
structure MemberScan where
  kinds : MemberKinds
  names : Filter
  annotations : Filter
  inherited : Bool
deriving Repr, DecidableEq, Inhabited

/-- What is scanned. -/
structure Scan where
  packages : Filter
  types : TypeScan
  members : MemberScan
  visibilities : List Visibility
deriving Repr, DecidableEq, Inhabited

/-! ## 2. How severe a finding is -/

/-- A condition on elements; an empty list is no condition. -/
structure Selector where
  targets : List Kind
  visibility : List Visibility
  memberKinds : List MemberKind
  accessorKinds : List AccessorKind
  packagePatterns : List String
  fqnPatterns : List String
  simpleNamePatterns : List String
  signaturePatterns : List String
  annotations : Option Filter
deriving Repr, DecidableEq, Inhabited

/-- The selector without conditions. -/
def Selector.any : Selector := ⟨[], [], [], [], [], [], [], [], .none⟩

/-- A severity for the elements that a selector picks. -/
structure Override where
  condition : Option Selector
  severity : Severity
deriving Repr, DecidableEq, Inhabited

/-- The severity of findings by visibility, and overrides of it. -/
structure SeverityProfile where
  byVisibility : List (Visibility × Severity)
  overrides : List Override
deriving Repr, DecidableEq, Inhabited

/-- What an annotation does to the findings on the elements that carry it. -/
structure Policy where
  annotationPattern : String
  targets : List Kind
  effect : Effect
  rules : List String
  toSeverity : Severity
  shift : Option Int64
deriving Repr, DecidableEq, Inhabited

/-- Severities and annotation policies. -/
structure Defaults where
  severity : SeverityProfile
  policies : List Policy
deriving Repr, DecidableEq, Inhabited

/-! ## 3. Rules and the rest -/

/-- A rule to run, with its options as the document writes them. -/
structure RuleEntry where
  id : String
  enabled : Option Bool
  severity : Severity
  condition : Option Selector
  options : Option Yaml.Node
deriving Inhabited

/-- Whether a rule entry is enabled; it is unless it says otherwise. -/
def RuleEntry.isEnabled (r : RuleEntry) : Bool := r.enabled.getD true

/-- The log of a run. -/
structure Logging where
  level : String
  format : String
  addSource : Bool
deriving Repr, DecidableEq, Inhabited

/-- The counters of a run. -/
structure Metrics where
  enabled : Bool
  namespace_ : String
  textfile : String
deriving Repr, DecidableEq, Inhabited

/-- The trace of a run. -/
structure Tracing where
  enabled : Bool
  endpoint : String
  insecure : Bool
  serviceName : String
  sampleRatio : Binary64
deriving Repr, DecidableEq, Inhabited

/-- What a run reports about itself. -/
structure Telemetry where
  logging : Logging
  metrics : Metrics
  tracing : Tracing
deriving Repr, DecidableEq, Inhabited

end Config

open Config in
/-- A configuration. -/
structure Config where
  projectRoot : String
  scan : Scan
  defaults : Defaults
  rules : List RuleEntry
  /-- The severity from which on a finding fails the run. -/
  failOn : Severity
  telemetry : Telemetry
deriving Inhabited

namespace Config

/-! ## 4. Starting points -/

/-- The label of machine-written declarations. -/
def generatedLabel : String := "Generated"

/-- The label of deprecated declarations. -/
def deprecatedLabel : String := "Deprecated"

/-- A rule entry that only names its rule. -/
def RuleEntry.named (id : String) : RuleEntry := ⟨id, .none, ⟨""⟩, .none, .none⟩

/-- The policy without values. -/
def Policy.blank : Policy := ⟨"", [], ⟨""⟩, [], ⟨""⟩, .none⟩

/-- No kind of type. -/
def TypeKinds.none : TypeKinds := ⟨false, false, false, false, false, false⟩

/-- No kind of member. -/
def MemberKinds.none : MemberKinds :=
  ⟨false, false, false, false, false, false, false, false, false⟩

/-- The configuration without values. -/
def empty : Config where
  projectRoot := ""
  scan := ⟨.none, ⟨.none, .none, .none⟩, ⟨.none, .none, .none, false⟩, []⟩
  defaults := ⟨⟨[], []⟩, []⟩
  rules := []
  failOn := ⟨""⟩
  telemetry := ⟨⟨"", "", false⟩, ⟨false, "", ""⟩, ⟨false, "", false, "", .zero⟩⟩

/-- The configuration that holds where a document says nothing. -/
def default : Config where
  projectRoot := "."
  scan := {
    packages := .none
    types := ⟨⟨true, true, true, true, true, true⟩, .none, .none⟩
    members := ⟨⟨true, true, true, true, true, true, true, true, false⟩, .none, .none, false⟩
    visibilities := [.pub, .prot] }
  defaults := {
    severity := ⟨[(.pub, .error), (.prot, .warn)], []⟩
    policies := [
      { Policy.blank with annotationPattern := generatedLabel, effect := .suppress },
      { Policy.blank with
        annotationPattern := deprecatedLabel, effect := .shiftSeverity, shift := some (-1) }] }
  rules := [RuleEntry.named "doc-presence",
    { RuleEntry.named "doc-name-prefix" with enabled := some false }]
  failOn := .error
  telemetry :=
    ⟨⟨"warn", "text", false⟩, ⟨false, "docguard", ""⟩, ⟨false, "", false, "docguard", .one⟩⟩

end Config

end DocAudit
