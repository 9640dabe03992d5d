import DocAudit.Config.Basic
import DocAudit.Yaml.Decode

/-!
# Decoding a configuration

The slots of the configuration's parts, and `Config.decodeOver`, which decodes a document over a
configuration.  A key that is not listed here is refused.
-/

namespace DocAudit

namespace Config

open Yaml

/-! ## 1. Scalars -/

/-- Texts. -/
def textsSlot : Slot (List String) := listSlot "[]string" (textSlot "string") ""

/-- A severity. -/
def severitySlot : Slot Severity := wordSlot "model.Severity" Severity.mk

/-- A visibility. -/
def visibilitySlot : Slot Visibility := wordSlot "model.Visibility" Visibility.mk

/-- Visibilities. -/
def visibilitiesSlot : Slot (List Visibility) := listSlot "[]model.Visibility" visibilitySlot ⟨""⟩

/-- Kinds. -/
def kindsSlot : Slot (List Kind) := listSlot "[]model.Kind" (wordSlot "model.Kind" Kind.mk) ⟨""⟩

/-! ## 2. What is scanned -/

/-- A filter. -/
def filterSlot : Slot Filter := recordSlot true "config.Filter" [
  field "include" textsSlot (·.includes) fun r v => { r with includes := v },
  field "exclude" textsSlot (·.excludes) fun r v => { r with excludes := v }]

/-- The kinds of types. -/
def typeKindsSlot : Slot TypeKinds := recordSlot true "config.TypeKinds" [
  field "structs" boolSlot (·.structs) fun r v => { r with structs := v },
  field "interfaces" boolSlot (·.interfaces) fun r v => { r with interfaces := v },
  field "func_types" boolSlot (·.funcTypes) fun r v => { r with funcTypes := v },
  field "defined" boolSlot (·.defined) fun r v => { r with defined := v },
  field "aliases" boolSlot (·.aliases) fun r v => { r with aliases := v },
  field "errors" boolSlot (·.errors) fun r v => { r with errors := v }]

/-- Which types are scanned. -/
def typeScanSlot : Slot TypeScan := recordSlot true "config.TypeScanConfig" [
  field "include" typeKindsSlot (·.kinds) fun r v => { r with kinds := v },
  field "names" filterSlot (·.names) fun r v => { r with names := v },
  field "annotations" filterSlot (·.annotations) fun r v => { r with annotations := v }]

/-- The kinds of members. -/
def memberKindsSlot : Slot MemberKinds := recordSlot true "config.MemberKinds" [
  field "fields" boolSlot (·.fields) fun r v => { r with fields := v },
  field "methods" boolSlot (·.methods) fun r v => { r with methods := v },
  field "constructors" boolSlot (·.constructors) fun r v => { r with constructors := v },
  field "functions" boolSlot (·.functions) fun r v => { r with functions := v },
  field "constants" boolSlot (·.constants) fun r v => { r with constants := v },
  field "variables" boolSlot (·.vars) fun r v => { r with vars := v },
  field "getters" boolSlot (·.getters) fun r v => { r with getters := v },
  field "setters" boolSlot (·.setters) fun r v => { r with setters := v },
  field "embedded" boolSlot (·.embedded) fun r v => { r with embedded := v }]

/-- Which members are scanned. -/
def memberScanSlot : Slot MemberScan := recordSlot true "config.MemberScanConfig" [
  field "include" memberKindsSlot (·.kinds) fun r v => { r with kinds := v },
  field "names" filterSlot (·.names) fun r v => { r with names := v },
  field "annotations" filterSlot (·.annotations) fun r v => { r with annotations := v },
  field "include_inherited" boolSlot (·.inherited) fun r v => { r with inherited := v }]

/-- What is scanned. -/
def scanSlot : Slot Scan := recordSlot true "config.ScanConfig" [
  field "packages" filterSlot (·.packages) fun r v => { r with packages := v },
  field "types" typeScanSlot (·.types) fun r v => { r with types := v },
  field "members" memberScanSlot (·.members) fun r v => { r with members := v },
  field "visibilities" visibilitiesSlot (·.visibilities) fun r v => { r with visibilities := v }]

/-! ## 3. Severities -/

/-- A selector. -/
def selectorSlot : Slot Selector := recordSlot true "config.Selector" [
  field "targets" kindsSlot (·.targets) fun r v => { r with targets := v },
  field "visibility" visibilitiesSlot (·.visibility) fun r v => { r with visibility := v },
  field "member_kinds"
    (listSlot "[]model.MemberKind" (wordSlot "model.MemberKind" MemberKind.mk) ⟨""⟩)
    (·.memberKinds) fun r v => { r with memberKinds := v },
  field "accessor_kinds"
    (listSlot "[]model.AccessorKind" (wordSlot "model.AccessorKind" AccessorKind.mk) ⟨""⟩)
    (·.accessorKinds) fun r v => { r with accessorKinds := v },
  field "package_patterns" textsSlot (·.packagePatterns) fun r v => { r with packagePatterns := v },
  field "fqn_patterns" textsSlot (·.fqnPatterns) fun r v => { r with fqnPatterns := v },
  field "simple_name_patterns" textsSlot (·.simpleNamePatterns)
    fun r v => { r with simpleNamePatterns := v },
  field "signature_patterns" textsSlot (·.signaturePatterns)
    fun r v => { r with signaturePatterns := v },
  field "annotations" (optionSlot "config.Filter" filterSlot .none) (·.annotations)
    fun r v => { r with annotations := v }]

/-- An override. -/
def overrideSlot : Slot Override := recordSlot true "config.SeverityOverride" [
  field "match" (optionSlot "config.Selector" selectorSlot .any) (·.condition)
    fun r v => { r with condition := v },
  field "severity" severitySlot (·.severity) fun r v => { r with severity := v }]

/-- A severity profile. -/
def profileSlot : Slot SeverityProfile := recordSlot true "config.SeverityProfile" [
  field "by_visibility"
    (dictSlot "map[model.Visibility]model.Severity" visibilitySlot ⟨""⟩ severitySlot ⟨""⟩)
    (·.byVisibility) fun r v => { r with byVisibility := v },
  field "overrides" (listSlot "[]config.SeverityOverride" overrideSlot ⟨.none, ⟨""⟩⟩)
    (·.overrides) fun r v => { r with overrides := v }]

/-- An annotation policy. -/
def policySlot : Slot Policy := recordSlot true "config.AnnotationPolicy" [
  field "annotation_pattern" (textSlot "string") (·.annotationPattern)
    fun r v => { r with annotationPattern := v },
  field "targets" kindsSlot (·.targets) fun r v => { r with targets := v },
  field "effect" (wordSlot "model.Effect" Effect.mk) (·.effect) fun r v => { r with effect := v },
  field "rules" textsSlot (·.rules) fun r v => { r with rules := v },
  field "to_severity" severitySlot (·.toSeverity) fun r v => { r with toSeverity := v },
  field "shift" (optionSlot "int" intSlot 0) (·.shift) fun r v => { r with shift := v }]

/-- Severities and policies. -/
def defaultsSlot : Slot Defaults := recordSlot true "config.DefaultsConfig" [
  field "severity" profileSlot (·.severity) fun r v => { r with severity := v },
  field "annotation_policies" (listSlot "[]config.AnnotationPolicy" policySlot .blank) (·.policies)
    fun r v => { r with policies := v }]

/-! ## 4. Rules and the rest -/

/-- The options of a rule: any node but null, which leaves them as they are.  A collection that is
called null is none of both. -/
def optionsSlot : Slot (Option Node) := fun n old => do
  if n.isNull then
    let none : List (FieldSlot Unit) := []
    let (_, good) ← recordSlot true "config.RuleOptions" none n ()
    return (old, good)
  else return (some n, true)

/-- A rule entry. -/
def ruleSlot : Slot RuleEntry := recordSlot true "config.RuleConfig" [
  field "id" (textSlot "string") (·.id) fun r v => { r with id := v },
  field "enabled" (optionSlot "bool" boolSlot false) (·.enabled) fun r v => { r with enabled := v },
  field "severity" severitySlot (·.severity) fun r v => { r with severity := v },
  field "when" (optionSlot "config.Selector" selectorSlot .any) (·.condition)
    fun r v => { r with condition := v },
  field "config" optionsSlot (·.options) fun r v => { r with options := v }]

/-- The failure threshold. -/
def failOnSlot : Slot Severity := recordSlot true "config.FailOnConfig" [
  field "severity" severitySlot id fun _ v => v]

/-- The log. -/
def loggingSlot : Slot Logging := recordSlot true "config.LoggingConfig" [
  field "level" (textSlot "string") (·.level) fun r v => { r with level := v },
  field "format" (textSlot "string") (·.format) fun r v => { r with format := v },
  field "add_source" boolSlot (·.addSource) fun r v => { r with addSource := v }]

/-- The counters. -/
def metricsSlot : Slot Metrics := recordSlot true "config.MetricsConfig" [
  field "enabled" boolSlot (·.enabled) fun r v => { r with enabled := v },
  field "namespace" (textSlot "string") (·.namespace_) fun r v => { r with namespace_ := v },
  field "textfile" (textSlot "string") (·.textfile) fun r v => { r with textfile := v }]

/-- The trace. -/
def tracingSlot : Slot Tracing := recordSlot true "config.TracingConfig" [
  field "enabled" boolSlot (·.enabled) fun r v => { r with enabled := v },
  field "endpoint" (textSlot "string") (·.endpoint) fun r v => { r with endpoint := v },
  field "insecure" boolSlot (·.insecure) fun r v => { r with insecure := v },
  field "service_name" (textSlot "string") (·.serviceName) fun r v => { r with serviceName := v },
  field "sample_ratio" floatSlot (·.sampleRatio) fun r v => { r with sampleRatio := v }]

/-- What a run reports about itself. -/
def telemetrySlot : Slot Telemetry := recordSlot true "config.TelemetryConfig" [
  field "logging" loggingSlot (·.logging) fun r v => { r with logging := v },
  field "metrics" metricsSlot (·.metrics) fun r v => { r with metrics := v },
  field "tracing" tracingSlot (·.tracing) fun r v => { r with tracing := v }]

/-- A configuration. -/
def configSlot : Slot Config := recordSlot true "config.Config" [
  field "project_root" (textSlot "string") (·.projectRoot) fun r v => { r with projectRoot := v },
  field "scan" scanSlot (·.scan) fun r v => { r with scan := v },
  field "defaults" defaultsSlot (·.defaults) fun r v => { r with defaults := v },
  field "rules" (listSlot "[]config.RuleConfig" ruleSlot (.named "")) (·.rules)
    fun r v => { r with rules := v },
  field "fail_on" failOnSlot (·.failOn) fun r v => { r with failOn := v },
  field "telemetry" telemetrySlot (·.telemetry) fun r v => { r with telemetry := v }]

/-- **Decodes a document over a configuration.** -/
def decodeOver (c : Config) (n : Node) : Except Yaml.Error Config := configSlot.run n c

end Config

end DocAudit
