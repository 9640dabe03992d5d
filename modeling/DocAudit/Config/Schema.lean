import DocAudit.Data.Json
import DocAudit.Element

/-!
# The schema of configuration documents

Which keys a configuration document may have, and what stands under them, as a JSON schema.  A
record admits no other keys than its own; the options of a rule are free.
-/

namespace DocAudit.Config

/-! ## 1. Shapes -/

/-- What a value may be. -/
inductive Shape where
  | text
  | truth
  | whole
  | number
  /-- Anything with keys. -/
  | free
  /-- One of some words. -/
  | word (words : List String)
  | listOf (item : Shape)
  /-- Any keys, with values of one shape. -/
  | dictOf (value : Shape)
  /-- A record, by its name. -/
  | named (name : String)
deriving Repr, Inhabited

/-- A record: its name, its keys and the shapes under them. -/
structure RecordShape where
  name : String
  fields : List (String × Shape)
deriving Repr, Inhabited

/-- A list of texts. -/
def Shape.texts : Shape := .listOf .text

/-- A severity. -/
def Shape.severity : Shape := .word (Severity.scale.map (·.text))

/-- A kind of element. -/
def Shape.kind : Shape := .word (Kind.all.map (·.text))

/-- A visibility. -/
def Shape.visibility : Shape := .word (Visibility.all.map (·.text))

/-- Switches. -/
def switches (names : List String) : List (String × Shape) := names.map fun n => (n, .truth)

/-- **The records of a configuration document**, by name. -/
def recordShapes : List RecordShape := [
  ⟨"AnnotationPolicy", [("annotation_pattern", .text), ("targets", .listOf .kind),
    ("effect", .word (Effect.all.map (·.text))), ("rules", .texts), ("to_severity", .severity),
    ("shift", .whole)]⟩,
  ⟨"Config", [("project_root", .text), ("scan", .named "ScanConfig"),
    ("defaults", .named "DefaultsConfig"), ("rules", .listOf (.named "RuleConfig")),
    ("fail_on", .named "FailOnConfig"), ("telemetry", .named "TelemetryConfig")]⟩,
  ⟨"DefaultsConfig", [("severity", .named "SeverityProfile"),
    ("annotation_policies", .listOf (.named "AnnotationPolicy"))]⟩,
  ⟨"FailOnConfig", [("severity", .severity)]⟩,
  ⟨"Filter", [("include", .texts), ("exclude", .texts)]⟩,
  ⟨"LoggingConfig", [("level", .text), ("format", .text), ("add_source", .truth)]⟩,
  ⟨"MemberKinds", switches ["fields", "methods", "constructors", "functions", "constants",
    "variables", "getters", "setters", "embedded"]⟩,
  ⟨"MemberScanConfig", [("include", .named "MemberKinds"), ("names", .named "Filter"),
    ("annotations", .named "Filter"), ("include_inherited", .truth)]⟩,
  ⟨"MetricsConfig", [("enabled", .truth), ("namespace", .text), ("textfile", .text)]⟩,
  ⟨"RuleConfig", [("id", .text), ("enabled", .truth), ("severity", .severity),
    ("when", .named "Selector"), ("config", .free)]⟩,
  ⟨"ScanConfig", [("packages", .named "Filter"), ("types", .named "TypeScanConfig"),
    ("members", .named "MemberScanConfig"), ("visibilities", .listOf .visibility)]⟩,
  ⟨"Selector", [("targets", .listOf .kind), ("visibility", .listOf .visibility),
    ("member_kinds", .listOf (.word (MemberKind.all.map (·.text)))),
    ("accessor_kinds", .listOf (.word (AccessorKind.all.map (·.text)))),
    ("package_patterns", .texts), ("fqn_patterns", .texts), ("simple_name_patterns", .texts),
    ("signature_patterns", .texts), ("annotations", .named "Filter")]⟩,
  ⟨"SeverityOverride", [("match", .named "Selector"), ("severity", .severity)]⟩,
  ⟨"SeverityProfile", [("by_visibility", .dictOf .severity),
    ("overrides", .listOf (.named "SeverityOverride"))]⟩,
  ⟨"TelemetryConfig", [("logging", .named "LoggingConfig"), ("metrics", .named "MetricsConfig"),
    ("tracing", .named "TracingConfig")]⟩,
  ⟨"TracingConfig", [("enabled", .truth), ("endpoint", .text), ("insecure", .truth),
    ("service_name", .text), ("sample_ratio", .number)]⟩,
  ⟨"TypeKinds", switches ["structs", "interfaces", "func_types", "defined", "aliases", "errors"]⟩,
  ⟨"TypeScanConfig", [("include", .named "TypeKinds"), ("names", .named "Filter"),
    ("annotations", .named "Filter")]⟩]

/-! ## 2. The schema -/

/-- The entry for the type of a value. -/
def typeEntry (t : String) : String × Data := ("type", .text t)

/-- The place of a record in the schema. -/
def referenceTo (name : String) : String × Data := ("$ref", .text ("#/$defs/" ++ name))

/-- A shape as data. -/
def Shape.toData : Shape → Data
  | .text => .record [typeEntry "string"]
  | .truth => .record [typeEntry "boolean"]
  | .whole => .record [typeEntry "integer"]
  | .number => .record [typeEntry "number"]
  | .free => .record [typeEntry "object"]
  | .word ws => .record [typeEntry "string", ("enum", .texts ws)]
  | .listOf s => .record [("items", s.toData), typeEntry "array"]
  | .dictOf s => .record [("additionalProperties", s.toData), typeEntry "object"]
  | .named n => .record [referenceTo n]

/-- A record as data. -/
def RecordShape.toData (r : RecordShape) : Data :=
  .record [("properties", .record (r.fields.map fun (k, s) => (k, s.toData))),
    ("additionalProperties", .bool false), typeEntry "object"]

/-- The schema as data. -/
def schemaData : Data :=
  .record [("$schema", .text "https://json-schema.org/draft/2020-12/schema"),
    ("$id", .text "https://mercator-hq.dev/schemas/docguard.schema.json"), referenceTo "Config",
    ("$defs", .record (recordShapes.map fun r => (r.name, r.toData))),
    ("title", .text "docguard configuration"),
    ("description", .text "Configuration for the docguard API documentation auditor.")]

/-- **The text of the schema.** -/
def schemaText : String := schemaData.jsonIndented ++ "\n"

end DocAudit.Config
