import DocAudit.Config.Basic
import DocAudit.Yaml.Write

/-!
# Configurations as documents

`Config.toNode` is the document of a configuration, with every field that has a value or is always
written; `Config.write` is its text.  Options of rules are written as they were read.
-/

namespace DocAudit

namespace Config

open Yaml

/-- A list of texts. -/
def textNodes (ss : List String) : Node := .ofList (ss.map Node.ofText)

/-- An entry that is left out for an empty list. -/
def optionalTexts (key : String) (ss : List String) : List (String × Node) :=
  if ss.isEmpty then [] else [(key, textNodes ss)]

/-- An entry that is left out for an empty text. -/
def optionalText (key s : String) : List (String × Node) :=
  if s == "" then [] else [(key, .ofText s)]

/-- An entry that is left out where there is no value. -/
def optionalEntry {α : Type} (key : String) (f : α → Node) : Option α → List (String × Node)
  | none => []
  | some a => [(key, f a)]

/-- An entry that is left out for a false value. -/
def optionalFlag (key : String) (b : Bool) : List (String × Node) :=
  if b then [(key, .ofBool b)] else []

/-- A filter. -/
def Filter.toNode (f : Filter) : Node :=
  .ofEntries [("include", textNodes f.includes), ("exclude", textNodes f.excludes)]

/-- The kinds of types. -/
def TypeKinds.toNode (k : TypeKinds) : Node :=
  .ofEntries [("structs", .ofBool k.structs), ("interfaces", .ofBool k.interfaces),
    ("func_types", .ofBool k.funcTypes), ("defined", .ofBool k.defined),
    ("aliases", .ofBool k.aliases), ("errors", .ofBool k.errors)]

/-- The kinds of members. -/
def MemberKinds.toNode (k : MemberKinds) : Node :=
  .ofEntries [("fields", .ofBool k.fields), ("methods", .ofBool k.methods),
    ("constructors", .ofBool k.constructors), ("functions", .ofBool k.functions),
    ("constants", .ofBool k.constants), ("variables", .ofBool k.vars),
    ("getters", .ofBool k.getters), ("setters", .ofBool k.setters),
    ("embedded", .ofBool k.embedded)]

/-- What is scanned. -/
def Scan.toNode (s : Scan) : Node :=
  .ofEntries [("packages", s.packages.toNode),
    ("types", .ofEntries [("include", s.types.kinds.toNode), ("names", s.types.names.toNode),
      ("annotations", s.types.annotations.toNode)]),
    ("members", .ofEntries [("include", s.members.kinds.toNode), ("names", s.members.names.toNode),
      ("annotations", s.members.annotations.toNode),
      ("include_inherited", .ofBool s.members.inherited)]),
    ("visibilities", textNodes (s.visibilities.map (·.text)))]

/-- A selector; a filter without patterns is left out. -/
def Selector.toNode (s : Selector) : Node :=
  .ofEntries (optionalTexts "targets" (s.targets.map (·.text)) ++
    optionalTexts "visibility" (s.visibility.map (·.text)) ++
    optionalTexts "member_kinds" (s.memberKinds.map (·.text)) ++
    optionalTexts "accessor_kinds" (s.accessorKinds.map (·.text)) ++
    optionalTexts "package_patterns" s.packagePatterns ++
    optionalTexts "fqn_patterns" s.fqnPatterns ++
    optionalTexts "simple_name_patterns" s.simpleNamePatterns ++
    optionalTexts "signature_patterns" s.signaturePatterns ++
    optionalEntry "annotations" Filter.toNode (s.annotations.filter fun f => !f.isEmpty))

/-- An override. -/
def Override.toNode (o : Override) : Node :=
  .ofEntries (optionalEntry "match" Selector.toNode o.condition ++
    [("severity", .ofText o.severity.text)])

/-- An annotation policy. -/
def Policy.toNode (p : Policy) : Node :=
  .ofEntries ([("annotation_pattern", Node.ofText p.annotationPattern)] ++
    optionalTexts "targets" (p.targets.map (·.text)) ++ [("effect", .ofText p.effect.text)] ++
    optionalTexts "rules" p.rules ++ optionalText "to_severity" p.toSeverity.text ++
    optionalEntry "shift" (fun n => Node.ofInt n.toInt) p.shift)

/-- Severities and policies. -/
def Defaults.toNode (d : Defaults) : Node :=
  .ofEntries [
    ("severity", .ofEntries [
      ("by_visibility", .ofEntries (sortKeys (d.severity.byVisibility.map fun (v, s) =>
        (v.text, Node.ofText s.text)))),
      ("overrides", .ofList (d.severity.overrides.map Override.toNode))]),
    ("annotation_policies", .ofList (d.policies.map Policy.toNode))]

/-- A rule entry. -/
def RuleEntry.toNode (r : RuleEntry) : Node :=
  .ofEntries ([("id", Node.ofText r.id)] ++ optionalEntry "enabled" Node.ofBool r.enabled ++
    optionalText "severity" r.severity.text ++ optionalEntry "when" Selector.toNode r.condition ++
    optionalEntry "config" (fun n => n) r.options)

/-- What a run reports about itself. -/
def Telemetry.toNode (t : Telemetry) : Node :=
  .ofEntries [
    ("logging", .ofEntries [("level", .ofText t.logging.level),
      ("format", .ofText t.logging.format), ("add_source", .ofBool t.logging.addSource)]),
    ("metrics", .ofEntries (optionalFlag "enabled" t.metrics.enabled ++
      [("namespace", .ofText t.metrics.namespace_), ("textfile", .ofText t.metrics.textfile)])),
    ("tracing", .ofEntries (optionalFlag "enabled" t.tracing.enabled ++
      [("endpoint", .ofText t.tracing.endpoint), ("insecure", .ofBool t.tracing.insecure),
        ("service_name", .ofText t.tracing.serviceName),
        ("sample_ratio", .ofFloat t.tracing.sampleRatio)]))]

/-- **The document of a configuration.** -/
def toNode (c : Config) : Node :=
  .ofEntries [("project_root", .ofText c.projectRoot), ("scan", c.scan.toNode),
    ("defaults", c.defaults.toNode), ("rules", .ofList (c.rules.map RuleEntry.toNode)),
    ("fail_on", .ofEntries [("severity", .ofText c.failOn.text)]),
    ("telemetry", c.telemetry.toNode)]

/-- The text of a configuration. -/
def write (c : Config) : String := c.toNode.write

end Config

end DocAudit
