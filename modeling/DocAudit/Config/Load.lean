import DocAudit.Config.Decode
import DocAudit.Config.Encode
import DocAudit.Config.Validate
import DocAudit.Yaml.Document

/-!
# Reading configurations

A configuration is decoded over the default one and checked.  Variables of the environment override
single fields afterwards, and the result is checked again.
-/

namespace DocAudit.Config

open DocAudit.Text

/-! ## 1. From a text -/

/-- Decodes bytes over a configuration; bytes without document change nothing. -/
def decodeBytes (base : Config) (bytes : ByteArray) : Except Error Config :=
  match Yaml.readDocument bytes with
  | .error e => .error (.yaml e)
  | .ok none => .ok base
  | .ok (some n) => (decodeOver base n).mapError Error.yaml

/-- A configuration, if it meets its constraints; `label` says when it is checked. -/
def checked (label : String) (c : Config) : Except Error Config :=
  match validate (some c) with
  | .ok () => .ok c
  | .error e => .error (.context label e)

/-- The message for a configuration that breaks a constraint. -/
def invalidLabel : String := "configuration validation failed"

/-- **The configuration that a text describes.** -/
def parse (text : String) : Except Error Config := do
  let c ← (decodeBytes default text.toUTF8).mapError (.context "failed to parse configuration")
  checked invalidLabel c

/-- The data that the text of a configuration holds.  The sample ratio is a number that may have a
fraction even where its text is a whole number. -/
def data (c : Config) : Except Yaml.Error Data := do
  match ← Yaml.readDocument c.write.toUTF8 with
  | some n =>
    let d ← n.toData
    return d.change (fun _ => .float c.telemetry.tracing.sampleRatio)
      ["telemetry", "tracing", "sample_ratio"]
  | none => return .null

/-- The options of a rule that describe data: what a reader of their text gets. -/
def optionsOf (d : Data) : Except Error Yaml.Node :=
  match Yaml.readDocument (Yaml.Node.ofData d).write.toUTF8 with
  | .ok n => .ok (n.getD .null).withoutPlaces
  | .error e => .error (.context "failed to encode rule options" (.yaml e))

/-! ## 2. From a file -/

/-- The names under which a configuration file is looked for. -/
def fileNames : List String := [".docguard.yaml", ".docguard.yml", "docguard.yaml", "docguard.yml"]

/-- The configuration of a file, whose content may not be had. -/
def ofFile (path : String) (content : Except Error ByteArray) : Except Error Config := do
  let bytes ← content.mapError (.context ("failed to read configuration file " ++ quoted path))
  let c ← (decodeBytes default bytes).mapError
    (.context ("failed to parse configuration file " ++ quoted path))
  checked invalidLabel c

/-! ## 3. Variables of the environment -/

/-- The truth value that a variable's text names. -/
def truthWord? (s : String) : Option Bool :=
  if ["1", "t", "T", "TRUE", "true", "True"].contains s then some true
  else if ["0", "f", "F", "FALSE", "false", "False"].contains s then some false
  else none

/-- The severity of a variable's text; a word that names none stays, and the check reports it. -/
def severityWord (s : String) : Severity := (Severity.parse? s).getD ⟨s⟩

/-- How the variables change a configuration. -/
def overrides : List (String × (String → Config → Config)) := [
  ("DOCGUARD_PROJECT_ROOT", fun s c => { c with projectRoot := s }),
  ("DOCGUARD_FAIL_ON_SEVERITY", fun s c => { c with failOn := severityWord s }),
  ("DOCGUARD_TELEMETRY_LOGGING_LEVEL", fun s c => { c with telemetry.logging.level := s }),
  ("DOCGUARD_TELEMETRY_LOGGING_FORMAT", fun s c => { c with telemetry.logging.format := s }),
  ("DOCGUARD_TELEMETRY_METRICS_ENABLED", fun s c => match truthWord? s with
    | some b => { c with telemetry.metrics.enabled := b }
    | none => c),
  ("DOCGUARD_TELEMETRY_METRICS_TEXTFILE", fun s c => { c with telemetry.metrics.textfile := s }),
  ("DOCGUARD_TELEMETRY_TRACING_ENABLED", fun s c => match truthWord? s with
    | some b => { c with telemetry.tracing.enabled := b }
    | none => c),
  ("DOCGUARD_TELEMETRY_TRACING_ENDPOINT", fun s c => { c with telemetry.tracing.endpoint := s })]

/-- The variables of the environment and their values. -/
abbrev Environment := List (String × String)

/-- The configuration with the variables applied; an empty one counts as not set. -/
def withEnvironment (env : Environment) (c : Config) : Config :=
  overrides.foldl (fun c (name, apply) =>
    match env.lookup name with
    | some s => if s == "" then c else apply s c
    | none => c) c

/-- A configuration with the variables applied, checked again. -/
def overridden (env : Environment) (c : Config) : Except Error Config :=
  checked "configuration validation failed after environment overrides" (c.withEnvironment env)

end DocAudit.Config
