import DocAudit.Audit.Report
import DocAudit.Audit.Run
import DocAudit.Command.Suggest
import DocAudit.Config.Dotenv
import DocAudit.Config.Encode
import DocAudit.Config.Schema
import DocAudit.Data.Output
import DocAudit.Files.Project
import DocAudit.Files.Settings
import DocAudit.Files.Textfile
import DocAudit.Policy.Compile
import DocAudit.Text.Utf8

/-!
# The program

What the program does with its arguments: it finds the command that they name, reads the flags, and
runs the command on a workspace.

* `execute` is the whole program as a function of the workspace, the environment and the arguments;
* a command that fails changes nothing, but for the log;
* `Outcome.exitCode` depends on the error only.
-/

namespace DocAudit.Command

open DocAudit.Text

/-! ## 1. Running commands -/

/-- What a command runs in. -/
structure Context where
  workspace : Files.Workspace
  environment : Config.Environment
  /-- Whether the output may have colours. -/
  color : Bool
  runId : String
  /-- The time of log entries, as they show it. -/
  time : String
  timing : Audit.Timing

/-- What a command leaves: its output, the lines of its log, its error if it failed, and the
workspace. -/
structure Outcome where
  output : String
  log : List String
  error : Option Error
  workspace : Files.Workspace

namespace Outcome

/-- The outcome of a command that only has output. -/
def printed (c : Context) (text : String) : Outcome := ⟨text, [], none, c.workspace⟩

/-- The outcome of a command that failed. -/
def failed (c : Context) (log : List String) (e : Error) : Outcome := ⟨"", log, some e, c.workspace⟩

/-- The exit status. -/
def exitCode (o : Outcome) : Nat := exitCodeOf o.error

/-- What is shown besides the output: the log, and the error. -/
def messages (o : Outcome) : String :=
  join "" (o.log.map (· ++ "\n")) ++
    match o.error with
    | some e => programName ++ ": " ++ e.message ++ "\n"
    | none => ""

end Outcome

/-- The environment with the variables of the file `.env` of the current directory. -/
def Context.allVars (c : Context) : Config.Environment :=
  match c.workspace.read ".env" with
  | .ok content => Config.Dotenv.withFile c.environment (textOfBytes content.toList)
  | .error _ => c.environment

/-- The configuration for a command and the path of its file, which is empty for the defaults.  An
operand is the project's root and where the file is looked for. -/
def loadConfig (c : Context) (p : Parsed) (operands : List String) :
    Except Error (Config × String) :=
  let named := p.text "config"
  let path := if named == "" then Files.discover c.workspace (operands.head?.getD ".") else named
  match Files.loadConfig c.workspace (some c.allVars) path with
  | .error e =>
    let source := if path == "" then "defaults" else path
    .error (.setting source "failed to load configuration" (some e))
  | .ok cfg =>
    match operands with
    | root :: _ => .ok ({ cfg with projectRoot := root }, path)
    | [] => .ok (cfg, path)

/-- Checks the configuration. -/
def runValidate (c : Context) (p : Parsed) : Except Error String := do
  let (cfg, path) ← loadConfig c p p.operands
  let _ ← Policy.compileChecked (some cfg)
  return "✓ " ++ (if path == "" then "built-in defaults" else path) ++ " is valid\n"

/-- Shows the configuration. -/
def runShow (c : Context) (p : Parsed) : Except Error String := do
  return (← loadConfig c p p.operands).1.write

/-- What a configuration says about a rule. -/
def ruleStatus (cfg : Config) (id : String) : String :=
  match cfg.rules.reverse.find? (·.id == id) with
  | some r => if r.isEnabled then "enabled" else "disabled"
  | none => "-"

/-- Lists the rules. -/
def runRules (c : Context) (p : Parsed) : Except Error String := do
  let format ← OutputFormat.parse (p.textOr "format" "text") ["text", "json", "yaml"]
  let (cfg, _) ← loadConfig c p []
  let rows := Rule.Registry.builtin.all.map fun r => [r.id, ruleStatus cfg r.id, r.description]
  return (Output.table ⟨["ID", "Status", "Description"], rows⟩).render (OutputFormat.ofName format)

/-- Writes the schema. -/
def runSchema (c : Context) (p : Parsed) : Outcome :=
  let path := p.text "output"
  if path == "" then .printed c Config.schemaText
  else
    match c.workspace.write path Config.schemaText.toUTF8 with
    | .ok w => ⟨"", [], none, w⟩
    | .error e =>
      let cause := Error.context ("failed to write " ++ path) (e.toError "open" path)
      .failed c [] (.command "schema" cause)

/-- Tells the version. -/
def versionText : String :=
  programName ++ " " ++ programVersion ++ "\nGit Commit: unknown\nBuild Date: unknown\n"

/-- Whether a character can stand between backquotes as it is. -/
def isRaw (c : Char) : Bool :=
  c == '\t' || (' ' ≤ c && c != '\x60' && c != '\x7f' && c != '\ufeff')

/-- A word in backquotes if it can stand there, and else in double quotes. -/
def backquoted (s : String) : String :=
  if s.toList.all isRaw then "\x60" ++ s ++ "\x60" else quoted s

/-- The page of the command that some words name. -/
def runHelp (words : List String) : String :=
  match find words with
  | .ok (r, _) => pageOf r
  | .error _ =>
    let top : Route Action := ⟨[], program⟩
    "Unknown help topic [" ++ join " " (words.map backquoted) ++ "]\n" ++
      top.usage (ownFlags top) (sharedFlags top)

/-! ## 2. Scanning -/

/-- What a scan goes by. -/
structure ScanPlan where
  format : Audit.ReportFormat
  config : Config
  compiled : Policy.Compiled
  logger : Log.Logger

/-- The configuration with the flags of a scan applied. -/
def withScanFlags (p : Parsed) (cfg : Config) : Except Error Config := do
  let failOn := p.text "fail-on"
  let metricsFile := p.text "metrics-file"
  let cfg ← if failOn == "" then pure cfg
    else match Severity.parse? failOn with
      | some s => pure { cfg with failOn := s }
      | none => throw (.setting "--fail-on" (Severity.parseMessage failOn) none)
  return if metricsFile == "" then cfg else { cfg with telemetry.metrics.textfile := metricsFile }

/-- The logger of a configuration; a verbose one shows everything. -/
def loggerOf (p : Parsed) (cfg : Config) : Except Error Log.Logger :=
  let l := cfg.telemetry.logging
  match Log.Logger.ofSettings (if p.on "verbose" then "debug" else l.level) l.format with
  | .ok l => .ok l
  | .error e => .error (.setting "telemetry.logging" "invalid logging settings" (some e))

/-- What a scan goes by, from its flags and the configuration. -/
def planScan (c : Context) (p : Parsed) : Except Error ScanPlan := do
  let format ← OutputFormat.parse (p.textOr "format" "text") ["text", "json"]
  let (cfg, _) ← loadConfig c p p.operands
  let cfg ← withScanFlags p cfg
  let logger ← loggerOf p cfg
  let _ ← (Trace.Tracer.ofConfig (some cfg.telemetry.tracing)).mapError fun e =>
    Error.setting "telemetry.tracing" "failed to start tracing" (some e)
  let compiled ← Policy.compileChecked (some cfg)
  let format ← Audit.ReportFormat.parse format
  return ⟨format, cfg, compiled, logger⟩

/-- The collector of a scan: there is one if metrics are enabled or a file is named for them. -/
def collectorOf (m : Config.Metrics) : Option Metrics.Collector :=
  if m.enabled || m.textfile != "" then some ⟨m.namespace_, []⟩ else none

/-- The workspace with the metrics of a run written, if the configuration names a file for them, and
the log of writing them. -/
def writeRunMetrics (w : Files.Workspace) (cfg : Config) (events : List Metrics.Event) :
    Files.Workspace × List Log.Entry :=
  let m := cfg.telemetry.metrics
  let (collector, _) := Metrics.Collector.tell (collectorOf m) (events, none)
  if m.textfile == "" then (w, [])
  else
    match Files.writeMetrics w m.textfile collector with
    | .ok w => (w, [])
    | .error _ => (w, [⟨.warn, "failed to write metrics", [.ofText "path" m.textfile]⟩])

/-- The error of a run whose issues reach the threshold. -/
def failureOf (c : Policy.Compiled) (r : Audit.Result) : Option Error :=
  if r.fails c.failOn then some (.threshold c.failOn (r.atLeast c.failOn)) else none

/-- **Scans a project**, reports the issues and writes the metrics. -/
def runScan (c : Context) (p : Parsed) : Outcome :=
  match planScan c p with
  | .error e => .failed c [] e
  | .ok plan =>
    let lines (es : List Log.Entry) : List String := es.filterMap (plan.logger.line? c.time)
    let cc := plan.compiled
    match Files.scanProject c.workspace cc.projectRoot cc.scan false with
    | (.error e, log) => .failed c (lines log) e
    | (.ok v, log) =>
      match Audit.run cc .builtin v c.runId c.timing false with
      | (.error e, record) => .failed c (lines (log ++ record.log)) e
      | (.ok r, record) =>
        let (w, written) := writeRunMetrics c.workspace plan.config record.events
        { output := r.report plan.format (c.color && !p.on "no-color") cc.failOn
          log := lines (log ++ record.log ++ written)
          error := failureOf cc r
          workspace := w }

/-! ## 3. The whole -/

/-- Runs an action. -/
def perform (c : Context) (p : Parsed) : Action → Outcome
  | .scan => runScan c p
  | .rules => ofText (runRules c p)
  | .schema => runSchema c p
  | .version => .printed c versionText
  | .validateConfig => ofText (runValidate c p)
  | .showConfig => ofText (runShow c p)
  | .help => .printed c (runHelp p.operands)
  | .completion _ => .printed c ""
where
  /-- The outcome of a command that gives a text or fails. -/
  ofText : Except Error String → Outcome
    | .ok s => .printed c s
    | .error e => .failed c [] e

/-- Runs the command at the end of a route on the arguments left for it. -/
def runRoute (c : Context) (r : Route Action) (args : List String) : Outcome :=
  match parse (ownFlags r ++ sharedFlags r) args with
  | .error e => .failed c [] e
  | .ok p =>
    if p.on "help" then .printed c (pageOf r)
    else if r.isTop && p.on "version" then
      .printed c (programName ++ " version " ++ programVersion ++ "\n")
    else
      match r.command.info.action with
      | none => .printed c (pageOf r)
      | some a =>
        match r.checkArity p.operands with
        | .error e => .failed c [] e
        | .ok _ => perform c p a

/-- Answers a request of a shell about some words, the last of which is being typed. -/
def runRequest (c : Context) (described : Bool) (words : List String) : Outcome :=
  match words.getLast? with
  | none => .failed c [] (.plain "requires at least 1 arg(s), only received 0")
  | some word =>
    let advice := suggest words.dropLast word
    { Outcome.printed c (advice.text described) with
      log := ["Completion ended with directive: " ++ advice.codeName] }

/-- **Runs the program on its arguments.** -/
def execute (c : Context) (args : List String) : Outcome :=
  match request? args with
  | some (described, words) => runRequest c described words
  | none =>
    match find args with
    | .error e => .failed c [] e
    | .ok (r, rest) => runRoute c r rest

end DocAudit.Command
