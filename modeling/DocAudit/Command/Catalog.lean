import DocAudit.Command.Page

/-!
# The commands

The tree of the program's commands, with what each of them says about itself, and the way from
arguments to a command.

* `program` is the whole tree;
* `find` is the command that some arguments name.
-/

namespace DocAudit.Command

open DocAudit.Text

/-! ## 1. The commands -/

/-- What a command does. -/
inductive Action where
  | scan
  | rules
  | schema
  | version
  | validateConfig
  | showConfig
  | help
  /-- Accept the request for the script of a shell.  The scripts are kept apart from the program, so
  nothing is written. -/
  | completion (shell : String)
deriving Repr, DecidableEq, Inhabited

/-- The name of the program. -/
def programName : String := "docguard"

/-- The version of the program. -/
def programVersion : String := "0.1.0"

/-- The flags that every command has. -/
def globalFlags : List Flag := [
  ⟨"config", some 'c', .text "",
    "config file path (default: discovered in the scanned directory)"⟩,
  ⟨"verbose", some 'v', .switch, "debug logging on stderr"⟩]

/-- The command that audits a project. -/
def scanCommand : Tree Action := .mk {
  name := "scan"
  form := " [path] [flags]"
  short := "Audit the doc comments of a Go module"
  long := "Scan Go sources under path (default: project_root from the configuration)
and report documentation issues.

Each issue is printed as:
  [SEVERITY] message (rule-id) - file:line

The command exits with code 40 when an issue reaches the fail-on severity.

Examples:
  # Scan the current module
  docguard scan

  # Scan a directory with an explicit configuration
  docguard scan ./pkg --config docguard.yaml

  # JSON output for CI/CD, failing on warnings
  docguard scan --format json --fail-on WARN

  # Write Prometheus metrics for node_exporter
  docguard scan --metrics-file /var/lib/node_exporter/docguard.prom"
  flags := [⟨"format", none, .text "text", "output format: text, json"⟩,
    ⟨"fail-on", none, .text "",
      "lowest severity that fails the run: INFO, WARN, ERROR (overrides fail_on.severity)"⟩,
    ⟨"metrics-file", none, .text "", "write Prometheus metrics to this file"⟩,
    ⟨"no-color", none, .switch, "disable colored output"⟩]
  arity := .atMost 1
  action := some .scan } []

/-- The command that lists the rules. -/
def rulesCommand : Tree Action := .mk {
  name := "rules"
  form := " [flags]"
  short := "List the available rules"
  long := "List every registered rule with its status in the effective configuration.

Status is \"enabled\" or \"disabled\" for rules listed in the configuration and
\"-\" for rules that are not listed (and therefore do not run)."
  flags := [⟨"format", none, .text "text", "output format: text, json, yaml"⟩]
  arity := .none
  action := some .rules } []

/-- The command that writes the schema of configuration files. -/
def schemaCommand : Tree Action := .mk {
  name := "schema"
  form := " [flags]"
  short := "Print the JSON Schema of the configuration file"
  long := "Print the JSON Schema of the docguard configuration file.

Editors use the schema for completion and validation of docguard.yaml.

Examples:
  docguard schema
  docguard schema -o docguard.schema.json"
  flags := [⟨"output", some 'o', .text "", "write the schema to a file instead of stdout"⟩]
  arity := .none
  action := some .schema } []

/-- The command that tells the version. -/
def versionCommand : Tree Action := .mk {
  name := "version"
  form := " [flags]"
  short := "Print version information"
  long := "Print detailed version information including Git commit and build date."
  flags := []
  arity := .any
  action := some .version } []

/-- The commands about the configuration. -/
def configCommand : Tree Action := .mk {
  name := "config"
  form := ""
  short := "Inspect the effective configuration"
  long := "Inspect the configuration docguard would use.

The effective configuration is the defaults, overlaid with the config file,
overlaid with DOCGUARD_* environment variables."
  flags := []
  arity := .any
  action := none } [
    .mk {
      name := "validate"
      form := " [path] [flags]"
      short := "Validate and compile the configuration"
      long := "Validate the configuration and compile every pattern in it.

Examples:
  # Validate the discovered configuration
  docguard config validate

  # Validate a specific file
  docguard config validate --config docguard.yaml"
      flags := []
      arity := .atMost 1
      action := some .validateConfig } [],
    .mk {
      name := "show"
      form := " [path] [flags]"
      short := "Print the effective configuration as YAML"
      long := ""
      flags := []
      arity := .atMost 1
      action := some .showConfig } []]

/-- The command that shows the pages of other commands. -/
def helpCommand : Tree Action := .mk {
  name := "help"
  form := " [command] [flags]"
  short := "Help about any command"
  long := "Help provides help for any command in the application.
Simply type docguard help [path to command] for full details."
  flags := []
  arity := .any
  operands := .commands
  action := some .help } []

/-- A command that writes the script for a shell. -/
def shellCommand (shell form long : String) : Tree Action := .mk {
  name := shell
  form := form
  short := "Generate the autocompletion script for " ++ shell
  long := long
  flags := [⟨"no-descriptions", none, .switch, "disable completion descriptions"⟩]
  arity := .none
  operands := .nothing
  action := some (.completion shell) } []

/-- The commands about completion. -/
def completionCommand : Tree Action := .mk {
  name := "completion"
  form := ""
  short := "Generate the autocompletion script for the specified shell"
  long := "Generate the autocompletion script for docguard for the specified shell.
See each sub-command's help for details on how to use the generated script."
  flags := []
  arity := .none
  operands := .nothing
  action := none } [
    shellCommand "bash" "" "Generate the autocompletion script for the bash shell.

This script depends on the 'bash-completion' package.
If it is not installed already, you can install it via your OS's package manager.

To load completions in your current shell session:

\tsource <(docguard completion bash)

To load completions for every new session, execute once:

#### Linux:

\tdocguard completion bash > /etc/bash_completion.d/docguard

#### macOS:

\tdocguard completion bash > $(brew --prefix)/etc/bash_completion.d/docguard

You will need to start a new shell for this setup to take effect.",
    shellCommand "fish" " [flags]" "Generate the autocompletion script for the fish shell.

To load completions in your current shell session:

\tdocguard completion fish | source

To load completions for every new session, execute once:

\tdocguard completion fish > ~/.config/fish/completions/docguard.fish

You will need to start a new shell for this setup to take effect.",
    shellCommand "powershell" " [flags]" "Generate the autocompletion script for powershell.

To load completions in your current shell session:

\tdocguard completion powershell | Out-String | Invoke-Expression

To load completions for every new session, add the output of the above command
to your powershell profile.",
    shellCommand "zsh" " [flags]" "Generate the autocompletion script for the zsh shell.

If shell completion is not already enabled in your environment you will need
to enable it.  You can execute the following once:

\techo \"autoload -U compinit; compinit\" >> ~/.zshrc

To load completions in your current shell session:

\tsource <(docguard completion zsh)

To load completions for every new session, execute once:

#### Linux:

\tdocguard completion zsh > \"$\x7bfpath[1]\x7d/_docguard\"

#### macOS:

\tdocguard completion zsh > $(brew --prefix)/share/zsh/site-functions/_docguard

You will need to start a new shell for this setup to take effect."]

/-- The program: all of its commands. -/
def program : Tree Action := .mk {
  name := programName
  form := ""
  short := "docguard - API documentation auditor for Go modules"
  long := "docguard checks that a Go module's API is documented.

It scans Go sources, evaluates documentation rules against every declaration
in scope and reports each finding with a severity computed from the
configuration:
  - Base severity per visibility (exported, internal, unexported)
  - Overrides selected by kind, package, name or signature patterns
  - Annotation policies (Deprecated, generated code, //nolint directives)

Without --config, the first of .docguard.yaml, .docguard.yml, docguard.yaml
or docguard.yml found in the scanned directory is used."
  flags := []
  arity := .any
  action := none }
  [configCommand, rulesCommand, scanCommand, schemaCommand, versionCommand, helpCommand,
    completionCommand]

/-! ## 2. Finding a command -/

/-- The flag that asks for the version. -/
def versionFlag : Flag := ⟨"version", none, .switch, "version for " ++ programName⟩

/-- The flags that are a command's own. -/
def ownFlags (r : Route Action) : List Flag :=
  r.command.info.flags ++ [helpFlag r.command.info.name] ++
    if r.isTop then versionFlag :: globalFlags else []

/-- The flags that a command shares with all others. -/
def sharedFlags (r : Route Action) : List Flag := if r.isTop then [] else globalFlags

/-- The page of a command. -/
def pageOf (r : Route Action) : String := r.page (ownFlags r) (sharedFlags r)

/-- The command that some arguments name, and the arguments left for it; a first operand that names
no command is an error. -/
def find (args : List String) : Except Error (Route Action × List String) :=
  let (r, rest) := descend globalFlags args.length ⟨[], program⟩ args
  match r.isTop, firstOperand? (program.info.flags ++ globalFlags) rest with
  | true, some (word, _) =>
    let names := (program.children.map (·.info.name)).filter (· != helpCommand.info.name)
    .error (.plain ("unknown command " ++ quoted word ++ " for " ++ quoted programName ++
      suggestions word names))
  | _, _ => .ok (r, rest)

end DocAudit.Command
