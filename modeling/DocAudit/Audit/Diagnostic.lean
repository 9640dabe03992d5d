import DocAudit.Audit.Run
import DocAudit.Config.Load
import DocAudit.Inventory.OfPackage
import DocAudit.Policy.Memo

/-!
# Checking one package

A checker looks at one package at a time and says what it finds as diagnostics on the package's
files.  It loads each configuration once, even if the file or the environment changes later.

* Test files are left out.
* A diagnostic stands at the start of the element's line; an element whose reported file is none of
  the files, or whose line the file does not have, gets no position.
-/

namespace DocAudit.Audit

open DocAudit.Policy DocAudit.Source DocAudit.Text

/-- The start of a line of a file. -/
structure LineStart where
  file : String
  line : Int
deriving Repr, DecidableEq, Inhabited

/-- A message at a place, if it has one. -/
structure Diagnostic where
  position : Option LineStart
  message : String
deriving Repr, DecidableEq, Inhabited

namespace Diagnostic

/-- The position of an element in some files; of two files of one name the later one counts. -/
def positionIn (files : List File) (e : Element) : Option LineStart := do
  let f ← files.reverse.find? (·.path == e.sourceFile)
  if 1 ≤ e.line ∧ e.line ≤ f.lines then some ⟨f.path, e.line⟩ else none

/-- The diagnostic of an issue. -/
def ofIssue (files : List File) (i : Issue) : Diagnostic where
  position := positionIn files i.element
  message := "[" ++ i.severity.text ++ "] " ++ i.message ++ " (" ++ i.ruleId ++ ")"

end Diagnostic

/-- Whether a file holds tests. -/
def isTestFile (path : String) : Bool := hasEnd path "_test.go"

/-- **The diagnostics of a package** from a severity on. -/
def diagnose (c : Compiled) (threshold : Severity) (p : Package) (runId : String) :
    Except Error (List Diagnostic) := do
  let files := p.files.filter fun f => !isTestFile f.path
  let admitted := match c.scan.packages with
    | some f => f.matches_ p.importPath
    | none => false
  if !admitted || files.isEmpty then return []
  let v := Inventory.ofPackage ⟨p.importPath, files⟩ c.scan
  let r ← (run c .builtin v runId .none false).1
  return (r.issues.filter fun i => i.severity.atLeast threshold).map (Diagnostic.ofIssue files)

/-- A checker: the path of its configuration, the lowest severity that it reports, and the
configurations that it has loaded. -/
structure Checker where
  configPath : String
  severity : String
  loaded : Memo String

namespace Checker

/-- What a checker does, in a line. -/
def summary : String :=
  "checks that exported declarations carry doc comments, graded by a docguard configuration"

/-- A new checker. -/
def new : Checker := ⟨"", Severity.info.text, .empty⟩

/-- Loads and compiles a configuration; `load` reads the one at a path. -/
def loadCompiled (load : String → Except Error Config) (path : String) : Except Error Compiled := do
  compileChecked (some (← load path))

/-- **Checks a package.** -/
def check (k : Checker) (load : String → Except Error Config) (p : Package) (runId : String) :
    Except Error (List Diagnostic) × Checker :=
  match Severity.parse? k.severity with
  | none =>
    (.error (.context "invalid -severity flag" (.plain (Severity.parseMessage k.severity))), k)
  | some threshold =>
    match k.loaded.getOrMake k.configPath (loadCompiled load k.configPath) with
    | (.error e, m) => (.error e, { k with loaded := m })
    | (.ok c, m) => (diagnose c.compiled threshold p runId, { k with loaded := m })

end Checker

end DocAudit.Audit
