import DocAudit.Files.Tree
import DocAudit.Inventory.OfPackage
import DocAudit.Log
import DocAudit.Source.Grammar.Rules
import DocAudit.Text.Utf8

/-!
# Projects

A project is a directory of a workspace.  Scanning it collects its source files by directory, parses
them, and merges the inventories of its packages.

* `collect` skips hidden, vendored and test directories and nested modules, and follows no links;
* `modulePath` is the path that the module file names, or the name of the directory;
* `scanProject` gives the inventory and the log of the scan.
-/

namespace DocAudit.Files

open DocAudit.Text

/-! ## 1. The module -/

/-- The module path that a line of a module file names: `none` for a line that names none, and an
empty one for a malformed literal. -/
def modulePathOfLine (line : List Char) : Option String :=
  let line := match cutFirst ['/', '/'] line with
    | some (before, _) => before
    | none => line
  match dropStart? "module".toList (trimBy isBlank line) with
  | none => none
  | some rest =>
    let arg := trimBy isBlank rest
    if arg.length == rest.length || arg.isEmpty then none
    else if arg.head? == some '"' || arg.head? == some '\x60' then some ((unquote? arg).getD "")
    else some (String.ofList arg)

/-- The module path that a module file names; empty if it names none. -/
def modulePathOf (text : String) : String :=
  ((splitAt '\n' text.toList).findSome? modulePathOfLine).getD ""

/-- The module path of a project, and the log of finding it. -/
def modulePath (w : Workspace) (root : String) : String × List Log.Entry :=
  let named := match w.read (joinPath [root, "go.mod"]) with
    | .ok bytes => modulePathOf (textOfBytes bytes.toList)
    | .error _ => ""
  if named != "" then (named, [])
  else
    let fallback := baseName (w.absolute root)
    (fallback, [⟨.debug, "no module path found, using directory name",
      [.ofText "path" root, .ofText "module" fallback]⟩])

/-! ## 2. Source files -/

/-- Whether a directory below the root is skipped for its name. -/
def skipsDirectory (name : String) : Bool :=
  name == "vendor" || name == "testdata" || name == "node_modules" || hasStart name "." ||
    hasStart name "_"

/-- Whether a file is a source file for its name. -/
def isSourceName (name : String) : Bool :=
  hasEnd name ".go" && !hasEnd name "_test.go" && !hasStart name "_" && !hasStart name "."

/-- What a walk through a directory finds: source files by their paths, and log entries. -/
structure Collected where
  files : List String
  log : List Log.Entry

/-- What two walks find one after the other. -/
def Collected.append (a b : Collected) : Collected := ⟨a.files ++ b.files, a.log ++ b.log⟩

mutual

/-- The walk through the entries of the directory at a path. -/
def collectEntries (w : Workspace) (dir : String) : List (String × Tree) → Collected
  | [] => ⟨[], []⟩
  | (name, t) :: rest =>
    (collectTree w (joinPath [dir, name]) name t).append (collectEntries w dir rest)

/-- The walk from something below the root. -/
def collectTree (w : Workspace) (path name : String) : Tree → Collected
  | .dir es =>
    if skipsDirectory name then ⟨[], []⟩
    else if w.exists_ (joinPath [path, "go.mod"]) then
      ⟨[], [⟨.debug, "skipping nested module", [.ofText "path" path]⟩]⟩
    else collectEntries w path es
  | .file _ => ⟨if isSourceName name then [path] else [], []⟩
  | .link _ => ⟨if isSourceName name then [path] else [], []⟩

end

/-- The walk from the root, which is never skipped. -/
def collectRoot (w : Workspace) (root : String) : Tree → Collected
  | .dir es => collectEntries w root es
  | _ => ⟨if isSourceName (baseName root) then [root] else [], []⟩

/-- A directory with the source files in it, as paths from the root. -/
structure SourceDir where
  path : String
  files : List String
deriving Repr, DecidableEq, Inhabited

/-- A file added to its directory. -/
def addToDir (file : String) : List SourceDir → List SourceDir
  | [] => [⟨dirName file, [file]⟩]
  | d :: ds =>
    if d.path == dirName file then { d with files := d.files ++ [file] } :: ds
    else d :: addToDir file ds

/-- Files by directory, the directories in increasing order. -/
def groupByDir (files : List String) : List SourceDir :=
  (files.foldl (fun ds f => addToDir f ds) []).mergeSort fun a b => decide (a.path ≤ b.path)

/-- **The source files of a project** by directory, and the log of the walk. -/
def collect (w : Workspace) (root : String) : List SourceDir × List Log.Entry :=
  match w.resolve false root with
  | .error _ => ([], [])
  | .ok f =>
    let c := collectRoot w root f.tree
    (groupByDir (c.files.map (relativePath root)), c.log)

/-! ## 3. Scanning -/

/-- The import path of a directory of a module. -/
def importPath (module dir : String) : String :=
  if dir == "." || dir == "" then module else module ++ "/" ++ dir

/-- A source file of a project, if it can be read and parsed. -/
def parseFile (w : Workspace) (root file : String) : Option Source.File :=
  match w.read (joinPath [root, file]) with
  | .ok bytes => (String.fromUTF8? bytes).bind (Source.File.parse? file)
  | .error _ => none

/-- A file added to those of its package. -/
def addToPackage (f : Source.File) :
    List (String × List Source.File) → List (String × List Source.File)
  | [] => [(f.package, [f])]
  | (name, fs) :: rest =>
    if name == f.package then (name, fs ++ [f]) :: rest else (name, fs) :: addToPackage f rest

/-- Files by the names of their packages, in the order of appearance. -/
def groupByPackage (fs : List Source.File) : List (String × List Source.File) :=
  fs.foldl (fun ps f => addToPackage f ps) []

/-- The inventories of the packages in a directory, and the log of making them. -/
def scanDir (w : Workspace) (root module : String) (scope : Policy.Scope) (d : SourceDir) :
    List Inventory × List Log.Entry :=
  let path := importPath module d.path
  if !Policy.passes scope.packages path then
    ([], [⟨.debug, "package out of scope", [.ofText "package" path]⟩])
  else
    let parsed := d.files.map fun f => (f, parseFile w root f)
    let skipped := parsed.filterMap fun (f, r) => if r.isNone then
      some (⟨.warn, "failed to parse file, skipping", [.ofText "path" f]⟩ : Log.Entry) else none
    let scanned := (groupByPackage (parsed.filterMap (·.2))).map fun (_, fs) =>
      let v := Inventory.ofPackage ⟨path, fs⟩ scope
      (v, (⟨.debug, "scanned package", [.ofText "package" path, .ofInt "files" fs.length,
        .ofInt "elements" v.size]⟩ : Log.Entry))
    (scanned.map (·.1), skipped ++ scanned.map (·.2))

/-- **The inventory of a project**, and the log of the scan; `cancelled` tells whether the run has
been stopped before. -/
def scanProject (w : Workspace) (root : String) (scope : Policy.Scope) (cancelled : Bool) :
    Except Error Inventory × List Log.Entry :=
  match w.resolve true root with
  | .error .missing =>
    (.ok .empty, [⟨.warn, "project root does not exist, nothing to scan", [.ofText "path" root]⟩])
  | .error e => (.error (.scan root (e.toError "stat" root)), [])
  | .ok f =>
    if !f.tree.isDir then (.error (.scan root (.plain "not a directory")), [])
    else
      let (module, moduleLog) := modulePath w root
      if cancelled then (.error .cancelled, moduleLog)
      else
        let (dirs, walkLog) := collect w root
        let scans := dirs.map (scanDir w root module scope)
        (.ok ((scans.flatMap (·.1)).foldl Inventory.merge .empty),
          moduleLog ++ walkLog ++ scans.flatMap (·.2))

end DocAudit.Files
