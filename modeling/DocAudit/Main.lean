import DocAudit.Audit.RunId
import DocAudit.Command.Program
import Std.Time

/-!
# The command line

`main` reads the files that a run may look at, runs the program on them as a function, and does what
the outcome says: it prints the output and the messages and writes the files that have changed.

* `readTree` gives the files below a directory as a tree;
* `workspaceFor` holds the current directory and whatever the arguments name.
-/

namespace DocAudit.Command

open DocAudit.Files

/-! ## 1. Reading -/

/-- The tree at a directory entry.  A link leads to the place where it ends; what cannot be read is
a link to itself, which leads nowhere. -/
partial def readTree (e : IO.FS.DirEntry) : IO Files.Tree := do
  let nowhere := Files.Tree.link e.fileName
  try
    match (← e.path.symlinkMetadata).type with
    | .dir =>
      let children ← (← e.path.readDir).toList.mapM fun c => do return (c.fileName, ← readTree c)
      return .dir (children.foldl (fun es c => putNamed c.1 c.2 es) [])
    | .file => return .file (← IO.FS.readBinFile e.path)
    | .symlink => return .link (← IO.FS.realPath e.path).toString
    | .other => return nowhere
  catch _ => return nowhere

/-- The directory entry at a path from the top. -/
def entryAt (path : String) : IO.FS.DirEntry := ⟨dirName path, baseName path⟩

/-- The workspace with what is at a path read into it, and with what a link there leads to. -/
def addPath (w : Workspace) (path : String) : IO Workspace := do
  let path := w.absolute path
  let entry := entryAt path
  if w.exists_ path || !(← entry.path.pathExists) then return w
  let w := w.put (elements path) (← readTree entry)
  let target := (← IO.FS.realPath entry.path).toString
  if w.exists_ target then return w
  return w.put (elements target) (← readTree (entryAt target))

/-- The workspace of a run: the current directory, and the paths that the arguments name. -/
def workspaceFor (args : List String) : IO Workspace := do
  let current := elements (← IO.currentDir).toString
  let w ← addPath ⟨.dir [], current⟩ "."
  let values := args.filterMap fun a => (Text.cutFirst ['='] a.toList).map (String.ofList ·.2)
  (args ++ values).foldlM addPath w

/-- The variables of the environment that the program knows. -/
def readEnvironment : IO Config.Environment := do
  let known ← Config.overrides.mapM fun o => do return (← IO.getEnv o.1).map ((o.1, ·))
  return known.filterMap id

/-- Whether the output may have colours: it goes to a terminal that shows them. -/
def hasColor : IO Bool := do
  return (← IO.getEnv "NO_COLOR").getD "" == "" && (← IO.getEnv "TERM") != some "dumb" &&
    (← (← IO.getStdout).isTty)

/-- What the program runs in. -/
def readContext (args : List String) : IO Context := do
  return {
    workspace := ← workspaceFor args
    environment := ← readEnvironment
    color := ← hasColor
    runId := Audit.runIdOf (← IO.getRandomBytes 16).toList
    time := (← Std.Time.DateTime.now).format "uuuu-MM-dd'T'HH:mm:ss.SSSXXX"
    timing := .none }

/-! ## 2. Writing -/

/-- Writes the files that differ from those of before. -/
def writeChanges (before after : Workspace) : IO Unit := do
  let old := before.top.files
  for (path, content) in after.top.files do
    if old.lookup path != some content then IO.FS.writeBinFile ("/" ++ path) content

end DocAudit.Command

/-- **Runs the program**: its exit status is that of the outcome. -/
def main (args : List String) : IO UInt32 := do
  let context ← DocAudit.Command.readContext args
  let outcome := DocAudit.Command.execute context args
  IO.print outcome.output
  IO.eprint outcome.messages
  DocAudit.Command.writeChanges context.workspace outcome.workspace
  return outcome.exitCode.toUInt32
