import DocAudit.Config.Load
import DocAudit.Files.Tree

/-!
# Configuration files

A configuration file is looked for in a directory under four names, read, and overridden by the
variables of the environment.
-/

namespace DocAudit.Files

/-- The first configuration file of a directory; empty if there is none. -/
def discover (w : Workspace) (dir : String) : String :=
  ((Config.fileNames.map fun n => joinPath [dir, n]).find? w.isPlain).getD ""

/-- The configuration of a file, or the default one for an empty path, checked and, if an
environment is given, overridden. -/
def loadConfig (w : Workspace) (env : Option Config.Environment) (path : String) :
    Except Error Config := do
  let c ← if path == "" then Config.checked Config.invalidLabel .default
    else Config.ofFile path (w.read path)
  match env with
  | some e => Config.overridden e c
  | none => return c

end DocAudit.Files
