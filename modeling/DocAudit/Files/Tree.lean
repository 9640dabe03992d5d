import DocAudit.Error
import DocAudit.Files.Path

/-!
# File trees

A workspace is a tree of directories, files and links together with a current directory.  Looking a
path up follows links, at most forty of them, and fails as a file system does.

* `Workspace.resolve` finds what a path names, with or without following a link at its end;
* `Workspace.read` and `Workspace.write` give and set the content of a file;
* `Tree.files` lists the files of a tree, by their paths.
-/

namespace DocAudit.Files

open DocAudit.Text

/-! ## 1. Trees -/

/-- A file, a link or a directory. -/
inductive Tree where
  | file (content : ByteArray)
  | link (target : String)
  | dir (entries : List (String × Tree))

instance : Inhabited Tree := ⟨.dir []⟩

/-- Whether a tree is a directory. -/
def Tree.isDir : Tree → Bool
  | .dir _ => true
  | _ => false

/-- The entries of a directory. -/
def Tree.entries : Tree → List (String × Tree)
  | .dir es => es
  | _ => []

/-- A list of named things with one put in its place: names are in increasing order. -/
def putNamed {α : Type} (name : String) (a : α) : List (String × α) → List (String × α)
  | [] => [(name, a)]
  | (n, b) :: rest =>
    if n == name then (name, a) :: rest
    else if name < n then (name, a) :: (n, b) :: rest
    else (n, b) :: putNamed name a rest

/-- The tree with another put at the end of a path of names; directories on the way are made. -/
def Tree.put : Tree → (names : List String) → (new : Tree) → Tree
  | _, [], new => new
  | t, name :: rest, new =>
    let old := (t.entries.lookup name).getD (.dir [])
    .dir (putNamed name (old.put rest new) t.entries)

mutual

/-- The files below the entries of the directory at a path. -/
def filesOfEntries (path : String) : List (String × Tree) → List (String × ByteArray)
  | [] => []
  | (name, t) :: rest =>
    filesBelow (if path == "" then name else path ++ "/" ++ name) t ++ filesOfEntries path rest

/-- The files of a tree at a path. -/
def filesBelow (path : String) : Tree → List (String × ByteArray)
  | .file content => [(path, content)]
  | .link _ => []
  | .dir es => filesOfEntries path es

end

/-- **The files of a tree**, with their paths from its top. -/
def Tree.files (t : Tree) : List (String × ByteArray) := filesBelow "" t

/-! ## 2. Looking paths up -/

/-- Why a path cannot be used. -/
inductive PathError where
  | missing
  | notDirectory
  | isDirectory
  | tooManyLinks
deriving Repr, DecidableEq, Inhabited

/-- The text of a path error. -/
def PathError.text : PathError → String
  | .missing => "no such file or directory"
  | .notDirectory => "not a directory"
  | .isDirectory => "is a directory"
  | .tooManyLinks => "too many levels of symbolic links"

/-- The error of an operation on a path. -/
def PathError.toError (operation path : String) (e : PathError) : Error :=
  .context (operation ++ " " ++ path) (.plain e.text)

/-- A tree, seen from its top, and the names of the current directory. -/
structure Workspace where
  top : Tree
  current : List String

/-- What a path leads to: the names below the top, and the tree there. -/
structure Found where
  names : List String
  tree : Tree

/-- Where a path ends: at something, or at a name that is free in a directory that exists. -/
inductive Place where
  | taken (found : Found)
  | free (names : List String)

/-- What is at a place. -/
def Place.found : Place → Except PathError Found
  | .taken f => .ok f
  | .free _ => .error .missing

/-- The tree below a path of names, all of them directories. -/
def Tree.at? : List String → Tree → Option Tree
  | [], t => some t
  | n :: ns, t => (t.entries.lookup n).bind (Tree.at? ns)

/-- The elements of a path, with an empty one for a slash at its end. -/
def pathElements (path : String) : List String := pieces '/' path

/-- Follows the elements of a path from a place on; `here` holds the names of the place, innermost
first, and `links` how many links may still be followed.  `follow` tells whether a link at the end
is followed. -/
def walk (top : Tree) (follow : Bool) (links : Nat) (here : List String) (path : List String) :
    Except PathError Place :=
  match Tree.at? here.reverse top with
  | none => .error .missing
  | some t =>
    match path with
    | [] => .ok (.taken ⟨here.reverse, t⟩)
    | e :: rest =>
      if !t.isDir then .error .notDirectory
      else if e == "" || e == "." then walk top follow links here rest
      else if e == ".." then walk top follow links here.tail rest
      else match t.entries.lookup e with
        | none => if rest.isEmpty then .ok (.free (e :: here).reverse) else .error .missing
        | some (.link target) =>
          if rest.isEmpty && !follow then .ok (.taken ⟨(e :: here).reverse, .link target⟩)
          else match links with
            | 0 => .error .tooManyLinks
            | n + 1 =>
              let start := if hasStart target "/" then [] else here
              walk top follow n start (pathElements target ++ rest)
        | some _ => walk top follow links (e :: here) rest
termination_by (links, path.length)

/-- How many links are followed at most. -/
def maxLinks : Nat := 40

namespace Workspace

/-- Where a path ends. -/
def locate (w : Workspace) (follow : Bool) (path : String) : Except PathError Place :=
  if path == "" then .error .missing
  else
    let start := if hasStart path "/" then [] else w.current.reverse
    walk w.top follow maxLinks start (pathElements path)

/-- What a path leads to. -/
def resolve (w : Workspace) (follow : Bool) (path : String) : Except PathError Found :=
  w.locate follow path >>= Place.found

/-- The text of a path from the top. -/
def absolute (w : Workspace) (path : String) : String :=
  if hasStart path "/" then cleanPath path
  else joinPath (("/" ++ join "/" w.current) :: [path])

/-- Whether a path leads to something. -/
def exists_ (w : Workspace) (path : String) : Bool := (w.resolve true path).toOption.isSome

/-- Whether a path leads to something that is no directory. -/
def isPlain (w : Workspace) (path : String) : Bool :=
  match w.resolve true path with
  | .ok f => !f.tree.isDir
  | .error _ => false

/-- The content of a file. -/
def read (w : Workspace) (path : String) : Except Error ByteArray :=
  match w.resolve true path with
  | .error e => .error (e.toError "open" path)
  | .ok ⟨_, .file content⟩ => .ok content
  | .ok _ => .error (PathError.isDirectory.toError "read" path)

/-- The workspace with a tree put at a place. -/
def put (w : Workspace) (names : List String) (t : Tree) : Workspace :=
  { w with top := w.top.put names t }

/-- The workspace with a file written in a directory that exists; a path with a slash at its end
names no file. -/
def write (w : Workspace) (path : String) (content : ByteArray) : Except PathError Workspace := do
  if hasEnd path "/" then
    let _ ← w.resolve true (dirName (cleanPath path))
    .error .isDirectory
  else match ← w.locate true path with
    | .free names => .ok (w.put names (.file content))
    | .taken ⟨names, .file _⟩ => .ok (w.put names (.file content))
    | .taken _ => .error .isDirectory

/-- The workspace with a file put in the place of whatever the path names, in a directory that
exists; only a directory is not replaced. -/
def replace (w : Workspace) (path : String) (content : ByteArray) : Except PathError Workspace := do
  let dir ← w.resolve true (dirName path)
  if !dir.tree.isDir then .error .notDirectory
  else match dir.tree.entries.lookup (baseName path) with
    | some (.dir _) => .error .isDirectory
    | _ => .ok (w.put (dir.names ++ [baseName path]) (.file content))

end Workspace

end DocAudit.Files
