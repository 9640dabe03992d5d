import DocAudit.Source.Syntax
import DocAudit.Element

/-!
# Packages

The files of one package, indexed: its types, each by its first declaration, and its methods by
the name of their receiver.  The package decides how visible a name is.

* `isInternalPath` looks for a path element `internal`;
* `Package.visibilityOf` ranks an exported name lower in a command and below such an element.
-/

namespace DocAudit.Source

open DocAudit.Text

/-- A type declaration with the comment of the declaration around it, in its file. -/
structure TypeDecl where
  spec : TypeSpec
  declDoc : Option CommentGroup
  file : File

/-- The doc comment of a type: its own, or that of the declaration around it. -/
def TypeDecl.doc (t : TypeDecl) : Option CommentGroup := t.spec.doc <|> t.declDoc

/-- The name of a declared type. -/
def TypeDecl.name (t : TypeDecl) : String := t.spec.name.text

/-- A method declaration in its file. -/
structure MethodDecl where
  receiver : String
  decl : FuncDecl
  file : File

/-- The types that a declaration declares. -/
def typesOfDecl (f : File) : Decl → List TypeDecl
  | .types doc specs => specs.map fun s => ⟨s, doc, f⟩
  | _ => []

/-- The method that a declaration declares; a method without receiver belongs to no type. -/
def methodOfDecl (f : File) : Decl → Option MethodDecl
  | .func d =>
    match d.receiver with
    | some (r :: _) => some ⟨r.type.baseName, d, f⟩
    | _ => none
  | _ => none

/-- Declarations without those whose name has been declared before. -/
def firstByName (seen : List String) : List TypeDecl → List TypeDecl
  | [] => []
  | t :: ts =>
    if seen.contains t.name then firstByName seen ts else t :: firstByName (t.name :: seen) ts

/-- The files of a package. -/
structure Package where
  importPath : String
  files : List File

namespace Package

/-- The name of a package, which its first file gives. -/
def name (p : Package) : String := (p.files.head?.map (·.package)).getD ""

/-- The types of a package in the order of their declaration, the first of each name. -/
def types (p : Package) : List TypeDecl :=
  firstByName [] (p.files.flatMap fun f => f.decls.flatMap (typesOfDecl f))

/-- The methods of a package in the order of their declaration. -/
def methods (p : Package) : List MethodDecl :=
  p.files.flatMap fun f => f.decls.filterMap (methodOfDecl f)

/-- The methods with a given receiver. -/
def methodsOf (p : Package) (type : String) : List MethodDecl :=
  p.methods.filter (·.receiver == type)

/-- Whether the package declares a type. -/
def hasType (p : Package) (type : String) : Bool := p.types.any (·.name == type)

end Package

/-- Whether a name can be used outside its package. -/
def isExported (name : String) : Bool := (name.toList.head?.map isUpper).getD false

/-- Whether an import path has an element `internal`. -/
def isInternalPath (path : String) : Bool :=
  path == "internal" || hasStart path "internal/" || hasEnd path "/internal" ||
    containsText "/internal/".toList path.toList

/-- **The visibility of a name** in a package. -/
def Package.visibilityOf (p : Package) (name : String) : Visibility :=
  if !isExported name || p.name == "main" then .pkg
  else if isInternalPath p.importPath then .prot
  else .pub

end DocAudit.Source
