import DocAudit.Inventory
import DocAudit.Policy.Selector
import DocAudit.Source.Accessor
import DocAudit.Source.Annotation
import DocAudit.Source.Package
import DocAudit.Source.Signature

/-!
# The inventory of a package

Every declaration of a package gives candidates for its inventory; the scope decides which of them
are elements, and of two candidates with one key the first is kept.

* `membersOfType` lists a type with its fields, interface methods, methods and, if the scope asks,
  the methods promoted from embedded types of the package;
* `Inventory.ofPackage` lists the types of the package with their members, then its functions,
  constants and variables in the order of the files.
-/

namespace DocAudit

open Source Policy

/-- A declaration that may become an element, with its doc comment. -/
structure Candidate where
  element : Element
  doc : Option CommentGroup
deriving Repr, Inhabited

namespace Source.Package

/-! ## 1. Single declarations -/

/-- The element of a declaration: `below` is its name below the package. -/
def element (p : Package) (f : File) (kind : Kind) (below name : String) (pos : Pos)
    (visibility : Visibility) : Element :=
  let at_ := f.place pos
  { kind := kind
    qualifiedName := p.importPath ++ "." ++ below
    displayName := p.name ++ "." ++ below
    name := name
    sourceFile := at_.file
    line := at_.line
    visibility := visibility
    memberKinds := []
    accessorKinds := []
    package := p.importPath
    signature := ""
    annotations := [] }

/-- The candidate of a type. -/
def typeCandidate (p : Package) (t : TypeDecl) : Candidate :=
  { element := {
      p.element t.file .type t.name t.name t.spec.name.pos (p.visibilityOf t.name) with
      signature := t.spec.signature
      annotations := annotations t.doc t.file.generated }
    doc := t.doc }

/-- A member of a type is at most as visible as the type. -/
def memberVisibility (p : Package) (owner : TypeDecl) (name : String) : Visibility :=
  (p.visibilityOf name).min (p.visibilityOf owner.name)

/-- The candidates of a field of a struct, one for each of its names. -/
def fieldCandidates (p : Package) (kinds : Config.MemberKinds) (owner : TypeDecl) (f : Field) :
    List Candidate :=
  let doc := f.doc <|> f.trail
  let notes := annotations doc owner.file.generated
  if f.names.isEmpty then
    let name := f.type.baseName
    if kinds.embedded && name != "" then
      [{ element := {
          p.element owner.file .recordComponent (owner.name ++ "." ++ name) name f.typePos
            (p.memberVisibility owner name) with
          memberKinds := [.recordComponent]
          signature := f.type.render
          annotations := notes }
         doc := doc }]
    else []
  else if kinds.fields then
    (f.names.filter (·.text != "_")).map fun id =>
      { element := {
          p.element owner.file .field (owner.name ++ "." ++ id.text) id.text id.pos
            (p.memberVisibility owner id.text) with
          memberKinds := [.field]
          signature := id.text ++ " " ++ f.type.render
          annotations := notes }
        doc := doc }
  else []

/-- Whether methods with these accessor kinds are scanned. -/
def accessorsAllowed (kinds : Config.MemberKinds) (e : Element) : Bool :=
  (kinds.getters || !e.hasAccessorKind .getter) && (kinds.setters || !e.hasAccessorKind .setter)

/-- The candidate of a method of a type, if methods of its form are scanned. -/
def methodCandidate (p : Package) (kinds : Config.MemberKinds) (owner : TypeDecl) (file : File)
    (name : Name) (sig : Signature) (fields : List String) (doc : Option CommentGroup)
    (generated : Bool) : List Candidate :=
  let e : Element := {
    p.element file .method (owner.name ++ "." ++ name.text) name.text name.pos
      (p.memberVisibility owner name.text) with
    memberKinds := [.method]
    accessorKinds := accessorKinds name.text sig fields
    signature := funcSignature name.text sig
    annotations := annotations doc generated }
  if kinds.methods && accessorsAllowed kinds e then [⟨e, doc⟩] else []

/-- The candidates of an element of an interface: its methods. -/
def interfaceCandidates (p : Package) (kinds : Config.MemberKinds) (owner : TypeDecl) (f : Field) :
    List Candidate :=
  match f.type with
  | .func sig =>
    f.names.flatMap fun id =>
      p.methodCandidate kinds owner owner.file id sig [] (f.doc <|> f.trail) owner.file.generated
  | _ => []

/-- The fields of a struct. -/
def structFields (t : TypeDecl) : List Field :=
  match t.spec.type with
  | .struct fs => fs
  | _ => []

/-- The lower-case names of the fields of a struct. -/
def fieldNames (t : TypeDecl) : List String :=
  (structFields t).flatMap fun f => f.names.map fun id => Text.lowerText id.text

/-- The candidate of a declared method, as a method of `owner`. -/
def declaredMethod (p : Package) (kinds : Config.MemberKinds) (owner : TypeDecl) (m : MethodDecl) :
    List Candidate :=
  p.methodCandidate kinds owner m.file m.decl.name m.decl.sig (fieldNames owner) m.decl.doc
    m.file.generated

/-! ## 2. Types with their members -/

/-- Methods without those whose name stands before. -/
def newMethods (seen : List String) : List MethodDecl → List MethodDecl
  | [] => []
  | m :: ms =>
    let name := m.decl.name.text
    if seen.contains name then newMethods seen ms else m :: newMethods (name :: seen) ms

/-- The methods that a struct gets from its embedded types of this package, one level deep; a
method of the struct itself, or one from an earlier embedded type, hides a later one. -/
def promotedMethods (p : Package) (t : TypeDecl) : List MethodDecl :=
  let embedded := (structFields t).filterMap fun f =>
    if f.names.isEmpty then some f.type.baseName else none
  newMethods ((p.methodsOf t.name).map (·.decl.name.text))
    ((embedded.filter p.hasType).flatMap p.methodsOf)

/-- Whether a type has the method of an error. -/
def isError (p : Package) (type : String) : Bool :=
  (p.methodsOf type).any fun m =>
    m.decl.name.text == "Error" && fieldCount m.decl.sig.params == 0 &&
      fieldCount m.decl.sig.results == 1 && firstResultIs "string" m.decl.sig.results

/-- Whether types of a type's kind are scanned. -/
def typeKindAllowed (p : Package) (kinds : Config.TypeKinds) (t : TypeDecl) : Bool :=
  let byForm :=
    if t.spec.isAlias then kinds.aliases
    else match t.spec.type with
      | .struct _ => kinds.structs
      | .interface _ => kinds.interfaces
      | .func _ => kinds.funcTypes
      | _ => kinds.defined
  byForm || (kinds.errors && p.isError t.name)

/-- Whether a type is scanned. -/
def typeInScope (p : Package) (s : Scope) (t : TypeDecl) : Bool :=
  let e := (p.typeCandidate t).element
  p.typeKindAllowed s.typeKinds t && s.allowsVisibility e.visibility &&
    passes s.typeNames e.qualifiedName && admits s.typeAnnotations e.annotations

/-- Whether a member is scanned. -/
def memberInScope (s : Scope) (c : Candidate) : Bool :=
  s.allowsVisibility c.element.visibility && passes s.memberNames c.element.name &&
    admits s.memberAnnotations c.element.annotations

/-- The candidates for members of a type. -/
def membersOfType (p : Package) (s : Scope) (t : TypeDecl) : List Candidate :=
  let kinds := s.memberKinds
  let inner := match t.spec.type with
    | .struct fs => fs.flatMap (p.fieldCandidates kinds t)
    | .interface es => es.flatMap (p.interfaceCandidates kinds t)
    | _ => []
  let own := (p.methodsOf t.name).flatMap (p.declaredMethod kinds t)
  let promoted :=
    if s.inherited then (p.promotedMethods t).flatMap (p.declaredMethod kinds t) else []
  inner ++ own ++ promoted

/-- A type and its members, as far as they are scanned. -/
def typeWithMembers (p : Package) (s : Scope) (t : TypeDecl) : List Candidate :=
  if p.typeInScope s t then p.typeCandidate t :: (p.membersOfType s t).filter (memberInScope s)
  else []

/-! ## 3. Functions, constants and variables -/

/-- Whether a function makes a value of a type of the package: it is named `New…` and its first
result refers to such a type. -/
def isConstructor (p : Package) (d : FuncDecl) : Bool :=
  Text.hasStart d.name.text "New" &&
    (match d.sig.results with
      | r :: _ => p.hasType r.type.baseName
      | [] => false)

/-- Whether a function cannot be called by its name. -/
def isUncallable (p : Package) (name : String) : Bool :=
  name == "init" || name == "_" || (name == "main" && p.name == "main")

/-- The candidate of a function. -/
def functionCandidate (p : Package) (kinds : Config.MemberKinds) (f : File) (d : FuncDecl) :
    List Candidate :=
  let name := d.name.text
  let makes := p.isConstructor d
  if p.isUncallable name || !(if makes then kinds.constructors else kinds.functions) then []
  else
    [{ element := {
        p.element f (if makes then .constructor else .function) name name d.name.pos
          (p.visibilityOf name) with
        memberKinds := if makes then [.constructor, .function] else [.function]
        signature := funcSignature name d.sig
        annotations := annotations d.doc f.generated }
       doc := d.doc }]

/-- The candidates of a line of a constant or variable declaration. -/
def valueCandidates (p : Package) (f : File) (kind : ValueKind) (declDoc : Option CommentGroup)
    (v : ValueSpec) : List Candidate :=
  let doc := v.doc <|> declDoc <|> v.trail
  (v.names.filter (·.text != "_")).map fun id =>
    let (k, m) := match kind with
      | .const => (Kind.constant, MemberKind.constant)
      | .var => (Kind.var, MemberKind.var)
    { element := {
        p.element f k id.text id.text id.pos (p.visibilityOf id.text) with
        memberKinds := [m]
        signature := valueSignature kind id.text v.type
        annotations := annotations doc f.generated }
      doc := doc }

/-- The candidates of a declaration outside types. -/
def declCandidates (p : Package) (kinds : Config.MemberKinds) (f : File) : Decl → List Candidate
  | .func d => if d.receiver.isNone then p.functionCandidate kinds f d else []
  | .values kind doc specs =>
    let allowed := match kind with
      | .const => kinds.constants
      | .var => kinds.vars
    if allowed then specs.flatMap (p.valueCandidates f kind doc) else []
  | _ => []

/-- The candidates of a package that are scanned, in the order of discovery. -/
def candidates (p : Package) (s : Scope) : List Candidate :=
  p.types.flatMap (p.typeWithMembers s) ++
    (p.files.flatMap fun f => f.decls.flatMap (p.declCandidates s.memberKinds f)).filter
      (memberInScope s)

end Source.Package

/-- **The inventory of a package** under a scope. -/
def Inventory.ofPackage (p : Source.Package) (s : Scope) : Inventory :=
  (p.candidates s).foldl (fun v c => v.add c.element (c.doc.map Source.CommentGroup.text)) .empty

end DocAudit
