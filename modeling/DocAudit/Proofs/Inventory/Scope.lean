import DocAudit.Proofs.Inventory.Keys
import DocAudit.Source.Grammar.Rules

/-!
# What a scope admits

A scope only filters: under it a package has those candidates of the whole package that the scope
admits, and its inventory has their keys.

* `AdmitsType` and `AdmitsMember` say what a scope asks of a type and of any other element;
* `mem_candidates_iff_admits`: the candidates under a scope are the admitted ones;
* `elements_in_scope`: an inventory lists nothing out of scope;
* `keys_subset_of_narrower`: under a narrower scope it lists no more.
-/

namespace DocAudit

open Source

/-! ## 1. What a scope looks at -/

/-- What a scope looks at in an element. -/
structure Traits where
  kind : Kind
  qualifiedName : String
  name : String
  visibility : Visibility
  accessorKinds : List AccessorKind
  annotations : List String
deriving Repr, DecidableEq

/-- The key of the elements with these traits. -/
def Traits.key (x : Traits) : ElementKey := ⟨x.kind, x.qualifiedName⟩

/-- The traits of an element. -/
def Element.traits (e : Element) : Traits :=
  ⟨e.kind, e.qualifiedName, e.name, e.visibility, e.accessorKinds, e.annotations⟩

/-- The categories of types. -/
inductive TypeCategory where
  | struct
  | interface
  | func
  | defined
  | alias
deriving Repr, DecidableEq

/-- The category of a type, by what its declaration writes behind the name: a struct or interface
type in round brackets is one of the other defined types. -/
def Source.TypeSpec.category (t : TypeSpec) : TypeCategory :=
  if t.isAlias then .alias
  else match t.type with
    | .struct _ => .struct
    | .interface _ => .interface
    | .func _ => .func
    | _ => .defined

namespace Config

/-- The toggle of a category of types. -/
def TypeKinds.toggle (kinds : TypeKinds) : TypeCategory → Bool
  | .struct => kinds.structs
  | .interface => kinds.interfaces
  | .func => kinds.funcTypes
  | .defined => kinds.defined
  | .alias => kinds.aliases

/-- The toggle of a kind of elements other than types. -/
def MemberKinds.toggle (kinds : MemberKinds) (kind : Kind) : Bool :=
  if kind = .field then kinds.fields
  else if kind = .recordComponent then kinds.embedded
  else if kind = .method then kinds.methods
  else if kind = .constructor then kinds.constructors
  else if kind = .function then kinds.functions
  else if kind = .constant then kinds.constants
  else decide (kind = .var) && kinds.vars

/-- All kinds of members. -/
def MemberKinds.every : MemberKinds := ⟨true, true, true, true, true, true, true, true, true⟩

/-- The toggles let an element through that is no type. -/
structure MemberKinds.Allows (kinds : MemberKinds) (x : Traits) : Prop where
  kind : kinds.toggle x.kind = true
  getter : AccessorKind.getter ∈ x.accessorKinds → kinds.getters = true
  setter : AccessorKind.setter ∈ x.accessorKinds → kinds.setters = true

end Config

/-- What a scope asks of an element that is no type. -/
structure Policy.Scope.AdmitsMember (s : Policy.Scope) (x : Traits) : Prop where
  kinds : s.memberKinds.Allows x
  visibility : x.visibility ∈ s.visibilities
  name : Policy.passes s.memberNames x.name = true
  annotations : Policy.admits s.memberAnnotations x.annotations = true

/-- No toggle of a member lets a type through. -/
theorem Policy.Scope.AdmitsMember.kind_ne_type {s : Policy.Scope} {x : Traits}
    (h : s.AdmitsMember x) : x.kind ≠ .type := by
  intro hkind
  have htoggle : s.memberKinds.toggle x.kind = true := h.kinds.kind
  rw [hkind] at htoggle
  cases htoggle

namespace Source.Package

open Policy

variable {p : Package} {s s' : Scope} {c : Candidate} {t : TypeDecl} {f : File}
  {kinds : Config.MemberKinds}

/-- A file of the package holds a declaration; the flag tells whether the file is
machine-written. -/
def Holds (p : Package) (generated : Bool) (d : Decl) : Prop :=
  ∃ f ∈ p.files, f.generated = generated ∧ d ∈ f.decls

/-- The package declares a type, in a declaration with the comment `doc`. -/
def HoldsType (p : Package) (generated : Bool) (doc : Option CommentGroup) (t : TypeSpec) : Prop :=
  ∃ specs, p.Holds generated (.types doc specs) ∧ t ∈ specs

/-- The package declares a method whose receiver refers to the type `type`. -/
def HoldsMethod (p : Package) (generated : Bool) (type : String) (d : FuncDecl) : Prop :=
  p.Holds generated (.func d) ∧ ∃ r rs, d.receiver = some (r :: rs) ∧ r.type.baseName = type

/-- A type has a method `Error` that takes nothing and returns a `string`. -/
def DeclaresError (p : Package) (type : String) : Prop :=
  ∃ generated d, p.HoldsMethod generated type d ∧ d.name.text = "Error" ∧
    fieldCount d.sig.params = 0 ∧ fieldCount d.sig.results = 1 ∧
    firstResultIs "string" d.sig.results = true

/-- The traits of a declared type. -/
def typeTraits (p : Package) (generated : Bool) (doc : Option CommentGroup) (t : TypeSpec) :
    Traits where
  kind := .type
  qualifiedName := p.importPath ++ "." ++ t.name.text
  name := t.name.text
  visibility := p.visibilityOf t.name.text
  accessorKinds := []
  annotations := annotations (t.doc <|> doc) generated

/-- What a scope asks of a type. -/
structure AdmitsType (p : Package) (s : Scope) (t : TypeSpec) (x : Traits) : Prop where
  kind : s.typeKinds.toggle t.category = true ∨
    s.typeKinds.errors = true ∧ p.DeclaresError t.name.text
  visibility : x.visibility ∈ s.visibilities
  name : passes s.typeNames x.qualifiedName = true
  annotations : admits s.typeAnnotations x.annotations = true

/-! ## 2. Declarations of a package -/

theorem mem_methodsOf_iff {m : MethodDecl} {type : String} :
    m ∈ p.methodsOf type ↔
      m.receiver = type ∧ m.file ∈ p.files ∧ .func m.decl ∈ m.file.decls ∧
        ∃ r rs, m.decl.receiver = some (r :: rs) ∧ r.type.baseName = type := by
  obtain ⟨receiver, decl, file⟩ := m
  simp only [methodsOf, methods, List.mem_filter, List.mem_flatMap, List.mem_filterMap]
  constructor
  · rintro ⟨⟨f, hf, d, hd, hm⟩, htype⟩
    rw [beq_iff_eq] at htype
    unfold methodOfDecl at hm
    split at hm
    · split at hm
      · rename_i hreceiver
        cases hm
        exact ⟨htype, hf, hd, _, _, hreceiver, htype⟩
      · cases hm
    · cases hm
  · rintro ⟨rfl, hf, hd, r, rs, hreceiver, hbase⟩
    exact ⟨⟨file, hf, _, hd, by simp [methodOfDecl, hreceiver, hbase]⟩, by simp⟩

theorem holdsMethod_iff {generated : Bool} {type : String} {d : FuncDecl} :
    p.HoldsMethod generated type d ↔
      ∃ m ∈ p.methodsOf type, m.decl = d ∧ m.file.generated = generated := by
  simp only [mem_methodsOf_iff]
  constructor
  · rintro ⟨⟨f, hf, rfl, hd⟩, hreceiver⟩
    exact ⟨⟨type, d, f⟩, ⟨rfl, hf, hd, hreceiver⟩, rfl, rfl⟩
  · rintro ⟨m, ⟨-, hf, hd, hreceiver⟩, rfl, rfl⟩
    exact ⟨⟨m.file, hf, rfl, hd⟩, hreceiver⟩

theorem isError_iff {type : String} : p.isError type = true ↔ p.DeclaresError type := by
  simp only [isError, List.any_eq_true, Bool.and_eq_true, beq_iff_eq, DeclaresError,
    holdsMethod_iff]
  constructor
  · rintro ⟨m, hm, ⟨⟨hname, hparams⟩, hresults⟩, hstring⟩
    exact ⟨_, _, ⟨m, hm, rfl, rfl⟩, hname, hparams, hresults, hstring⟩
  · rintro ⟨_, _, ⟨m, hm, rfl, rfl⟩, hname, hparams, hresults, hstring⟩
    exact ⟨m, hm, ⟨⟨hname, hparams⟩, hresults⟩, hstring⟩

theorem mem_of_mem_firstByName : ∀ {seen : List String} {ts : List TypeDecl},
    t ∈ firstByName seen ts → t ∈ ts
  | _, [], h => h
  | seen, u :: ts, h => by
      unfold firstByName at h
      split at h
      · exact List.mem_cons_of_mem u (mem_of_mem_firstByName h)
      · rcases List.mem_cons.mp h with rfl | h
        · exact List.mem_cons_self
        · exact List.mem_cons_of_mem u (mem_of_mem_firstByName h)

/-- The declarations of types, also those of a name that has been declared before. -/
def typeDecls (p : Package) : List TypeDecl :=
  p.files.flatMap fun f => f.decls.flatMap (typesOfDecl f)

theorem mem_typeDecls_iff :
    t ∈ p.typeDecls ↔
      t.file ∈ p.files ∧ ∃ specs, .types t.declDoc specs ∈ t.file.decls ∧ t.spec ∈ specs := by
  obtain ⟨spec, doc, file⟩ := t
  simp only [typeDecls, List.mem_flatMap]
  constructor
  · rintro ⟨f, hf, d, hd, ht⟩
    unfold typesOfDecl at ht
    split at ht
    · obtain ⟨spec', hspec, ht⟩ := List.mem_map.mp ht
      cases ht
      exact ⟨hf, _, hd, hspec⟩
    · cases ht
  · rintro ⟨hf, specs, hd, hspec⟩
    exact ⟨file, hf, _, hd, List.mem_map_of_mem hspec⟩

theorem holdsType_iff {generated : Bool} {doc : Option CommentGroup} {spec : TypeSpec} :
    p.HoldsType generated doc spec ↔
      ∃ t ∈ p.typeDecls, t.spec = spec ∧ t.declDoc = doc ∧ t.file.generated = generated := by
  simp only [mem_typeDecls_iff]
  constructor
  · rintro ⟨specs, ⟨f, hf, rfl, hd⟩, hspec⟩
    exact ⟨⟨spec, doc, f⟩, ⟨hf, specs, hd, hspec⟩, rfl, rfl, rfl⟩
  · rintro ⟨t, ⟨hf, specs, hd, hspec⟩, rfl, rfl, rfl⟩
    exact ⟨specs, ⟨t.file, hf, rfl, hd⟩, hspec⟩

theorem holdsType_of_mem_types (ht : t ∈ p.types) :
    p.HoldsType t.file.generated t.declDoc t.spec :=
  holdsType_iff.mpr ⟨t, mem_of_mem_firstByName ht, rfl, rfl, rfl⟩

/-! ## 3. A scope only filters -/

theorem typeKindAllowed_iff {kinds : Config.TypeKinds} :
    p.typeKindAllowed kinds t = true ↔
      kinds.toggle t.spec.category = true ∨ kinds.errors = true ∧ p.DeclaresError t.name := by
  have hform : p.typeKindAllowed kinds t =
      (kinds.toggle t.spec.category || (kinds.errors && p.isError t.name)) := by
    unfold typeKindAllowed TypeSpec.category
    cases t.spec.isAlias with
    | true => rfl
    | false => cases t.spec.type <;> rfl
  rw [hform, Bool.or_eq_true, Bool.and_eq_true, isError_iff]

theorem typeInScope_iff :
    p.typeInScope s t = true ↔ p.AdmitsType s t.spec (p.typeCandidate t).element.traits := by
  simp only [typeInScope, Bool.and_eq_true, typeKindAllowed_iff, Scope.allowsVisibility,
    List.contains_iff_mem]
  constructor
  · rintro ⟨⟨⟨hkind, hvisibility⟩, hname⟩, hannotations⟩
    exact ⟨hkind, hvisibility, hname, hannotations⟩
  · rintro ⟨hkind, hvisibility, hname, hannotations⟩
    exact ⟨⟨⟨hkind, hvisibility⟩, hname⟩, hannotations⟩

/-- The toggles of the kinds are asked apart from the rest of the scope. -/
theorem admitsMember_iff :
    s.AdmitsMember c.element.traits ↔
      s.memberKinds.Allows c.element.traits ∧ memberInScope s c = true := by
  simp only [memberInScope, Bool.and_eq_true, Scope.allowsVisibility, List.contains_iff_mem]
  constructor
  · rintro ⟨hkinds, hvisibility, hname, hannotations⟩
    exact ⟨hkinds, ⟨hvisibility, hname⟩, hannotations⟩
  · rintro ⟨hkinds, ⟨hvisibility, hname⟩, hannotations⟩
    exact ⟨hkinds, hvisibility, hname, hannotations⟩

/-- Without accessor kinds only the toggle of the kind is asked. -/
theorem allows_of_toggle {x : Traits} (hx : x.accessorKinds = []) :
    kinds.Allows x ↔ kinds.toggle x.kind = true := by
  refine ⟨fun h => h.kind, fun h => ⟨h, ?_, ?_⟩⟩ <;> rw [hx] <;> exact nofun

/-- The toggles choose among the candidates of a field. -/
theorem mem_fieldCandidates_iff (kinds : Config.MemberKinds) {g : Field} :
    c ∈ p.fieldCandidates kinds t g ↔
      c ∈ p.fieldCandidates .every t g ∧ kinds.Allows c.element.traits := by
  unfold fieldCandidates
  dsimp only [Config.MemberKinds.every]
  split
  · simp only [List.mem_ite_nil_right, Bool.and_eq_true, Bool.true_and, List.mem_singleton]
    constructor
    · rintro ⟨⟨hkind, hname⟩, rfl⟩
      exact ⟨⟨hname, rfl⟩, (allows_of_toggle rfl).mpr hkind⟩
    · rintro ⟨⟨hname, rfl⟩, h⟩
      exact ⟨⟨h.kind, hname⟩, rfl⟩
  · simp only [List.mem_ite_nil_right, if_true, List.mem_map]
    constructor
    · rintro ⟨hkind, n, hn, rfl⟩
      exact ⟨⟨n, hn, rfl⟩, (allows_of_toggle rfl).mpr hkind⟩
    · rintro ⟨⟨n, hn, rfl⟩, h⟩
      exact ⟨h.kind, n, hn, rfl⟩

theorem accessorsAllowed_iff {e : Element} :
    accessorsAllowed kinds e = true ↔
      (AccessorKind.getter ∈ e.accessorKinds → kinds.getters = true) ∧
        (AccessorKind.setter ∈ e.accessorKinds → kinds.setters = true) := by
  unfold accessorsAllowed Element.hasAccessorKind
  simp only [Bool.and_eq_true, Bool.or_eq_true, Bool.not_eq_true', ← Bool.not_eq_true,
    List.contains_iff_mem, or_iff_not_imp_right, not_not]

/-- Where every kind of member is scanned, methods of every form are. -/
theorem accessorsAllowed_every (e : Element) : accessorsAllowed .every e = true :=
  accessorsAllowed_iff.mpr ⟨fun _ => rfl, fun _ => rfl⟩

theorem mem_methodCandidate_iff (kinds : Config.MemberKinds) {n : Name} {sig : Signature}
    {fields : List String} {doc : Option CommentGroup} {generated : Bool} :
    c ∈ p.methodCandidate kinds t f n sig fields doc generated ↔
      c ∈ p.methodCandidate .every t f n sig fields doc generated ∧
        kinds.Allows c.element.traits := by
  unfold methodCandidate
  simp only [List.mem_ite_nil_right, Bool.and_eq_true, List.mem_singleton, accessorsAllowed_iff]
  constructor
  · rintro ⟨⟨hkind, hgetter, hsetter⟩, rfl⟩
    exact ⟨⟨⟨rfl, fun _ => rfl, fun _ => rfl⟩, rfl⟩, ⟨hkind, hgetter, hsetter⟩⟩
  · rintro ⟨⟨-, rfl⟩, h⟩
    exact ⟨⟨h.kind, h.getter, h.setter⟩, rfl⟩

theorem mem_interfaceCandidates_iff (kinds : Config.MemberKinds) {g : Field} :
    c ∈ p.interfaceCandidates kinds t g ↔
      c ∈ p.interfaceCandidates .every t g ∧ kinds.Allows c.element.traits := by
  unfold interfaceCandidates
  cases g.type with
  | func sig =>
    simp only [List.mem_flatMap]
    constructor
    · rintro ⟨n, hn, h⟩
      obtain ⟨hc, hkinds⟩ := (mem_methodCandidate_iff kinds).mp h
      exact ⟨⟨n, hn, hc⟩, hkinds⟩
    · rintro ⟨⟨n, hn, hc⟩, hkinds⟩
      exact ⟨n, hn, (mem_methodCandidate_iff kinds).mpr ⟨hc, hkinds⟩⟩
  | _ => simp

theorem mem_functionCandidate_iff (kinds : Config.MemberKinds) {d : FuncDecl} :
    c ∈ p.functionCandidate kinds f d ↔
      c ∈ p.functionCandidate .every f d ∧ kinds.Allows c.element.traits := by
  unfold functionCandidate
  dsimp only [Config.MemberKinds.every]
  cases p.isConstructor d <;>
  · simp only [List.mem_ite_nil_left, List.mem_singleton, Bool.or_eq_true, not_or,
      Bool.not_eq_true', Bool.not_eq_false, if_true, Bool.false_eq_true, if_false]
    constructor
    · rintro ⟨⟨hcallable, hkind⟩, rfl⟩
      exact ⟨⟨⟨hcallable, trivial⟩, rfl⟩, (allows_of_toggle rfl).mpr hkind⟩
    · rintro ⟨⟨⟨hcallable, -⟩, rfl⟩, h⟩
      exact ⟨⟨hcallable, h.kind⟩, rfl⟩

/-- The kind of the elements that a value declaration declares. -/
def valueKind : ValueKind → Kind
  | .const => .constant
  | .var => .var

theorem allows_of_mem_valueCandidates {kind : ValueKind} {doc : Option CommentGroup} {v : ValueSpec}
    (h : c ∈ p.valueCandidates f kind doc v) :
    kinds.Allows c.element.traits ↔ kinds.toggle (valueKind kind) = true := by
  obtain ⟨n, -, rfl⟩ := List.mem_map.mp h
  cases kind <;> exact allows_of_toggle rfl

theorem mem_declCandidates_iff (kinds : Config.MemberKinds) {d : Decl} :
    c ∈ p.declCandidates kinds f d ↔
      c ∈ p.declCandidates .every f d ∧ kinds.Allows c.element.traits := by
  unfold declCandidates
  cases d with
  | func d => simp only [List.mem_ite_nil_right, and_assoc, ← mem_functionCandidate_iff kinds]
  | values kind doc specs =>
    cases kind <;>
    · simp only [Config.MemberKinds.every, List.mem_ite_nil_right, List.mem_flatMap, true_and]
      constructor
      · rintro ⟨hkind, v, hv, hc⟩
        exact ⟨⟨v, hv, hc⟩, (allows_of_mem_valueCandidates hc).mpr hkind⟩
      · rintro ⟨⟨v, hv, hc⟩, h⟩
        exact ⟨(allows_of_mem_valueCandidates hc).mp h, v, hv, hc⟩
  | _ => simp

/-- The scope that asks nothing; the flag tells whether promoted methods are scanned. -/
def wholeScope (inherited : Bool) : Scope where
  packages := none
  typeNames := none
  typeAnnotations := none
  memberNames := none
  memberAnnotations := none
  typeKinds := ⟨true, true, true, true, true, true⟩
  memberKinds := .every
  visibilities := Visibility.all
  inherited := inherited

theorem mem_membersOfType_iff_allows :
    c ∈ p.membersOfType s t ↔
      c ∈ p.membersOfType (wholeScope s.inherited) t ∧
        s.memberKinds.Allows c.element.traits := by
  simp only [mem_membersOfType_iff, wholeScope, declaredMethod,
    mem_fieldCandidates_iff s.memberKinds, mem_interfaceCandidates_iff s.memberKinds,
    mem_methodCandidate_iff s.memberKinds, or_and_right, exists_and_right, ← and_assoc]

/-- **The candidates under a scope are those of the whole package that it admits.** -/
theorem mem_candidates_iff_admits :
    c ∈ p.candidates s ↔
      (∃ t ∈ p.types, p.AdmitsType s t.spec (p.typeCandidate t).element.traits ∧
        (c = p.typeCandidate t ∨
          c ∈ p.membersOfType (wholeScope s.inherited) t ∧
            s.AdmitsMember c.element.traits)) ∨
      (∃ f ∈ p.files, ∃ d ∈ f.decls, c ∈ p.declCandidates .every f d) ∧
        s.AdmitsMember c.element.traits := by
  rw [mem_candidates_iff]
  simp only [typeInScope_iff, mem_membersOfType_iff_allows (s := s),
    mem_declCandidates_iff s.memberKinds, admitsMember_iff, exists_and_right, ← and_assoc]

end Source.Package

/-! ## 4. What is listed is in scope -/

namespace Inventory

open Source Policy

variable {p : Package} {s s' : Scope}

/-- **The keys of an inventory are those of its candidates.** -/
theorem mem_keys_ofPackage_iff {k : ElementKey} :
    k ∈ (ofPackage p s).elements.map Element.key ↔ ∃ c ∈ p.candidates s, c.element.key = k := by
  rw [← hasKey_iff, ofPackage_eq_addAll, hasKey_addAll]
  simp [hasKey, empty]

/-- **An inventory lists nothing out of scope.**  A type is declared by the package and admitted as
such, any other element is admitted as a member; a filter that is absent admits everything. -/
theorem elements_in_scope (p : Package) (s : Scope) :
    (∀ e ∈ (ofPackage p s).elements,
      e.visibility ∈ s.visibilities ∧
      (e.kind = .type → ∃ generated doc t, p.HoldsType generated doc t ∧
        e.traits = p.typeTraits generated doc t ∧ p.AdmitsType s t e.traits) ∧
      (e.kind ≠ .type → s.AdmitsMember e.traits)) ∧
    (∀ value, passes none value = true) ∧ ∀ labels, admits none labels = true := by
  refine ⟨fun e he => ?_, fun _ => rfl, fun _ => rfl⟩
  obtain ⟨c, hc, rfl⟩ := exists_candidate_of_mem he
  rcases Package.mem_candidates_iff_admits.mp hc with ⟨t, ht, hadmits, rfl | ⟨-, h⟩⟩ | ⟨-, h⟩
  · refine ⟨hadmits.visibility, fun _ => ?_, fun hkind => absurd rfl hkind⟩
    exact ⟨_, _, t.spec, Package.holdsType_of_mem_types ht, rfl, hadmits⟩
  · exact ⟨h.visibility, fun hkind => absurd hkind h.kind_ne_type, fun _ => h⟩
  · exact ⟨h.visibility, fun hkind => absurd hkind h.kind_ne_type, fun _ => h⟩

/-- A package of a struct with a field, a constructor and a method, and of a function. -/
def samplePackage : Package where
  importPath := "example.com/p"
  files := (File.parse? "t.go" ("package p\n\ntype T struct{ A int }\n\n" ++
    "func NewT() T\n\nfunc (t T) m()\n\nfunc F()\n")).toList

/-- The exported elements of a package, without fields and functions. -/
def sampleScope : Scope :=
  { Package.wholeScope false with
    visibilities := [.pub]
    memberKinds := { Config.MemberKinds.every with fields := false, functions := false } }

theorem keys_samplePackage :
    (ofPackage samplePackage sampleScope).elements.map Element.key =
      [⟨.type, "example.com/p.T"⟩, ⟨.constructor, "example.com/p.NewT"⟩] := by
  decide +kernel

/-- Without the toggle of functions, the constructor of a type is listed and a function is not. -/
theorem elements_in_scope_constructor :
    ∃ e ∈ (ofPackage samplePackage sampleScope).elements,
      e.kind = .constructor ∧ e.visibility ∈ sampleScope.visibilities ∧
        sampleScope.AdmitsMember e.traits := by
  have hkey : (⟨.constructor, "example.com/p.NewT"⟩ : ElementKey) ∈
      (ofPackage samplePackage sampleScope).elements.map Element.key := by
    rw [keys_samplePackage]
    exact List.mem_cons_of_mem _ List.mem_cons_self
  obtain ⟨e, he, hkey⟩ := List.mem_map.mp hkey
  have hkind : e.kind = .constructor := congrArg ElementKey.kind hkey
  have hmember : e.kind ≠ .type := by
    rw [hkind]
    decide
  have hscope := (elements_in_scope samplePackage sampleScope).1 e he
  exact ⟨e, he, hkind, hscope.1, hscope.2.2 hmember⟩

end Inventory

/-! ## 5. Narrower scopes -/

/-- Whatever `s` lets through, `s'` lets through as well: by its toggles, its visibilities and its
filters.  The filters of names are asked for a name, those of annotations for all the annotations
of an element at once. -/
structure Policy.Scope.Narrower (s s' : Policy.Scope) : Prop where
  category : ∀ c, s.typeKinds.toggle c = true → s'.typeKinds.toggle c = true
  errors : s.typeKinds.errors = true → s'.typeKinds.errors = true
  kind : ∀ k, s.memberKinds.toggle k = true → s'.memberKinds.toggle k = true
  getters : s.memberKinds.getters = true → s'.memberKinds.getters = true
  setters : s.memberKinds.setters = true → s'.memberKinds.setters = true
  inherited : s.inherited = true → s'.inherited = true
  visibility : ∀ v ∈ s.visibilities, v ∈ s'.visibilities
  typeName : ∀ n, Policy.passes s.typeNames n = true → Policy.passes s'.typeNames n = true
  typeAnnotations : ∀ ls, Policy.admits s.typeAnnotations ls = true →
    Policy.admits s'.typeAnnotations ls = true
  memberName : ∀ n, Policy.passes s.memberNames n = true → Policy.passes s'.memberNames n = true
  memberAnnotations : ∀ ls, Policy.admits s.memberAnnotations ls = true →
    Policy.admits s'.memberAnnotations ls = true

namespace Policy.Scope.Narrower

variable {p : Package} {s s' : Policy.Scope} {c : Candidate} {t : TypeDecl} {x : Traits}

theorem admitsType (h : s.Narrower s') (ht : p.AdmitsType s t.spec x) :
    p.AdmitsType s' t.spec x where
  kind := ht.kind.imp (h.category _) (And.imp_left h.errors)
  visibility := h.visibility _ ht.visibility
  name := h.typeName _ ht.name
  annotations := h.typeAnnotations _ ht.annotations

theorem admitsMember (h : s.Narrower s') (hx : s.AdmitsMember x) : s'.AdmitsMember x where
  kinds :=
    { kind := h.kind _ hx.kinds.kind
      getter := fun hget => h.getters (hx.kinds.getter hget)
      setter := fun hset => h.setters (hx.kinds.setter hset) }
  visibility := h.visibility _ hx.visibility
  name := h.memberName _ hx.name
  annotations := h.memberAnnotations _ hx.annotations

theorem mem_membersOfType (h : s.Narrower s')
    (hc : c ∈ p.membersOfType (Package.wholeScope s.inherited) t) :
    c ∈ p.membersOfType (Package.wholeScope s'.inherited) t := by
  rw [Package.mem_membersOfType_iff] at hc ⊢
  exact hc.imp_right (Or.imp_right (Or.imp_right (And.imp_left h.inherited)))

/-- A candidate stays one when the scope is widened, also if another has its key. -/
theorem mem_candidates (h : s.Narrower s') (hc : c ∈ p.candidates s) : c ∈ p.candidates s' := by
  rw [Package.mem_candidates_iff_admits] at hc ⊢
  rcases hc with ⟨t, ht, hadmits, rfl | ⟨hc, hx⟩⟩ | ⟨hc, hx⟩
  · exact .inl ⟨t, ht, h.admitsType hadmits, .inl rfl⟩
  · exact .inl ⟨t, ht, h.admitsType hadmits, .inr ⟨h.mem_membersOfType hc, h.admitsMember hx⟩⟩
  · exact .inr ⟨hc, h.admitsMember hx⟩

end Policy.Scope.Narrower

namespace Inventory

/-- **Under a narrower scope an inventory has no other keys.** -/
theorem keys_subset_of_narrower (p : Package) {s s' : Policy.Scope} (h : s.Narrower s') :
    (ofPackage p s).elements.map Element.key ⊆ (ofPackage p s').elements.map Element.key := by
  intro k hk
  obtain ⟨c, hc, rfl⟩ := mem_keys_ofPackage_iff.mp hk
  exact mem_keys_ofPackage_iff.mpr ⟨c, h.mem_candidates hc, rfl⟩

/-- Some exported elements of a package, among all its elements. -/
theorem keys_subset_of_narrower_exported :
    sampleScope.Narrower (Package.wholeScope true) ∧
    [⟨.type, "example.com/p.T"⟩, ⟨.constructor, "example.com/p.NewT"⟩] ⊆
      (ofPackage samplePackage (Package.wholeScope true)).elements.map Element.key := by
  have hkind : ∀ k, sampleScope.memberKinds.toggle k = true →
      (Package.wholeScope true).memberKinds.toggle k = true := by
    intro k
    unfold Config.MemberKinds.toggle
    split_ifs <;> simp [sampleScope, Package.wholeScope, Config.MemberKinds.every]
  have h : sampleScope.Narrower (Package.wholeScope true) :=
    { category := fun _ h => h
      errors := fun h => h
      kind := hkind
      getters := fun h => h
      setters := fun h => h
      inherited := fun _ => rfl
      visibility := by decide
      typeName := fun _ h => h
      typeAnnotations := fun _ h => h
      memberName := fun _ h => h
      memberAnnotations := fun _ h => h }
  refine ⟨h, ?_⟩
  rw [← keys_samplePackage]
  exact keys_subset_of_narrower samplePackage h

end Inventory

end DocAudit
