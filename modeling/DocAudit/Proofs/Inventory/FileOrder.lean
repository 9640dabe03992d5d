import DocAudit.Proofs.Inventory.Complete
import DocAudit.Proofs.Source.Accessor

/-!
# The order of the files

The elements of a package are found file by file, and of several declarations of one name the first
counts.  What is listed therefore depends on the order of the files in one way only: another
declaration of a type, or another method of a type that it embeds, may come first.

* `MemberFace` is what a scope looks at in a member, and `memberFaces` are those of a type;
* `mem_keys_iff` reads the keys of an inventory off the faces of the members;
* `Alike` says when the first declarations of a type look the same where a key is concerned;
* `mem_keys_iff_of_reordered`: a key is listed in both orders or in neither, unless it belongs to a
  type whose first declarations do not look the same.
-/

namespace DocAudit.Source

/-! ## 1. What a scope looks at in a member -/

/-- What a scope looks at in a member, but for what it takes from its owner. -/
structure MemberFace where
  kind : Kind
  name : String
  accessorKinds : List AccessorKind
  annotations : List String
deriving Repr, DecidableEq

/-- The members that a field of a struct declares. -/
def Field.fieldFaces (generated : Bool) (f : Field) : List MemberFace :=
  let notes := annotations (f.doc <|> f.trail) generated
  if f.names.isEmpty then
    if f.type.baseName != "" then [⟨.recordComponent, f.type.baseName, [], notes⟩] else []
  else (f.names.filter (·.text != "_")).map fun n => ⟨.field, n.text, [], notes⟩

/-- The members that an element of an interface declares. -/
def Field.interfaceFaces (generated : Bool) (f : Field) : List MemberFace :=
  match f.type with
  | .func sig =>
    f.names.map fun n =>
      ⟨.method, n.text, accessorKinds n.text sig [], annotations (f.doc <|> f.trail) generated⟩
  | _ => []

/-- The members that stand in the declaration of a type. -/
def TypeDecl.writtenFaces (t : TypeDecl) : List MemberFace :=
  match t.spec.type with
  | .struct fs => fs.flatMap (Field.fieldFaces t.file.generated)
  | .interface es => es.flatMap (Field.interfaceFaces t.file.generated)
  | _ => []

/-- A declared method as a member of a type. -/
def TypeDecl.methodFace (t : TypeDecl) (m : MethodDecl) : MemberFace :=
  ⟨.method, m.name, accessorKinds m.name m.decl.sig (Package.fieldNames t),
    annotations m.decl.doc m.file.generated⟩

namespace Package

open Policy

variable {p q : Package} {s : Scope} {t u : TypeDecl} {k : ElementKey} {inherited : Bool}
  {kinds : Config.MemberKinds} {x : MemberFace}

/-- All members of a type, the inherited methods among them if they are asked for. -/
def memberFaces (p : Package) (inherited : Bool) (t : TypeDecl) : List MemberFace :=
  t.writtenFaces ++ (p.methodsOf t.name).map t.methodFace ++
    if inherited then (p.promotedMethods t).map t.methodFace else []

/-- The traits of a member of the type `owner`. -/
def traitsOf (p : Package) (owner : String) (x : MemberFace) : Traits :=
  p.memberTraits owner x.kind x.name x.accessorKinds x.annotations

theorem traits_fieldCandidates (f : Field) :
    (p.fieldCandidates .every t f).map (·.element.traits) =
      (f.fieldFaces t.file.generated).map (p.traitsOf t.name) := by
  unfold fieldCandidates Field.fieldFaces
  simp only [Config.MemberKinds.every, Bool.true_and, if_true]
  split
  · split <;> rfl
  · rw [List.map_map, List.map_map]
    rfl

theorem traits_methodCandidate (f : File) (n : Name) (sig : Signature) (fields : List String)
    (doc : Option CommentGroup) (generated : Bool) :
    (p.methodCandidate .every t f n sig fields doc generated).map (·.element.traits) =
      [p.traitsOf t.name
        ⟨.method, n.text, accessorKinds n.text sig fields, annotations doc generated⟩] := by
  unfold methodCandidate
  rw [if_pos]
  · rfl
  · exact Bool.and_eq_true_iff.mpr ⟨rfl, accessorsAllowed_every _⟩

theorem traits_interfaceCandidates (f : Field) :
    (p.interfaceCandidates .every t f).map (·.element.traits) =
      (f.interfaceFaces t.file.generated).map (p.traitsOf t.name) := by
  unfold interfaceCandidates Field.interfaceFaces
  cases f.type with
  | func sig =>
    simp only [List.map_flatMap, traits_methodCandidate, List.map_map]
    exact List.flatMap_pure_eq_map _ _
  | _ => rfl

theorem traits_declaredMethods (ms : List MethodDecl) :
    (ms.flatMap (p.declaredMethod .every t)).map (·.element.traits) =
      (ms.map t.methodFace).map (p.traitsOf t.name) := by
  simp only [List.map_flatMap, declaredMethod, traits_methodCandidate, List.map_map]
  exact List.flatMap_pure_eq_map _ _

/-- **The candidates for members of a type show its faces.** -/
theorem traits_membersOfType (inherited : Bool) :
    (p.membersOfType (wholeScope inherited) t).map (·.element.traits) =
      (p.memberFaces inherited t).map (p.traitsOf t.name) := by
  unfold membersOfType memberFaces TypeDecl.writtenFaces
  simp only [List.map_append]
  refine congrArg₂ (· ++ ·) (congrArg₂ (· ++ ·) ?_ (traits_declaredMethods _)) ?_
  · cases t.spec.type with
    | struct fs => simp only [wholeScope, List.map_flatMap, traits_fieldCandidates]
    | interface es => simp only [wholeScope, List.map_flatMap, traits_interfaceCandidates]
    | _ => rfl
  · cases inherited with
    | false => rfl
    | true => exact traits_declaredMethods _

/-! ## 2. What is listed for a type -/

/-- The scope lists a key for a type: the key of the type, or that of one of its members. -/
structure ListsKey (p : Package) (s : Scope) (t : TypeDecl) (k : ElementKey) : Prop where
  type : p.AdmitsType s t.spec (p.typeTraits t.file.generated t.declDoc t.spec)
  key : k = (p.typeTraits t.file.generated t.declDoc t.spec).key ∨
    ∃ x ∈ p.memberFaces s.inherited t, s.AdmitsMember (p.traitsOf t.name x) ∧
      (p.traitsOf t.name x).key = k

/-- The key is that of a type or of a member of it. -/
def OwnsKey (p : Package) (type : String) (k : ElementKey) : Prop :=
  k = ⟨.type, p.importPath ++ "." ++ type⟩ ∨
    k.kind ∈ memberKinds ∧ ∃ name, '.' ∉ name.toList ∧
      k.qualifiedName = p.importPath ++ "." ++ (type ++ "." ++ name)

theorem exists_member_iff {y : Traits} :
    (∃ c ∈ p.membersOfType (wholeScope inherited) t, c.element.traits = y) ↔
      ∃ x ∈ p.memberFaces inherited t, p.traitsOf t.name x = y := by
  rw [← List.mem_map, ← List.mem_map, traits_membersOfType]

theorem ListsKey.owns (h : p.ListsKey s t k) : p.OwnsKey t.name k := by
  rcases h.key with rfl | ⟨x, hx, -, rfl⟩
  · exact .inl rfl
  · obtain ⟨c, hc, htraits⟩ := exists_member_iff.mpr ⟨x, hx, rfl⟩
    have hkind : c.element.kind = (p.traitsOf t.name x).key.kind := congrArg Traits.kind htraits
    have hname : c.element.name = x.name := congrArg Traits.name htraits
    have hnamed := memberNamed_of_mem_membersOfType hc
    exact .inr ⟨hkind ▸ hnamed.kind, x.name, hname ▸ hnamed.dot_notMem, rfl⟩

/-- **The keys of an inventory** are those of the types and their members, and those of the
functions, constants and variables. -/
theorem mem_keys_iff :
    k ∈ (Inventory.ofPackage p s).elements.map Element.key ↔
      (∃ t ∈ p.types, p.ListsKey s t k) ∨
      ∃ f ∈ p.files, ∃ d ∈ f.decls, ∃ c ∈ p.declCandidates .every f d,
        s.AdmitsMember c.element.traits ∧ c.element.key = k := by
  simp only [Inventory.mem_keys_ofPackage_iff, mem_candidates_iff_admits]
  constructor
  · rintro ⟨c, ⟨t, ht, htype, rfl | ⟨hc, hadmits⟩⟩ | ⟨⟨f, hf, d, hd, hc⟩, hadmits⟩, rfl⟩
    · exact .inl ⟨t, ht, htype, .inl rfl⟩
    · obtain ⟨x, hx, htraits⟩ := exists_member_iff.mp ⟨c, hc, rfl⟩
      refine .inl ⟨t, ht, htype, .inr ⟨x, hx, ?_, ?_⟩⟩
      · rw [htraits]
        exact hadmits
      · rw [htraits]
        rfl
    · exact .inr ⟨f, hf, d, hd, c, hc, hadmits, rfl⟩
  · rintro (⟨t, ht, htype, rfl | ⟨x, hx, hadmits, rfl⟩⟩ | ⟨f, hf, d, hd, c, hc, hadmits, rfl⟩)
    · exact ⟨p.typeCandidate t, .inl ⟨t, ht, htype, .inl rfl⟩, rfl⟩
    · obtain ⟨c, hc, htraits⟩ := exists_member_iff.mpr ⟨x, hx, rfl⟩
      rw [← htraits] at hadmits ⊢
      exact ⟨c, .inl ⟨t, ht, htype, .inr ⟨hc, hadmits⟩⟩, rfl⟩
    · exact ⟨c, .inr ⟨⟨f, hf, d, hd, hc⟩, hadmits⟩, rfl⟩

/-! ## 3. Reordered files -/

/-- The package `q` has the files of the package `p` in another order. -/
structure Reordered (p q : Package) : Prop where
  importPath : q.importPath = p.importPath
  files : q.files.Perm p.files
  onePackage : ∀ f ∈ p.files, f.package = p.name

namespace Reordered

theorem name_eq (h : p.Reordered q) : q.name = p.name := by
  cases hq : q.files with
  | nil =>
    have hp : p.files = [] := List.nil_perm.mp (hq ▸ h.files)
    simp [name, hq, hp]
  | cons f fs =>
    have hf : f ∈ p.files := h.files.subset (hq ▸ List.mem_cons_self)
    rw [← h.onePackage f hf]
    simp [name, hq]

theorem symm (h : p.Reordered q) : q.Reordered p where
  importPath := h.importPath.symm
  files := h.files.symm
  onePackage f hf := (h.onePackage f (h.files.subset hf)).trans h.name_eq.symm

theorem rearranged (h : p.Reordered q) : p.Rearranged q where
  importPath := h.importPath
  name := h.name_eq
  holdings := h.files.flatMap_right _

variable (h : p.Reordered q)

include h

theorem declaresType {type : String} (hp : p.DeclaresType type) : q.DeclaresType type := by
  obtain ⟨generated, doc, t, ht, hname⟩ := hp
  exact ⟨generated, doc, t, h.rearranged.holdsType ht, hname⟩

theorem hasType : q.hasType = p.hasType := by
  funext type
  rw [Bool.eq_iff_iff, hasType_iff, hasType_iff]
  exact ⟨h.symm.declaresType, h.declaresType⟩

theorem methodsOf (type : String) : (q.methodsOf type).Perm (p.methodsOf type) :=
  (h.files.flatMap_right _).filter _

/-- What stands outside of types gives the same candidates in both orders. -/
theorem declCandidates (f : File) (d : Decl) :
    q.declCandidates kinds f d = p.declCandidates kinds f d := by
  have helement : q.element = p.element := by
    funext f kind below name pos visibility
    unfold element
    rw [h.importPath, h.name_eq]
  have hvisibility : q.visibilityOf = p.visibilityOf := funext h.rearranged.visibilityOf
  have hconstructor : q.isConstructor = p.isConstructor := by
    funext d
    unfold isConstructor
    rw [h.hasType]
  have hcallable : q.isUncallable = p.isUncallable := by
    funext name
    unfold isUncallable
    rw [h.name_eq]
  unfold Package.declCandidates functionCandidate valueCandidates
  rw [helement, hvisibility, hconstructor, hcallable]

end Reordered

/-! ## 4. First declarations that look the same -/

/-- The first method of a name that embedded types supply to a type, as a member of it. -/
def suppliedFace? (p : Package) (t : TypeDecl) (name : String) : Option MemberFace :=
  ((p.suppliedMethods t).find? (·.name == name)).map t.methodFace

theorem mem_promotedFaces_iff :
    x ∈ (p.promotedMethods t).map t.methodFace ↔
      (∀ m ∈ p.methodsOf t.name, m.name ≠ x.name) ∧ p.suppliedFace? t x.name = some x := by
  simp only [List.mem_map, mem_promotedMethods_iff, suppliedFace?, Option.map_eq_some_iff]
  constructor
  · rintro ⟨m, ⟨hown, hfirst⟩, rfl⟩
    exact ⟨hown, m, hfirst, rfl⟩
  · rintro ⟨hown, m, hfirst, rfl⟩
    exact ⟨m, ⟨hown, hfirst⟩, rfl⟩

/-- **The first declarations of a type look the same where a key is concerned**: `t` is the first in
`p` and `u` the first in `q`, and the key is that of the type or of a member of it.  The declarations
are of one category and bear the same annotations; they write the same members with this key; and for
the key of a method, they have both a field of the same name or none, and the first method of the
name that embedded types supply looks the same, if inherited methods are listed at all. -/
structure Alike (p q : Package) (inherited : Bool) (k : ElementKey) (t u : TypeDecl) : Prop where
  category : u.spec.category = t.spec.category
  annotations : annotations u.doc u.file.generated = annotations t.doc t.file.generated
  written : ∀ x, (p.traitsOf t.name x).key = k → (x ∈ u.writtenFaces ↔ x ∈ t.writtenFaces)
  fieldName : ∀ name, p.methodKey t.name name = k →
    (Text.lowerText name ∈ fieldNames u ↔ Text.lowerText name ∈ fieldNames t)
  supplied : inherited = true → ∀ name, p.methodKey t.name name = k →
    q.suppliedFace? u name = p.suppliedFace? t name

namespace Reordered

variable (h : p.Reordered q)

include h

theorem traitsOf : q.traitsOf = p.traitsOf := by
  unfold Package.traitsOf
  rw [h.rearranged.memberTraits]

theorem methodKey : q.methodKey = p.methodKey := by
  unfold Package.methodKey
  rw [h.importPath]

end Reordered

namespace Alike

theorem symm (h : p.Alike q inherited k t u) (hq : p.Reordered q) (hname : u.name = t.name) :
    q.Alike p inherited k u t where
  category := h.category.symm
  annotations := h.annotations.symm
  written x hkey := by
    rw [hq.traitsOf, hname] at hkey
    exact (h.written x hkey).symm
  fieldName name hkey := by
    rw [hq.methodKey, hname] at hkey
    exact (h.fieldName name hkey).symm
  supplied hinherited name hkey := by
    rw [hq.methodKey, hname] at hkey
    exact (h.supplied hinherited name hkey).symm

/-- **Alike declarations have the same members with the key.** -/
theorem mem_memberFaces (h : p.Alike q inherited k t u) (hq : p.Reordered q)
    (hname : u.name = t.name) (hx : x ∈ p.memberFaces inherited t)
    (hkey : (p.traitsOf t.name x).key = k) : x ∈ q.memberFaces inherited u := by
  have hface : ∀ m, p.methodKey t.name m.name = k → t.methodFace m = u.methodFace m := by
    intro m hm
    have haccessor : accessorKinds m.name m.decl.sig (Package.fieldNames t) =
        accessorKinds m.name m.decl.sig (Package.fieldNames u) :=
      accessorKinds_eq_iff.mpr fun _ => (h.fieldName m.name hm).symm
    unfold TypeDecl.methodFace
    rw [haccessor]
  have hmethods := hq.methodsOf t.name
  unfold memberFaces at hx ⊢
  rw [List.mem_append, List.mem_append] at hx ⊢
  rw [hname]
  -- Declared methods are members in any order of the files, an inherited one only if it is the first
  -- of its name in both.
  rcases hx with (hx | hx) | hx
  · exact .inl (.inl ((h.written x hkey).mpr hx))
  · obtain ⟨m, hm, rfl⟩ := List.mem_map.mp hx
    exact .inl (.inr (List.mem_map.mpr ⟨m, hmethods.symm.subset hm, (hface m hkey).symm⟩))
  · refine .inr ?_
    cases hinherited : inherited with
    | false =>
      rw [hinherited] at hx
      cases hx
    | true =>
      rw [hinherited] at hx
      obtain ⟨hown, hfirst⟩ := mem_promotedFaces_iff.mp hx
      obtain ⟨m, -, rfl⟩ := List.mem_map.mp hx
      refine mem_promotedFaces_iff.mpr ⟨fun m' hm' => ?_, ?_⟩
      · rw [hname] at hm'
        exact hown m' (hmethods.subset hm')
      · rw [h.supplied hinherited _ hkey]
        exact hfirst

/-- Alike declarations list the key both or not at all. -/
theorem listsKey (h : p.Alike q s.inherited k t u) (hq : p.Reordered q) (hname : u.name = t.name)
    (hk : p.ListsKey s t k) : q.ListsKey s u k := by
  have hspec : u.spec.name.text = t.spec.name.text := hname
  have htype : q.typeTraits u.file.generated u.declDoc u.spec =
      p.typeTraits t.file.generated t.declDoc t.spec := by
    rw [hq.rearranged.typeTraits]
    have hnotes : Source.annotations (u.spec.doc <|> u.declDoc) u.file.generated =
        Source.annotations (t.spec.doc <|> t.declDoc) t.file.generated := h.annotations
    unfold typeTraits
    rw [hspec, hnotes]
  have hadmits := hq.rearranged.admitsType hk.type
  constructor
  · rw [htype]
    refine ⟨?_, hadmits.visibility, hadmits.name, hadmits.annotations⟩
    rw [h.category, hspec]
    exact hadmits.kind
  · rw [htype]
    refine hk.key.imp_right ?_
    rintro ⟨x, hx, hx', hkey⟩
    rw [hq.traitsOf, hname]
    exact ⟨x, h.mem_memberFaces hq hname hx hkey, hx', hkey⟩

end Alike

/-! ## 5. Keys in two orders -/

theorem mem_keys_of_reordered (hq : p.Reordered q)
    (halike : ∀ t ∈ p.types, ∀ u ∈ q.types, u.name = t.name → p.OwnsKey t.name k →
      p.Alike q s.inherited k t u)
    (hk : k ∈ (Inventory.ofPackage p s).elements.map Element.key) :
    k ∈ (Inventory.ofPackage q s).elements.map Element.key := by
  rw [mem_keys_iff] at hk ⊢
  rcases hk with ⟨t, ht, hlists⟩ | ⟨f, hf, d, hd, c, hc, hadmits⟩
  · have hdeclares : q.DeclaresType t.name :=
      hq.declaresType (exists_mem_types_iff.mp ⟨t, ht, rfl⟩)
    obtain ⟨u, hu, hname⟩ := exists_mem_types_iff.mpr hdeclares
    exact .inl ⟨u, hu, (halike t ht u hu hname hlists.owns).listsKey hq hname hlists⟩
  · rw [← hq.declCandidates] at hc
    exact .inr ⟨f, hq.files.symm.subset hf, d, hd, c, hc, hadmits⟩

/-- **A key is listed in both orders of the files or in neither**, if the first declarations of the
type that it belongs to look the same where it is concerned; a key that belongs to no type needs
nothing. -/
theorem mem_keys_iff_of_reordered (hq : p.Reordered q) (s : Scope) (k : ElementKey)
    (halike : ∀ t ∈ p.types, ∀ u ∈ q.types, u.name = t.name → p.OwnsKey t.name k →
      p.Alike q s.inherited k t u) :
    k ∈ (Inventory.ofPackage q s).elements.map Element.key ↔
      k ∈ (Inventory.ofPackage p s).elements.map Element.key := by
  refine ⟨mem_keys_of_reordered hq.symm fun u hu t ht hname howns => ?_,
    mem_keys_of_reordered hq halike⟩
  have howns' : p.OwnsKey t.name k := by
    unfold OwnsKey at howns ⊢
    rw [hname, ← hq.importPath]
    exact howns
  exact (halike t ht u hu hname.symm howns').symm hq hname.symm

/-- A struct that two files declare with different fields, for one platform each, and an embedded
type whose method both declare. -/
def alikePackage : Package where
  importPath := "example.com/p"
  files :=
    (File.parse? "a.go" ("//go:build linux\n\npackage p\n\n" ++
      "type T struct{ E; A int }\n\nfunc (E) M() {}\n")).toList ++
    (File.parse? "b.go" ("//go:build windows\n\npackage p\n\ntype E struct{}\n\n" ++
      "// T is open.\ntype T struct{ B int; E }\n\nfunc (E) M() {}\n")).toList

/-- A package with its files in reverse. -/
def reversed (p : Package) : Package := { p with files := p.files.reverse }

theorem reordered_reversed (h : ∀ f ∈ p.files, f.package = p.name) : p.Reordered p.reversed where
  importPath := rfl
  files := p.files.reverse_perm
  onePackage := h

/-- The inherited method is listed in both orders of the files. -/
theorem mem_keys_iff_of_reordered_inherited :
    alikePackage.Reordered alikePackage.reversed ∧
    alikePackage.methodKey "T" "M" ∈
      (Inventory.ofPackage alikePackage (wholeScope true)).elements.map Element.key ∧
    alikePackage.methodKey "T" "M" ∈
      (Inventory.ofPackage alikePackage.reversed (wholeScope true)).elements.map Element.key := by
  obtain ⟨hone, hkey, hfirst⟩ :
      (∀ f ∈ alikePackage.files, f.package = alikePackage.name) ∧
      alikePackage.methodKey "T" "M" ∈
        (Inventory.ofPackage alikePackage (wholeScope true)).elements.map Element.key ∧
      ∀ t ∈ alikePackage.types, ∀ u ∈ alikePackage.reversed.types, u.name = t.name →
        u.spec.category = t.spec.category ∧
        annotations u.doc u.file.generated = annotations t.doc t.file.generated ∧
        (∀ x ∈ u.writtenFaces, x.kind ≠ .method) ∧ (∀ x ∈ t.writtenFaces, x.kind ≠ .method) ∧
        Text.lowerText "M" ∉ fieldNames u ∧ Text.lowerText "M" ∉ fieldNames t ∧
        alikePackage.reversed.suppliedFace? u "M" = alikePackage.suppliedFace? t "M" := by
    decide +kernel
  have hq := reordered_reversed hone
  refine ⟨hq, hkey, (mem_keys_iff_of_reordered hq (wholeScope true) _ ?_).mpr hkey⟩
  intro t ht u hu hname howns
  obtain ⟨hcategory, hnotes, hwritten, hwritten', hfield, hfield', hsupplied⟩ :=
    hfirst t ht u hu hname
  have htype : t.name = "T" := by
    rcases howns with hkey | ⟨-, name, hdot, hqualified⟩
    · exact absurd (congrArg ElementKey.kind hkey) (show Kind.method ≠ .type by decide)
    · exact (eq_of_two_dots t.spec.name.dot_notMem (by decide) hdot (by decide)
        hqualified.symm).2.1
  have hmethod : ∀ name, alikePackage.methodKey t.name name = alikePackage.methodKey "T" "M" →
      name = "M" := by
    intro name hkey
    rw [htype] at hkey
    have hqualified := congrArg ElementKey.qualifiedName hkey
    exact (String.append_right_inj _).mp ((String.append_right_inj _).mp hqualified)
  exact
    { category := hcategory
      annotations := hnotes
      written := fun x hx => by
        have hkind : x.kind = .method := congrArg ElementKey.kind hx
        exact iff_of_false (fun h => hwritten x h hkind) fun h => hwritten' x h hkind
      fieldName := fun name hname => by
        rw [hmethod name hname]
        exact iff_of_false hfield hfield'
      supplied := fun _ name hname => by
        rw [hmethod name hname]
        exact hsupplied }

/-- A struct that two files declare with different fields, for one platform each. -/
def platformPackage : Package where
  importPath := "example.com/p"
  files :=
    (File.parse? "a.go" "//go:build linux\n\npackage p\n\ntype T struct{ A int }\n").toList ++
    (File.parse? "b.go" "//go:build windows\n\npackage p\n\ntype T struct{ B int }\n").toList

/-- A struct that embeds a type with a method that two files declare, for one platform each: in one
it is a getter, in the other it is none. -/
def overloadPackage : Package where
  importPath := "example.com/p"
  files :=
    (File.parse? "a.go" "package p\n\ntype T struct{ E }\n\ntype E struct{}\n").toList ++
    ((File.parse? "b.go" "//go:build linux\n\npackage p\n\nfunc (E) GetA() int\n").toList ++
    (File.parse? "c.go" "//go:build windows\n\npackage p\n\nfunc (E) GetA(n int) int\n").toList)

/-- The scope that asks for everything, inherited methods included, but for getters. -/
def scopeWithoutGetters : Scope :=
  { wholeScope true with memberKinds := { Config.MemberKinds.every with getters := false } }

/-- Of a struct that is declared twice, the fields of the first declaration are listed; and of an
inherited method that is declared twice, only the first declaration is asked for its form. -/
theorem keys_depend_on_order :
    (platformPackage.Parsed ∧ platformPackage.Reordered platformPackage.reversed ∧
      ⟨.field, "example.com/p.T.A"⟩ ∈
        (Inventory.ofPackage platformPackage (wholeScope false)).elements.map Element.key ∧
      ⟨.field, "example.com/p.T.A"⟩ ∉
        (Inventory.ofPackage platformPackage.reversed (wholeScope false)).elements.map
          Element.key) ∧
    overloadPackage.Parsed ∧ overloadPackage.Reordered overloadPackage.reversed ∧
      ⟨.method, "example.com/p.T.GetA"⟩ ∉
        (Inventory.ofPackage overloadPackage scopeWithoutGetters).elements.map Element.key ∧
      ⟨.method, "example.com/p.T.GetA"⟩ ∈
        (Inventory.ofPackage overloadPackage.reversed scopeWithoutGetters).elements.map
          Element.key := by
  obtain ⟨hone, hkey, hkey', hone', hget, hget'⟩ :
      (∀ f ∈ platformPackage.files, f.package = platformPackage.name) ∧
      ⟨.field, "example.com/p.T.A"⟩ ∈
        (Inventory.ofPackage platformPackage (wholeScope false)).elements.map Element.key ∧
      ⟨.field, "example.com/p.T.A"⟩ ∉
        (Inventory.ofPackage platformPackage.reversed (wholeScope false)).elements.map
          Element.key ∧
      (∀ f ∈ overloadPackage.files, f.package = overloadPackage.name) ∧
      ⟨.method, "example.com/p.T.GetA"⟩ ∉
        (Inventory.ofPackage overloadPackage scopeWithoutGetters).elements.map Element.key ∧
      ⟨.method, "example.com/p.T.GetA"⟩ ∈
        (Inventory.ofPackage overloadPackage.reversed scopeWithoutGetters).elements.map
          Element.key := by
    decide +kernel
  have hparsed : platformPackage.Parsed := (parsed_of_text _ _ _).append (parsed_of_text _ _ _)
  have hparsed' : overloadPackage.Parsed :=
    (parsed_of_text _ _ _).append ((parsed_of_text _ _ _).append (parsed_of_text _ _ _))
  exact ⟨⟨hparsed, reordered_reversed hone, hkey, hkey'⟩, hparsed', reordered_reversed hone', hget,
    hget'⟩

end Package

end DocAudit.Source
