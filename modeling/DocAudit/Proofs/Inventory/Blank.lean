import DocAudit.Proofs.Inventory.FileOrder
import DocAudit.Proofs.Inventory.Owners
import DocAudit.Proofs.Inventory.Promoted

/-!
# Blank names

The blank name `_` declares nothing that could be referred to.  Fields, functions, constants and
variables of this name are left out of the inventory; types, embedded fields and methods are not,
since each form of declaration is looked through by itself.

* `name_ne_blank_of_mem_declCandidates` and `mem_fieldFaces_blank_iff`: where blank names are left
  out, and where they are not;
* `BlankMember` lists the members of a type that are blank and stay;
* `blank_unlisted`: without unexported elements there are none in an inventory;
* `blank_listed_iff`: the blank elements of an inventory are the blank types and the blank members
  that the scope admits.
-/

namespace DocAudit.Source

open Policy

/-! ## 1. Blank members -/

section Faces

variable {f : Field} {generated : Bool} {x : MemberFace} {t : TypeDecl}

/-- **Of the fields of a struct** only an embedded one can be blank. -/
theorem mem_fieldFaces_blank_iff : x ∈ f.fieldFaces generated ∧ x.name = "_" ↔
    f.names = [] ∧ f.type.baseName = "_" ∧
      x = ⟨.recordComponent, "_", [], annotations (f.doc <|> f.trail) generated⟩ := by
  unfold Field.fieldFaces
  dsimp only
  cases hnames : f.names with
  | nil =>
    simp only [List.isEmpty_nil, if_true, List.mem_ite_nil_right, List.mem_singleton, true_and]
    constructor
    · rintro ⟨⟨-, rfl⟩, hname⟩
      exact ⟨hname, congrArg₂ (MemberFace.mk _ · []) hname rfl⟩
    · rintro ⟨hname, rfl⟩
      rw [hname]
      exact ⟨⟨rfl, rfl⟩, rfl⟩
  | cons n ns =>
    simp only [List.isEmpty_cons, Bool.false_eq_true, if_false, reduceCtorEq, false_and, iff_false]
    rintro ⟨hx, hname⟩
    obtain ⟨n', hn', rfl⟩ := List.mem_map.mp hx
    exact bne_iff_ne.mp (List.mem_filter.mp hn').2 hname

theorem mem_interfaceFaces_iff : x ∈ f.interfaceFaces generated ↔
    ∃ sig, f.type = .func sig ∧ ∃ n ∈ f.names,
      x = ⟨.method, n.text, accessorKinds n.text sig [],
        annotations (f.doc <|> f.trail) generated⟩ := by
  unfold Field.interfaceFaces
  cases f.type with
  | func sig => simp only [List.mem_map, Expr.func.injEq, exists_eq_left', eq_comm]
  | _ => simp

theorem mem_writtenFaces_iff : x ∈ t.writtenFaces ↔
    (∃ fs, t.spec.type = .struct fs ∧ ∃ f ∈ fs, x ∈ f.fieldFaces t.file.generated) ∨
      ∃ es, t.spec.type = .interface es ∧ ∃ f ∈ es, x ∈ f.interfaceFaces t.file.generated := by
  unfold TypeDecl.writtenFaces
  cases t.spec.type <;> simp

end Faces

namespace Package

variable {p : Package} {s : Scope} {c : Candidate} {t : TypeDecl} {x : MemberFace} {k : ElementKey}

theorem mem_memberFaces_iff : x ∈ p.memberFaces s.inherited t ↔
    x ∈ t.writtenFaces ∨ ∃ m, p.HasMethod s t m ∧ x = t.methodFace m := by
  unfold memberFaces HasMethod
  cases s.inherited <;> simp [or_and_right, exists_or, eq_comm]

/-- **The blank members of a type**: an embedded type, a method of an interface, and a method that
is declared for the type or supplied to it. -/
inductive BlankMember (p : Package) (s : Scope) (t : TypeDecl) : MemberFace → Prop
  | embedded {fs : List Field} {f : Field} :
      t.spec.type = .struct fs → f ∈ fs → f.names = [] → f.type.baseName = "_" →
      BlankMember p s t
        ⟨.recordComponent, "_", [], annotations (f.doc <|> f.trail) t.file.generated⟩
  | signature {es : List Field} {f : Field} {sig : Signature} {n : Name} :
      t.spec.type = .interface es → f ∈ es → f.type = .func sig → n ∈ f.names → n.text = "_" →
      BlankMember p s t ⟨.method, n.text, accessorKinds n.text sig [],
        annotations (f.doc <|> f.trail) t.file.generated⟩
  | method {m : MethodDecl} :
      p.HasMethod s t m → m.name = "_" → BlankMember p s t (t.methodFace m)

theorem mem_memberFaces_blank_iff :
    x ∈ p.memberFaces s.inherited t ∧ x.name = "_" ↔ p.BlankMember s t x := by
  rw [mem_memberFaces_iff, mem_writtenFaces_iff]
  constructor
  · rintro ⟨(⟨fs, htype, f, hf, hx⟩ | ⟨es, htype, f, hf, hx⟩) | ⟨m, hm, rfl⟩, hname⟩
    · obtain ⟨hnames, hbase, rfl⟩ := mem_fieldFaces_blank_iff.mp ⟨hx, hname⟩
      exact .embedded htype hf hnames hbase
    · obtain ⟨sig, hsig, n, hn, rfl⟩ := mem_interfaceFaces_iff.mp hx
      exact .signature htype hf hsig hn hname
    · exact .method hm hname
  · intro h
    cases h with
    | embedded htype hf hnames hbase =>
      obtain ⟨hx, hname⟩ := mem_fieldFaces_blank_iff.mpr ⟨hnames, hbase, rfl⟩
      exact ⟨.inl (.inl ⟨_, htype, _, hf, hx⟩), hname⟩
    | signature htype hf hsig hn hname =>
      exact ⟨.inl (.inr ⟨_, htype, _, hf, mem_interfaceFaces_iff.mpr ⟨_, hsig, _, hn, rfl⟩⟩), hname⟩
    | method hm hname => exact ⟨.inr ⟨_, hm, rfl⟩, hname⟩

theorem BlankMember.kind_mem (h : p.BlankMember s t x) :
    x.kind ∈ [Kind.recordComponent, .method] := by
  cases h <;> simp [TypeDecl.methodFace]

/-- **No function, constant or variable** in an inventory is blank. -/
theorem name_ne_blank_of_mem_declCandidates {kinds : Config.MemberKinds} {f : File} {d : Decl}
    (h : c ∈ p.declCandidates kinds f d) : c.element.name ≠ "_" := by
  unfold declCandidates at h
  split at h
  · obtain ⟨hcallable, hc⟩ := List.mem_ite_nil_left.mp (List.mem_ite_nil_right.mp h).2
    rw [List.mem_singleton.mp hc]
    rw [Bool.or_eq_true, not_or, Bool.not_eq_true] at hcallable
    exact (isUncallable_eq_false_iff.mp hcallable.1).2.1
  · obtain ⟨v, -, hv⟩ := List.mem_flatMap.mp (List.mem_ite_nil_right.mp h).2
    obtain ⟨n, hn, rfl⟩ := List.mem_map.mp hv
    exact bne_iff_ne.mp (List.mem_filter.mp hn).2
  · cases h

/-! ## 2. Blank elements -/

/-- The keys of the blank types and of the blank members that a scope admits. -/
inductive ListsBlank (p : Package) (s : Scope) : ElementKey → Prop
  | type {t : TypeDecl} :
      t ∈ p.types → t.name = "_" →
      p.AdmitsType s t.spec (p.typeTraits t.file.generated t.declDoc t.spec) →
      ListsBlank p s (p.typeTraits t.file.generated t.declDoc t.spec).key
  | member {t : TypeDecl} {x : MemberFace} :
      t ∈ p.types → p.AdmitsType s t.spec (p.typeTraits t.file.generated t.declDoc t.spec) →
      p.BlankMember s t x → s.AdmitsMember (p.traitsOf t.name x) →
      ListsBlank p s (p.traitsOf t.name x).key

/-- What stands behind the last dot of its qualified name is the name of a candidate. -/
theorem name_of_qualifiedName {above name : String} (hc : c ∈ p.candidates s)
    (hdot : '.' ∉ name.toList) (h : c.element.qualifiedName = above ++ "." ++ name) :
    c.element.name = name := by
  rcases named_of_mem_candidates hc with hnamed | ⟨t, -, hnamed⟩
  · rw [hnamed.qualifiedName] at h
    exact (eq_of_last_dot hnamed.dot_notMem hdot h).2
  · rw [hnamed.qualifiedName, ← String.append_assoc, ← String.append_assoc] at h
    exact (eq_of_last_dot hnamed.dot_notMem hdot h).2

theorem ListsBlank.exists_qualifiedName (h : p.ListsBlank s k) :
    ∃ above, k.qualifiedName = above ++ "." ++ "_" := by
  cases h with
  | @type t _ hname _ => exact ⟨p.importPath, congrArg (p.importPath ++ "." ++ ·) hname⟩
  | @member t x _ _ hx _ =>
    have hname : x.name = "_" := (mem_memberFaces_blank_iff.mpr hx).2
    refine ⟨p.importPath ++ "." ++ t.name, ?_⟩
    show p.importPath ++ "." ++ (t.name ++ "." ++ x.name) = _
    rw [hname, ← String.append_assoc, ← String.append_assoc]

/-- The key of a blank candidate is that of a blank type or of a blank member. -/
theorem listsBlank_of_mem_candidates (hc : c ∈ p.candidates s) (hname : c.element.name = "_") :
    p.ListsBlank s c.element.key := by
  rcases mem_candidates_iff_admits.mp hc with ⟨t, ht, htype, rfl | ⟨hc, hadmits⟩⟩ |
    ⟨⟨f, -, d, -, hc⟩, -⟩
  · exact .type ht hname htype
  · obtain ⟨x, hx, htraits⟩ := exists_member_iff.mp ⟨c, hc, rfl⟩
    have hxname : x.name = "_" := (congrArg Traits.name htraits).trans hname
    have hkey : (p.traitsOf t.name x).key = c.element.key := congrArg Traits.key htraits
    rw [← htraits] at hadmits
    rw [← hkey]
    exact .member ht htype (mem_memberFaces_blank_iff.mp ⟨hx, hxname⟩) hadmits
  · exact absurd hname (name_ne_blank_of_mem_declCandidates hc)

/-- What a scope lists as blank is in the inventory. -/
theorem ListsBlank.mem_keys (h : p.ListsBlank s k) :
    k ∈ (Inventory.ofPackage p s).elements.map Element.key := by
  refine mem_keys_iff.mpr (.inl ?_)
  cases h with
  | type ht _ htype => exact ⟨_, ht, htype, .inl rfl⟩
  | member ht htype hx hadmits =>
    exact ⟨_, ht, htype, .inr ⟨_, (mem_memberFaces_blank_iff.mpr hx).1, hadmits, rfl⟩⟩

theorem visibilityOf_blank (p : Package) : p.visibilityOf "_" = .pkg := by
  have hexported : isExported "_" = false := by decide +kernel
  unfold visibilityOf
  rw [hexported]
  rfl

theorem memberVisibility_blank (p : Package) (t : TypeDecl) : p.memberVisibility t "_" = .pkg := by
  rw [memberVisibility, visibilityOf_blank, visibilityOf]
  split_ifs <;> decide

/-- A blank element is visible from its own package only. -/
theorem visibility_of_blank (hc : c ∈ p.candidates s) (hname : c.element.name = "_") :
    c.element.visibility = .pkg := by
  rcases mem_candidates_iff.mp hc with ⟨t, -, -, rfl | ⟨hc, -⟩⟩ | ⟨⟨f, -, d, -, hc⟩, -⟩
  · show p.visibilityOf t.name = .pkg
    rw [show t.name = "_" from hname, visibilityOf_blank]
  · rw [visibility_of_mem_membersOfType hc, hname, memberVisibility_blank]
  · exact absurd hname (name_ne_blank_of_mem_declCandidates hc)

/-- **Among exported elements none is blank.** -/
theorem blank_unlisted {e : Element} (hscope : Visibility.pkg ∉ s.visibilities)
    (he : e ∈ (Inventory.ofPackage p s).elements) : e.name ≠ "_" := by
  intro hname
  obtain ⟨c, hc, rfl⟩ := Inventory.exists_candidate_of_mem he
  have hvisible : c.element.visibility ∈ s.visibilities := by
    rcases mem_candidates_iff_admits.mp hc with ⟨t, -, htype, rfl | ⟨-, hadmits⟩⟩ | ⟨-, hadmits⟩
    · exact htype.visibility
    · exact hadmits.visibility
    · exact hadmits.visibility
  rw [visibility_of_blank hc hname] at hvisible
  exact hscope hvisible

/-- **The blank elements of an inventory** are the blank types of the package that the scope admits,
and the blank members of its types that the scope admits: embedded types, methods of interfaces, and
methods.  Fields, functions, constants and variables are none of them. -/
theorem blank_listed_iff (p : Package) (s : Scope) :
    (∀ k, (∃ e ∈ (Inventory.ofPackage p s).elements, e.name = "_" ∧ e.key = k) ↔
      p.ListsBlank s k) ∧
    ∀ e ∈ (Inventory.ofPackage p s).elements, e.name = "_" →
      e.kind ∈ [Kind.type, .recordComponent, .method] ∧ e.visibility = .pkg := by
  constructor
  · intro k
    constructor
    · rintro ⟨e, he, hname, rfl⟩
      obtain ⟨c, hc, rfl⟩ := Inventory.exists_candidate_of_mem he
      exact listsBlank_of_mem_candidates hc hname
    · intro h
      obtain ⟨e, he, rfl⟩ := List.mem_map.mp h.mem_keys
      obtain ⟨above, habove⟩ := h.exists_qualifiedName
      obtain ⟨c, hc, rfl⟩ := Inventory.exists_candidate_of_mem he
      exact ⟨_, he, name_of_qualifiedName hc (by decide) habove, rfl⟩
  · intro e he hname
    obtain ⟨c, hc, rfl⟩ := Inventory.exists_candidate_of_mem he
    refine ⟨?_, visibility_of_blank hc hname⟩
    have hlists := listsBlank_of_mem_candidates hc hname
    generalize hkey : c.element.key = k at hlists
    have hkind : c.element.kind = k.kind := congrArg ElementKey.kind hkey
    rw [hkind]
    cases hlists with
    | type => exact List.mem_cons_self
    | member _ _ hx _ => exact List.mem_cons_of_mem _ hx.kind_mem

/-- A package with a blank declaration of each form that compiles, and a struct that embeds the type
of the blank method. -/
def blankPackage : Package where
  importPath := "example.com/p"
  files := (File.parse? "a.go" ("package p\n\nconst _ = 1\n\nvar _ int\n\nfunc _() {}\n\n" ++
    "type _ struct{}\n\ntype E struct{ _ int }\n\nfunc (E) _() {}\n\n" ++
    "type T struct{ E }\n")).toList

/-- The keys of the blank elements of an inventory. -/
def blankKeys (v : Inventory) : List ElementKey :=
  (v.elements.filter (·.name == "_")).map Element.key

theorem mem_blankKeys_iff {v : Inventory} :
    k ∈ blankKeys v ↔ ∃ e ∈ v.elements, e.name = "_" ∧ e.key = k := by
  simp only [blankKeys, List.mem_map, List.mem_filter, beq_iff_eq, and_assoc]

theorem blankKeys_blankPackage :
    blankKeys (Inventory.ofPackage blankPackage (wholeScope true)) =
      [⟨.type, "example.com/p._"⟩, ⟨.method, "example.com/p.E._"⟩,
        ⟨.method, "example.com/p.T._"⟩] := by
  decide +kernel

/-- Blank types and blank methods are listed, the methods also for the structs that inherit them. -/
theorem blanks_listed :
    blankPackage.Parsed ∧
      blankKeys (Inventory.ofPackage blankPackage (wholeScope true)) =
        [⟨.type, "example.com/p._"⟩, ⟨.method, "example.com/p.E._"⟩,
          ⟨.method, "example.com/p.T._"⟩] :=
  ⟨parsed_of_text _ _ _, blankKeys_blankPackage⟩

/-- A blank method is listed for a struct that inherits it. -/
theorem blank_listed_iff_inherited :
    ∃ e ∈ (Inventory.ofPackage blankPackage (wholeScope true)).elements,
      e.name = "_" ∧ e.key = ⟨.method, "example.com/p.T._"⟩ ∧ e.visibility = .pkg ∧
        blankPackage.ListsBlank (wholeScope true) e.key := by
  have hmem : (⟨.method, "example.com/p.T._"⟩ : ElementKey) ∈
      blankKeys (Inventory.ofPackage blankPackage (wholeScope true)) := by
    simp [blankKeys_blankPackage]
  obtain ⟨e, he, hname, hkey⟩ := mem_blankKeys_iff.mp hmem
  obtain ⟨hlists, hblank⟩ := blank_listed_iff blankPackage (wholeScope true)
  exact ⟨e, he, hname, hkey, (hblank e he hname).2, (hlists e.key).mp ⟨e, he, hname, rfl⟩⟩

end Package

end DocAudit.Source
