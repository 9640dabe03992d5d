import DocAudit.Proofs.Inventory.Complete

/-!
# Constructors

A function is listed as a constructor by its name and the name of its first result.  The name of the
result is read without its package and without regard to type parameters.

* `Makes` says when a function makes a value of a type of its package, and `Passes` when it only
  looks as if it did;
* `constructs_iff`: the functions that are taken for constructors are those of either kind;
* `functions_by_kind`: a listed function is listed as a constructor or as a function accordingly.
-/

namespace DocAudit.Source

/-- The function that a declaration declares. -/
def Decl.func? : Decl → Option FuncDecl
  | .func d => some d
  | _ => none

namespace Package

open Policy

variable {p : Package} {s : Scope} {c : Candidate} {d : FuncDecl} {f : File}

/-! ## 1. What a function makes -/

/-- A function makes a value of a type of its package: it is named `New…`, and its first result
refers by a bare name to a type that the package declares and that is no type parameter. -/
structure Makes (p : Package) (d : FuncDecl) : Prop where
  name : Text.hasStart d.name.text "New" = true
  result : ∃ r rs type, d.sig.results = r :: rs ∧ r.type.localName? = some type ∧
    p.DeclaresType type ∧ type ∉ paramNames d.sig.typeParams

/-- A function passes for one that makes a value of a type of its package: it is named `New…`, and
its first result is a type of another package, or a type parameter, of such a name. -/
structure Passes (p : Package) (d : FuncDecl) : Prop where
  name : Text.hasStart d.name.text "New" = true
  result : ∃ r rs, d.sig.results = r :: rs ∧ p.DeclaresType r.type.baseName ∧
    (r.type.isQualified = true ∨ r.type.baseName ∈ paramNames d.sig.typeParams)

/-- **The functions that are taken for constructors** are those that make a value of a type of the
package, and those that pass for such functions. -/
theorem constructs_iff : p.Constructs d ↔ p.Makes d ∨ p.Passes d := by
  constructor
  · rintro ⟨hname, r, rs, hresults, htype⟩
    have hdeclares : p.DeclaresType r.type.baseName := htype
    by_cases hparam : r.type.baseName ∈ paramNames d.sig.typeParams
    · exact .inr ⟨hname, r, rs, hresults, hdeclares, .inr hparam⟩
    · rcases Expr.localName?_or_isQualified hdeclares.ne_empty with hlocal | hqualified
      · exact .inl ⟨hname, r, rs, _, hresults, hlocal, hdeclares, hparam⟩
      · exact .inr ⟨hname, r, rs, hresults, hdeclares, .inl hqualified⟩
  · rintro (⟨hname, r, rs, type, hresults, hlocal, hdeclares, -⟩ |
      ⟨hname, r, rs, hresults, hdeclares, -⟩)
    · rw [← Expr.baseName_of_localName? hlocal] at hdeclares
      exact ⟨hname, r, rs, hresults, hdeclares⟩
    · exact ⟨hname, r, rs, hresults, hdeclares⟩

/-- No function is of both kinds. -/
theorem Makes.not_passes (h : p.Makes d) : ¬ p.Passes d := by
  rintro ⟨-, r, rs, hresults, -, hpasses⟩
  obtain ⟨r', rs', type, hresults', hlocal, -, hparam⟩ := h.result
  obtain ⟨rfl, rfl⟩ := List.cons.inj (hresults.symm.trans hresults')
  rcases hpasses with hqualified | hparam'
  · rw [Expr.localName?_of_isQualified hqualified] at hlocal
    cases hlocal
  · rw [Expr.baseName_of_localName? hlocal] at hparam'
    exact hparam hparam'

/-! ## 2. The elements of functions -/

/-- The element of a function. -/
def functionElement (p : Package) (f : File) (d : FuncDecl) : Element :=
  let name := d.name.text
  let makes := p.isConstructor d
  { p.element f (if makes then .constructor else .function) name name d.name.pos
      (p.visibilityOf name) with
    memberKinds := if makes then [.constructor, .function] else [.function]
    signature := funcSignature name d.sig
    annotations := annotations d.doc f.generated }

theorem mem_functionCandidate_every_iff :
    c ∈ p.functionCandidate .every f d ↔
      p.Callable d.name.text ∧ c = ⟨p.functionElement f d, d.doc⟩ := by
  unfold functionCandidate
  simp only [List.mem_ite_nil_left, List.mem_singleton, Config.MemberKinds.every, ite_self,
    Bool.not_true, Bool.or_false, Bool.not_eq_true, isUncallable_eq_false_iff]
  rfl

theorem kind_functionElement :
    (p.functionElement f d).kind = .constructor ↔ p.Makes d ∨ p.Passes d := by
  rw [← constructs_iff, ← isConstructor_iff]
  show (if p.isConstructor d then Kind.constructor else Kind.function) = .constructor ↔ _
  cases p.isConstructor d <;> decide

/-- The kinds under which functions are listed. -/
def functionKinds : List Kind := [.constructor, .function]

theorem functionKinds_disjoint : ∀ k ∈ functionKinds, k ∉ memberKinds ∧ k ≠ .type := by
  decide

theorem exists_func_of_mem_declCandidates {decl : Decl} (h : c ∈ p.declCandidates .every f decl)
    (hkind : c.element.kind ∈ functionKinds) :
    ∃ d, decl = .func d ∧ d.receiver = none ∧ p.Callable d.name.text ∧
      c.element = p.functionElement f d := by
  cases decl with
  | func d =>
    obtain ⟨hreceiver, hc⟩ := List.mem_ite_nil_right.mp h
    obtain ⟨hcallable, rfl⟩ := mem_functionCandidate_every_iff.mp hc
    exact ⟨d, rfl, Option.isNone_iff_eq_none.mp hreceiver, hcallable, rfl⟩
  | values kind doc specs =>
    obtain ⟨v, -, hv⟩ := List.mem_flatMap.mp (List.mem_ite_nil_right.mp h).2
    obtain ⟨n, -, rfl⟩ := List.mem_map.mp hv
    have hvalue : valueKind kind ∉ functionKinds := by
      cases kind <;> decide
    cases kind <;> exact absurd hkind hvalue
  | _ => cases h

/-- **An element that is listed as a function is that of a function.** -/
theorem exists_func_of_mem {e : Element} (h : e ∈ (Inventory.ofPackage p s).elements)
    (hkind : e.kind ∈ functionKinds) :
    ∃ f ∈ p.files, ∃ d, .func d ∈ f.decls ∧ d.receiver = none ∧ p.Callable d.name.text ∧
      e = p.functionElement f d := by
  obtain ⟨hmember, htype⟩ := functionKinds_disjoint _ hkind
  obtain ⟨c, hc, rfl⟩ := Inventory.exists_candidate_of_mem h
  rcases mem_candidates_iff_admits.mp hc with ⟨t, -, -, rfl | ⟨hc, -⟩⟩ | ⟨⟨f, hf, decl, hd, hc⟩, -⟩
  · exact absurd rfl htype
  · exact absurd (memberNamed_of_mem_membersOfType hc).kind hmember
  · obtain ⟨d, rfl, hreceiver, hcallable, helement⟩ := exists_func_of_mem_declCandidates hc hkind
    exact ⟨f, hf, d, hd, hreceiver, hcallable, helement⟩

/-- **A function that a scope admits is listed under its kind.** -/
theorem mem_keys_of_function (hf : f ∈ p.files) (hd : .func d ∈ f.decls)
    (hreceiver : d.receiver = none) (hcallable : p.Callable d.name.text)
    (hadmits : s.AdmitsMember (p.functionElement f d).traits) :
    (p.functionElement f d).key ∈ (Inventory.ofPackage p s).elements.map Element.key := by
  have hc : ⟨p.functionElement f d, d.doc⟩ ∈ p.declCandidates .every f (.func d) := by
    refine List.mem_ite_nil_right.mpr ⟨?_, mem_functionCandidate_every_iff.mpr ⟨hcallable, rfl⟩⟩
    rw [hreceiver]
    rfl
  exact Inventory.mem_keys_ofPackage_iff.mpr
    ⟨_, mem_candidates_iff_admits.mpr (.inr ⟨⟨f, hf, _, hd, hc⟩, hadmits⟩), rfl⟩

/-- **Functions by their kind.**  An element of a function is that of a constructor if the function
makes a value of a type of its package or passes for one that does, which no function does at once;
and every function that the scope admits is listed so. -/
theorem functions_by_kind (p : Package) (s : Scope) :
    (∀ e ∈ (Inventory.ofPackage p s).elements, e.kind ∈ functionKinds →
      ∃ f ∈ p.files, ∃ d, .func d ∈ f.decls ∧ d.receiver = none ∧ p.Callable d.name.text ∧
        e = p.functionElement f d ∧ (e.kind = .constructor ↔ p.Makes d ∨ p.Passes d)) ∧
    (∀ f ∈ p.files, ∀ d, .func d ∈ f.decls → d.receiver = none → p.Callable d.name.text →
      s.AdmitsMember (p.functionElement f d).traits →
      (p.functionElement f d).key ∈ (Inventory.ofPackage p s).elements.map Element.key) ∧
    ∀ d, p.Makes d → ¬ p.Passes d := by
  refine ⟨fun e he hkind => ?_, fun f hf d hd hreceiver hcallable hadmits =>
    mem_keys_of_function hf hd hreceiver hcallable hadmits, fun d => Makes.not_passes⟩
  obtain ⟨f, hf, d, hd, hreceiver, hcallable, rfl⟩ := exists_func_of_mem he hkind
  exact ⟨f, hf, d, hd, hreceiver, hcallable, rfl, kind_functionElement⟩

/-! ## 3. Two packages -/

/-- A generic type with a function that makes a value of it. -/
def makerPackage : Package where
  importPath := "example.com/p"
  files := (File.parse? "a.go" ("package p\n\ntype T[K any] struct{}\n\n" ++
    "func NewT[K any]() (*(T[K]), error)\n")).toList

/-- The maker of a generic type is listed as a constructor, and makes a value of it. -/
theorem functions_by_kind_maker :
    ∃ e ∈ (Inventory.ofPackage makerPackage (wholeScope false)).elements,
      e.key = ⟨.constructor, "example.com/p.NewT"⟩ ∧
      ∃ f ∈ makerPackage.files, ∃ d, .func d ∈ f.decls ∧ makerPackage.Makes d := by
  obtain ⟨⟨e, he, hkey⟩, hlocal⟩ :
      (∃ e ∈ (Inventory.ofPackage makerPackage (wholeScope false)).elements,
        e.key = ⟨.constructor, "example.com/p.NewT"⟩) ∧
      ∀ f ∈ makerPackage.files, ∀ decl ∈ f.decls, ∀ d ∈ decl.func?, ∀ r ∈ d.sig.results.head?,
        r.type.isQualified = false ∧ r.type.baseName ∉ paramNames d.sig.typeParams := by
    decide +kernel
  have hkind : e.kind = .constructor := congrArg ElementKey.kind hkey
  have hfunction : e.kind ∈ functionKinds := by
    rw [hkind]
    decide
  obtain ⟨f, hf, d, hd, -, -, -, hmakes⟩ :=
    (functions_by_kind makerPackage (wholeScope false)).1 e he hfunction
  refine ⟨e, he, hkey, f, hf, d, hd, (hmakes.mp hkind).resolve_right ?_⟩
  rintro ⟨-, r, rs, hresults, -, hpasses⟩
  obtain ⟨hqualified, hparam⟩ := hlocal f hf _ hd d rfl r (by simp [hresults])
  rcases hpasses with hpasses | hpasses
  · rw [hqualified] at hpasses
    cases hpasses
  · exact hparam hpasses

/-- A function that returns a type of another package, and one that returns its type parameter; the
package has a type of this name. -/
def passingPackage : Package where
  importPath := "example.com/p"
  files := (File.parse? "a.go" ("package p\n\nimport \"example.com/other\"\n\n" ++
    "type T struct{}\n\nfunc NewT() other.T\n\nfunc NewU[T any]() T\n")).toList

/-- Functions that make no value of the package are listed as constructors. -/
theorem constructors_make_nothing :
    passingPackage.Parsed ∧
    ⟨.constructor, "example.com/p.NewT"⟩ ∈
      (Inventory.ofPackage passingPackage (wholeScope false)).elements.map Element.key ∧
    ⟨.constructor, "example.com/p.NewU"⟩ ∈
      (Inventory.ofPackage passingPackage (wholeScope false)).elements.map Element.key ∧
    ∀ f ∈ passingPackage.files, ∀ d, .func d ∈ f.decls → ¬ passingPackage.Makes d := by
  obtain ⟨hkey, hkey', hparams⟩ :
      ⟨.constructor, "example.com/p.NewT"⟩ ∈
        (Inventory.ofPackage passingPackage (wholeScope false)).elements.map Element.key ∧
      ⟨.constructor, "example.com/p.NewU"⟩ ∈
        (Inventory.ofPackage passingPackage (wholeScope false)).elements.map Element.key ∧
      ∀ f ∈ passingPackage.files, ∀ decl ∈ f.decls, ∀ d ∈ decl.func?, ∀ r ∈ d.sig.results,
        ∀ type ∈ r.type.localName?, type ∈ paramNames d.sig.typeParams := by
    decide +kernel
  refine ⟨parsed_of_text _ _ _, hkey, hkey', ?_⟩
  rintro f hf d hd ⟨-, r, rs, type, hresults, hlocal, -, hparam⟩
  have hr : r ∈ d.sig.results := hresults ▸ List.mem_cons_self
  exact hparam (hparams f hf _ hd d rfl r hr type hlocal)

end Package

end DocAudit.Source
