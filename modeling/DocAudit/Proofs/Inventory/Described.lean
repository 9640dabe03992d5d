import DocAudit.Proofs.Inventory.Promoted
import DocAudit.Proofs.Source.Accessor

/-!
# One method, listed for several types

A method is listed for the type that it is declared for and for the structs that embed this type.
All these elements describe the one declaration; but what kind of accessor the method is, is read
off the fields of the type for which it is listed.

* `Element.SameButOwner`: two elements agree in what does not depend on the type;
* `method_elements_agree`: in what the elements of one method agree, and when they are the same
  accessor.
-/

namespace DocAudit

open Source Policy

/-! ## 1. The elements of one method -/

/-- Two elements agree in everything but what they take from the types they are listed for: what
stands before their name, their visibility and their accessor kinds. -/
structure Element.SameButOwner (e e' : Element) : Prop where
  kind : e.kind = e'.kind
  name : e.name = e'.name
  sourceFile : e.sourceFile = e'.sourceFile
  line : e.line = e'.line
  memberKinds : e.memberKinds = e'.memberKinds
  package : e.package = e'.package
  signature : e.signature = e'.signature
  annotations : e.annotations = e'.annotations

namespace Source.Package

variable {p : Package} {s : Scope} {t u : TypeDecl} {m : MethodDecl}

theorem sameButOwner_methodElement :
    (p.methodElement t m).SameButOwner (p.methodElement u m) :=
  ⟨rfl, rfl, rfl, rfl, rfl, rfl, rfl, rfl⟩

/-- **The elements of one method**, for any two types that it is listed for, have one text and agree
in everything that does not depend on the type; each is as visible as the method and the type allow.
They are the same accessor, which is to say both getters or none, unless only a field makes the
method a getter and only one of the types has it.  Every method that is listed for a type that is no
interface is such an element. -/
theorem method_elements_agree (p : Package) (s : Scope) :
    (∀ t ∈ p.types, (∀ es, t.spec.type ≠ .interface es) →
      ∀ e ∈ (Inventory.ofPackage p s).elements, p.MethodOf t e →
        ∃ m, p.HasMethod s t m ∧ p.ListsMethod s t m ∧ e = p.methodElement t m) ∧
    ∀ t u m, p.ListsMethod s t m → p.ListsMethod s u m →
      let e := p.methodElement t m
      let e' := p.methodElement u m
      e ∈ (Inventory.ofPackage p s).elements ∧ e' ∈ (Inventory.ofPackage p s).elements ∧
      e.SameButOwner e' ∧
      (Inventory.ofPackage p s).doc? e = (Inventory.ofPackage p s).doc? e' ∧
      e.visibility = (p.visibilityOf m.name).min (p.visibilityOf t.name) ∧
      (e.accessorKinds = e'.accessorKinds ↔ (GetterByField m.name m.decl.sig →
        (Text.lowerText m.name ∈ fieldNames t ↔ Text.lowerText m.name ∈ fieldNames u))) ∧
      ((AccessorKind.getter ∈ e.accessorKinds ↔ AccessorKind.getter ∈ e'.accessorKinds) ↔
        e.accessorKinds = e'.accessorKinds) := by
  constructor
  · exact fun t ht hform e he howner => exists_listsMethod ht hform he howner
  · intro t u m ht hu
    exact ⟨ht.mem, hu.mem, sameButOwner_methodElement, ht.doc?.trans hu.doc?.symm, rfl,
      accessorKinds_eq_iff, getter_mem_iff_iff⟩

/-! ## 2. Two packages -/

theorem HasMethod.mem_methods (h : p.HasMethod s t m) : m ∈ p.methods := by
  rcases h with hm | ⟨-, hm⟩
  · exact (List.mem_filter.mp hm).1
  · exact (List.mem_filter.mp (supplies_of_mem_promotedMethods hm).method).1

theorem HasMethod.eq_of_length_methods {m' : MethodDecl} (hone : p.methods.length = 1)
    (hm : p.HasMethod s t m) (hm' : p.HasMethod s u m') : m' = m := by
  obtain ⟨x, hx⟩ := List.length_eq_one_iff.mp hone
  have hmem := hm.mem_methods
  have hmem' := hm'.mem_methods
  rw [hx, List.mem_singleton] at hmem hmem'
  rw [hmem, hmem']

/-- A struct with a getter, embedded in one that has a field of the same name. -/
def getterPackage : Package where
  importPath := "example.com/p"
  files := (File.parse? "a.go" ("package p\n\ntype E struct{ name string }\n\n" ++
    "// Name names.\nfunc (e E) Name() string\n\n" ++
    "type T struct{ E; name string }\n")).toList

/-- The method is listed for both structs as the same getter, with the same text. -/
theorem method_elements_agree_getter :
    ∃ e ∈ (Inventory.ofPackage getterPackage (wholeScope true)).elements,
    ∃ e' ∈ (Inventory.ofPackage getterPackage (wholeScope true)).elements,
      e.key = ⟨.method, "example.com/p.E.Name"⟩ ∧ e'.key = ⟨.method, "example.com/p.T.Name"⟩ ∧
      e'.SameButOwner e ∧ e'.accessorKinds = e.accessorKinds ∧
      (Inventory.ofPackage getterPackage (wholeScope true)).doc? e' =
        (Inventory.ofPackage getterPackage (wholeScope true)).doc? e := by
  obtain ⟨hone, ⟨u, hu, ⟨f, hf⟩, hufield, e, he, howner, hkey⟩, t, ht, ⟨g, hg⟩, htfield, e', he',
      howner', hkey', hname⟩ :
      getterPackage.methods.length = 1 ∧
      (∃ u ∈ getterPackage.types, (∃ f ∈ structFields u, True) ∧
        Text.lowerText "Name" ∈ fieldNames u ∧
        ∃ e ∈ (Inventory.ofPackage getterPackage (wholeScope true)).elements,
          getterPackage.MethodOf u e ∧ e.key = ⟨.method, "example.com/p.E.Name"⟩) ∧
      ∃ t ∈ getterPackage.types, (∃ f ∈ structFields t, True) ∧
        Text.lowerText "Name" ∈ fieldNames t ∧
        ∃ e ∈ (Inventory.ofPackage getterPackage (wholeScope true)).elements,
          getterPackage.MethodOf t e ∧ e.key = ⟨.method, "example.com/p.T.Name"⟩ ∧
          e.name = "Name" := by
    decide +kernel
  have hlisted := (method_elements_agree getterPackage (wholeScope true)).1
  obtain ⟨m, hm, hlists, rfl⟩ := hlisted u hu (not_interface_of_mem_structFields hf.1) e he howner
  obtain ⟨m', hm', hlists', rfl⟩ :=
    hlisted t ht (not_interface_of_mem_structFields hg.1) e' he' howner'
  obtain rfl := hm.eq_of_length_methods hone hm'
  obtain ⟨-, -, hsame, hdoc, -, haccessor, -⟩ :=
    (method_elements_agree getterPackage (wholeScope true)).2 t u m' hlists' hlists
  refine ⟨_, he, _, he', hkey, hkey', hsame, haccessor.mpr fun _ => ?_, hdoc⟩
  rw [show m'.name = "Name" from hname]
  exact iff_of_true htfield hufield

/-- A struct with a getter, embedded in one that has no field of this name. -/
def readerPackage : Package where
  importPath := "example.com/p"
  files := (File.parse? "a.go" ("package p\n\ntype E struct{ name string }\n\n" ++
    "// Name names.\nfunc (e E) Name() string\n\ntype T struct{ E }\n")).toList

/-- One method is listed as a getter for the type that declares it, and as none for a struct that
has it from this type. -/
theorem getter_for_one_type :
    readerPackage.Parsed ∧ ∃ u t m,
      readerPackage.HasMethod (wholeScope true) u m ∧ readerPackage.Promotes t m ∧
      readerPackage.ListsMethod (wholeScope true) u m ∧
      readerPackage.ListsMethod (wholeScope true) t m ∧
      (readerPackage.methodElement u m).accessorKinds = [.getter] ∧
      (readerPackage.methodElement t m).accessorKinds = [] := by
  obtain ⟨hone, ⟨u, hu, ⟨f, hf⟩, e, he, howner, hget⟩, ⟨t, ht, htname, ⟨g, hg⟩, hparams, hfields,
      e', he', howner', hnone⟩, hmethods⟩ :
      readerPackage.methods.length = 1 ∧
      (∃ u ∈ readerPackage.types, (∃ f ∈ structFields u, True) ∧
        ∃ e ∈ (Inventory.ofPackage readerPackage (wholeScope true)).elements,
          readerPackage.MethodOf u e ∧ e.accessorKinds = [.getter]) ∧
      (∃ t ∈ readerPackage.types, t.name = "T" ∧ (∃ f ∈ structFields t, True) ∧
        paramNames t.spec.typeParams = [] ∧
        (∀ f ∈ structFields t, f.names = [] ∧ f.type.localName? = some "E") ∧
        ∃ e ∈ (Inventory.ofPackage readerPackage (wholeScope true)).elements,
          readerPackage.MethodOf t e ∧ e.accessorKinds = []) ∧
      ∀ m ∈ readerPackage.methods, m.receiver = "E" ∧ m.name = "Name" ∧
        ∀ rs ∈ m.decl.receiver, ∀ r ∈ rs, r.type.isQualified = false := by
    decide +kernel
  obtain ⟨m, hm, hlists, rfl⟩ :=
    exists_listsMethod hu (not_interface_of_mem_structFields hf.1) he howner
  obtain ⟨m', hm', hlists', rfl⟩ :=
    exists_listsMethod ht (not_interface_of_mem_structFields hg.1) he' howner'
  obtain rfl := hm.eq_of_length_methods hone hm'
  obtain ⟨hreceiver, hmname, hlocal⟩ := hmethods m' hm'.mem_methods
  have hsupplies : readerPackage.Supplies t m' := by
    rcases hm' with hm' | ⟨-, hm'⟩
    · have htype := (mem_methodsOf_iff.mp hm').1
      rw [hreceiver, htname] at htype
      exact absurd htype (by decide)
    · exact supplies_of_mem_promotedMethods hm'
  refine ⟨parsed_of_text _ _ _, u, t, m', hm, hsupplies.promotes_of_single ?_ hparams ?_ hlocal,
    hlists, hlists', hget, hnone⟩
  · rw [hreceiver]
    exact hfields
  · rw [hreceiver, hmname]
    decide

end Source.Package

end DocAudit
