import DocAudit.Inventory.OfPackage
import DocAudit.Proofs.Inventory.Merge

/-!
# The keys of a package's elements

Every element of a package is named below the import path: by one name, or, if it belongs to a type,
by the name of the type and its own.  Names have no dots, so a key tells the import path.

* `mem_candidates_iff` and `mem_membersOfType_iff` say where the candidates of a package come from;
* `named_of_mem_candidates`: what they are called;
* `importPath_of_key_eq`: packages with different import paths have no key in common;
* `name_eq_of_mem`: packages with one import path and different names have no element in common.
-/

namespace DocAudit.Source

/-! ## 1. Names -/

theorem isNamePart_of_isNameStart {c : Char} (h : isNameStart c = true) : isNamePart c = true := by
  simp [isNamePart, h]

theorem not_isNamePart_dot : isNamePart '.' = false := by
  decide +kernel

theorem Ident.dot_notMem (n : Ident) : '.' ∉ n.text.toList := by
  intro hdot
  have hvalid := n.valid
  cases hcs : n.text.toList with
  | nil => simp [hcs] at hdot
  | cons c cs =>
    rw [hcs, isIdentText, Bool.and_eq_true, List.all_eq_true] at hvalid
    rw [hcs] at hdot
    have hpart : isNamePart '.' = true := by
      rcases List.mem_cons.mp hdot with rfl | hdot
      · exact isNamePart_of_isNameStart hvalid.1
      · exact hvalid.2 _ hdot
    rw [not_isNamePart_dot] at hpart
    cases hpart

theorem Expr.dot_notMem_baseName (x : Expr) : '.' ∉ x.baseName.toList := by
  fun_induction Expr.baseName x with
  | case1 n => exact n.dot_notMem
  | case2 _ ih => exact ih
  | case3 _ _ ih => exact ih
  | case4 _ ih => exact ih
  | case5 _ n => exact n.dot_notMem
  | case6 => simp

/-- A text is cut in one way at its last dot. -/
theorem eq_of_last_dot {a a' b b' : String} (hb : '.' ∉ b.toList) (hb' : '.' ∉ b'.toList)
    (h : a ++ "." ++ b = a' ++ "." ++ b') : a = a' ∧ b = b' := by
  have hl : a.toList ++ '.' :: b.toList = a'.toList ++ '.' :: b'.toList := by
    simpa using congrArg String.toList h
  rcases List.append_eq_append_iff.mp hl with ⟨cs, ha, hcs⟩ | ⟨cs, ha, hcs⟩
  · cases cs with
    | nil =>
      simp only [List.append_nil] at ha
      simp only [List.nil_append, List.cons.injEq, true_and] at hcs
      exact ⟨(String.toList_inj.mp ha).symm, String.toList_inj.mp hcs⟩
    | cons c cs =>
      simp only [List.cons_append, List.cons.injEq] at hcs
      exact absurd (hcs.2 ▸ List.mem_append_right _ List.mem_cons_self) hb
  · cases cs with
    | nil =>
      simp only [List.append_nil] at ha
      simp only [List.nil_append, List.cons.injEq, true_and] at hcs
      exact ⟨String.toList_inj.mp ha, (String.toList_inj.mp hcs).symm⟩
    | cons c cs =>
      simp only [List.cons_append, List.cons.injEq] at hcs
      exact absurd (hcs.2 ▸ List.mem_append_right _ List.mem_cons_self) hb'

/-- A text that ends in two names is cut in one way before them. -/
theorem eq_of_two_dots {a a' b b' c c' : String} (hb : '.' ∉ b.toList) (hb' : '.' ∉ b'.toList)
    (hc : '.' ∉ c.toList) (hc' : '.' ∉ c'.toList)
    (h : a ++ "." ++ (b ++ "." ++ c) = a' ++ "." ++ (b' ++ "." ++ c')) :
    a = a' ∧ b = b' ∧ c = c' := by
  rw [← String.append_assoc, ← String.append_assoc, ← String.append_assoc,
    ← String.append_assoc] at h
  obtain ⟨hab, rfl⟩ := eq_of_last_dot hc hc' h
  obtain ⟨rfl, rfl⟩ := eq_of_last_dot hb hb' hab
  exact ⟨rfl, rfl, rfl⟩

namespace Package

open Policy

variable {p q : Package} {s : Scope} {c : Candidate}

/-! ## 2. Where candidates come from -/

theorem mem_membersOfType_iff {t : TypeDecl} :
    c ∈ p.membersOfType s t ↔
      (∃ fs, t.spec.type = .struct fs ∧ ∃ f ∈ fs, c ∈ p.fieldCandidates s.memberKinds t f) ∨
      (∃ es, t.spec.type = .interface es ∧
        ∃ f ∈ es, c ∈ p.interfaceCandidates s.memberKinds t f) ∨
      (∃ m ∈ p.methodsOf t.name, c ∈ p.declaredMethod s.memberKinds t m) ∨
      (s.inherited = true ∧ ∃ m ∈ p.promotedMethods t, c ∈ p.declaredMethod s.memberKinds t m) := by
  unfold membersOfType
  cases t.spec.type <;> simp

/-- **The candidates of a package**: its types in scope with their members in scope, and the
functions, constants and variables in scope. -/
theorem mem_candidates_iff :
    c ∈ p.candidates s ↔
      (∃ t ∈ p.types, p.typeInScope s t = true ∧
        (c = p.typeCandidate t ∨ (c ∈ p.membersOfType s t ∧ memberInScope s c = true))) ∨
      (∃ f ∈ p.files, ∃ d ∈ f.decls, c ∈ p.declCandidates s.memberKinds f d) ∧
        memberInScope s c = true := by
  unfold candidates typeWithMembers
  simp only [List.mem_append, List.mem_flatMap, List.mem_filter]
  refine or_congr (exists_congr fun t => and_congr_right fun _ => ?_) Iff.rfl
  cases p.typeInScope s t <;> simp

/-! ## 3. What they are called -/

/-- The kinds of elements that belong to the package itself. -/
def topKinds : List Kind := [.type, .constructor, .function, .constant, .var]

/-- The kinds of elements that belong to a type. -/
def memberKinds : List Kind := [.field, .method, .recordComponent]

theorem notMem_memberKinds : ∀ k ∈ topKinds, k ∉ memberKinds := by
  decide

/-- An element that is named below the import path by one name. -/
structure TopNamed (p : Package) (e : Element) : Prop where
  package : e.package = p.importPath
  kind : e.kind ∈ topKinds
  qualifiedName : e.qualifiedName = p.importPath ++ "." ++ e.name
  dot_notMem : '.' ∉ e.name.toList

/-- An element that is named below the import path by a type and its own name. -/
structure MemberNamed (p : Package) (t : TypeDecl) (e : Element) : Prop where
  package : e.package = p.importPath
  kind : e.kind ∈ memberKinds
  qualifiedName : e.qualifiedName = p.importPath ++ "." ++ (t.name ++ "." ++ e.name)
  dot_notMem : '.' ∉ e.name.toList

theorem topNamed_typeCandidate (t : TypeDecl) : p.TopNamed (p.typeCandidate t).element :=
  ⟨rfl, by simp [topKinds, typeCandidate, element], rfl, t.spec.name.dot_notMem⟩

theorem memberNamed_of_mem_fieldCandidates {kinds : Config.MemberKinds} {t : TypeDecl} {f : Field}
    (h : c ∈ p.fieldCandidates kinds t f) : p.MemberNamed t c.element := by
  unfold fieldCandidates at h
  dsimp only at h
  split at h
  · split at h
    · rw [List.mem_singleton.mp h]
      exact ⟨rfl, by simp [memberKinds, element], rfl, f.type.dot_notMem_baseName⟩
    · cases h
  · split at h
    · obtain ⟨n, -, rfl⟩ := List.mem_map.mp h
      exact ⟨rfl, by simp [memberKinds, element], rfl, n.dot_notMem⟩
    · cases h

theorem memberNamed_of_mem_methodCandidate {kinds : Config.MemberKinds} {t : TypeDecl} {f : File}
    {n : Name} {sig : Signature} {fields : List String} {doc : Option CommentGroup}
    {generated : Bool} (h : c ∈ p.methodCandidate kinds t f n sig fields doc generated) :
    p.MemberNamed t c.element := by
  unfold methodCandidate at h
  dsimp only at h
  split at h
  · rw [List.mem_singleton.mp h]
    exact ⟨rfl, by simp [memberKinds, element], rfl, n.dot_notMem⟩
  · cases h

theorem memberNamed_of_mem_interfaceCandidates {kinds : Config.MemberKinds} {t : TypeDecl}
    {f : Field} (h : c ∈ p.interfaceCandidates kinds t f) : p.MemberNamed t c.element := by
  unfold interfaceCandidates at h
  split at h
  · obtain ⟨n, -, hn⟩ := List.mem_flatMap.mp h
    exact memberNamed_of_mem_methodCandidate hn
  · cases h

theorem memberNamed_of_mem_membersOfType {t : TypeDecl} (h : c ∈ p.membersOfType s t) :
    p.MemberNamed t c.element := by
  rcases mem_membersOfType_iff.mp h with ⟨_, _, f, _, hf⟩ | ⟨_, _, f, _, hf⟩ | ⟨m, _, hm⟩ |
    ⟨_, m, _, hm⟩
  · exact memberNamed_of_mem_fieldCandidates hf
  · exact memberNamed_of_mem_interfaceCandidates hf
  · exact memberNamed_of_mem_methodCandidate hm
  · exact memberNamed_of_mem_methodCandidate hm

theorem topNamed_of_mem_functionCandidate {kinds : Config.MemberKinds} {f : File} {d : FuncDecl}
    (h : c ∈ p.functionCandidate kinds f d) : p.TopNamed c.element := by
  unfold functionCandidate at h
  rw [List.mem_singleton.mp (List.mem_ite_nil_left.mp h).2]
  refine ⟨rfl, ?_, rfl, d.name.dot_notMem⟩
  cases p.isConstructor d <;> simp [topKinds, element]

theorem topNamed_of_mem_valueCandidates {f : File} {kind : ValueKind} {doc : Option CommentGroup}
    {v : ValueSpec} (h : c ∈ p.valueCandidates f kind doc v) : p.TopNamed c.element := by
  obtain ⟨n, -, rfl⟩ := List.mem_map.mp h
  refine ⟨rfl, ?_, rfl, n.dot_notMem⟩
  cases kind <;> simp [topKinds, element]

theorem topNamed_of_mem_declCandidates {kinds : Config.MemberKinds} {f : File} {d : Decl}
    (h : c ∈ p.declCandidates kinds f d) : p.TopNamed c.element := by
  unfold declCandidates at h
  split at h
  · split at h
    · exact topNamed_of_mem_functionCandidate h
    · cases h
  · obtain ⟨v, -, hv⟩ := List.mem_flatMap.mp (List.mem_ite_nil_right.mp h).2
    exact topNamed_of_mem_valueCandidates hv
  · cases h

/-- **Every candidate is named below the import path**, by its name or by a type and its name. -/
theorem named_of_mem_candidates (h : c ∈ p.candidates s) :
    p.TopNamed c.element ∨ ∃ t ∈ p.types, p.MemberNamed t c.element := by
  rcases mem_candidates_iff.mp h with ⟨t, ht, -, rfl | ⟨hc, -⟩⟩ | ⟨⟨f, -, d, -, hc⟩, -⟩
  · exact .inl (topNamed_typeCandidate t)
  · exact .inr ⟨t, ht, memberNamed_of_mem_membersOfType hc⟩
  · exact .inl (topNamed_of_mem_declCandidates hc)

theorem package_of_mem_candidates (h : c ∈ p.candidates s) :
    c.element.package = p.importPath := by
  rcases named_of_mem_candidates h with hc | ⟨_, _, hc⟩
  · exact hc.package
  · exact hc.package

/-- **A key tells the import path.** -/
theorem importPath_of_key_eq {d : Candidate} {s' : Scope} (hc : c ∈ p.candidates s)
    (hd : d ∈ q.candidates s') (h : c.element.key = d.element.key) :
    p.importPath = q.importPath := by
  have hkind : c.element.kind = d.element.kind := congrArg ElementKey.kind h
  have hname : c.element.qualifiedName = d.element.qualifiedName :=
    congrArg ElementKey.qualifiedName h
  rcases named_of_mem_candidates hc with hc | ⟨t, -, hc⟩ <;>
    rcases named_of_mem_candidates hd with hd | ⟨u, -, hd⟩
  · rw [hc.qualifiedName, hd.qualifiedName] at hname
    exact (eq_of_last_dot hc.dot_notMem hd.dot_notMem hname).1
  · exact absurd hd.kind (hkind ▸ notMem_memberKinds _ hc.kind)
  · exact absurd hc.kind (hkind ▸ notMem_memberKinds _ hd.kind)
  · rw [hc.qualifiedName, hd.qualifiedName] at hname
    exact (eq_of_two_dots t.spec.name.dot_notMem u.spec.name.dot_notMem hc.dot_notMem
      hd.dot_notMem hname).1

/-! ## 4. The name of the package -/

/-- **Named below the package**: the two names of an element differ only in what stands before its
name below the package. -/
def NamedBelow (p : Package) (e : Element) : Prop :=
  ∃ below, e.qualifiedName = p.importPath ++ "." ++ below ∧ e.displayName = p.name ++ "." ++ below

theorem namedBelow_of_mem_fieldCandidates {t : TypeDecl} {f : Field}
    (h : c ∈ p.fieldCandidates kinds t f) : p.NamedBelow c.element := by
  unfold fieldCandidates at h
  dsimp only at h
  split at h
  · obtain rfl := List.mem_singleton.mp (List.mem_ite_nil_right.mp h).2
    exact ⟨_, rfl, rfl⟩
  · obtain ⟨n, -, rfl⟩ := List.mem_map.mp (List.mem_ite_nil_right.mp h).2
    exact ⟨_, rfl, rfl⟩

theorem namedBelow_of_mem_methodCandidate {t : TypeDecl} {f : File} {n : Name} {sig : Signature}
    {fields : List String} {doc : Option CommentGroup} {generated : Bool}
    (h : c ∈ p.methodCandidate kinds t f n sig fields doc generated) : p.NamedBelow c.element := by
  obtain rfl := List.mem_singleton.mp (List.mem_ite_nil_right.mp h).2
  exact ⟨_, rfl, rfl⟩

theorem namedBelow_of_mem_membersOfType {t : TypeDecl} (h : c ∈ p.membersOfType s t) :
    p.NamedBelow c.element := by
  rcases mem_membersOfType_iff.mp h with ⟨_, _, f, _, hf⟩ | ⟨_, _, f, _, hf⟩ | ⟨m, _, hm⟩ |
    ⟨_, m, _, hm⟩
  · exact namedBelow_of_mem_fieldCandidates hf
  · unfold interfaceCandidates at hf
    split at hf
    · obtain ⟨n, -, hn⟩ := List.mem_flatMap.mp hf
      exact namedBelow_of_mem_methodCandidate hn
    · cases hf
  · exact namedBelow_of_mem_methodCandidate hm
  · exact namedBelow_of_mem_methodCandidate hm

theorem namedBelow_of_mem_declCandidates {f : File} {d : Decl}
    (h : c ∈ p.declCandidates kinds f d) : p.NamedBelow c.element := by
  unfold declCandidates at h
  split at h
  · split at h
    · unfold functionCandidate at h
      obtain rfl := List.mem_singleton.mp (List.mem_ite_nil_left.mp h).2
      exact ⟨_, rfl, rfl⟩
    · cases h
  · obtain ⟨v, -, hv⟩ := List.mem_flatMap.mp (List.mem_ite_nil_right.mp h).2
    obtain ⟨n, -, rfl⟩ := List.mem_map.mp hv
    exact ⟨_, rfl, rfl⟩
  · cases h

theorem namedBelow_of_mem_candidates (h : c ∈ p.candidates s) : p.NamedBelow c.element := by
  rcases mem_candidates_iff.mp h with ⟨t, -, -, rfl | ⟨hc, -⟩⟩ | ⟨⟨f, -, d, -, hc⟩, -⟩
  · exact ⟨_, rfl, rfl⟩
  · exact namedBelow_of_mem_membersOfType hc
  · exact namedBelow_of_mem_declCandidates hc

end Package

end DocAudit.Source

namespace DocAudit.Inventory

open Source Policy

/-! ## 5. The inventory of a package -/

variable {p q : Package} {s : Scope} {e : Element}

theorem ofPackage_eq_addAll (p : Package) (s : Scope) :
    ofPackage p s =
      empty.addAll ((p.candidates s).map fun c => (c.element, c.doc.map CommentGroup.text)) := by
  simp [ofPackage, addAll, List.foldl_map]

theorem distinct_ofPackage (p : Package) (s : Scope) : (ofPackage p s).Distinct := by
  rw [ofPackage_eq_addAll]
  exact distinct_empty.addAll

theorem exists_candidate_of_mem (h : e ∈ (ofPackage p s).elements) :
    ∃ c ∈ p.candidates s, c.element = e := by
  rw [ofPackage_eq_addAll] at h
  rcases mem_of_mem_addAll h with h | h
  · cases h
  · rw [List.map_map] at h
    exact List.mem_map.mp h

theorem package_of_mem_ofPackage (h : e ∈ (ofPackage p s).elements) :
    e.package = p.importPath := by
  obtain ⟨c, hc, rfl⟩ := exists_candidate_of_mem h
  exact Package.package_of_mem_candidates hc

/-- **Packages with different import paths have no key in common.** -/
theorem disjoint_keys (h : p.importPath ≠ q.importPath) :
    List.Disjoint ((ofPackage p s).elements.map Element.key)
      ((ofPackage q s).elements.map Element.key) := by
  intro k hp hq
  obtain ⟨e, he, rfl⟩ := List.mem_map.mp hp
  obtain ⟨e', he', hkey⟩ := List.mem_map.mp hq
  obtain ⟨c, hc, rfl⟩ := exists_candidate_of_mem he
  obtain ⟨d, hd, rfl⟩ := exists_candidate_of_mem he'
  exact h (Package.importPath_of_key_eq hc hd hkey.symm)

/-- **Packages with one import path and different names have no element in common**: an element is
shown under the name of its package. -/
theorem name_eq_of_mem (hpath : p.importPath = q.importPath) {s' : Scope}
    (hp : e ∈ (ofPackage p s).elements) (hq : e ∈ (ofPackage q s').elements) : p.name = q.name := by
  obtain ⟨c, hc, rfl⟩ := exists_candidate_of_mem hp
  obtain ⟨c', hc', heq⟩ := exists_candidate_of_mem hq
  obtain ⟨below, hqualified, hdisplay⟩ := Package.namedBelow_of_mem_candidates hc
  obtain ⟨below', hqualified', hdisplay'⟩ := Package.namedBelow_of_mem_candidates hc'
  rw [heq, hqualified, hpath] at hqualified'
  rw [heq, hdisplay] at hdisplay'
  obtain rfl : below = below' :=
    String.toList_inj.mp (by simpa using congrArg String.toList hqualified')
  exact String.toList_inj.mp (by simpa using congrArg String.toList hdisplay')

end DocAudit.Inventory
