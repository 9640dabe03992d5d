import DocAudit.Proofs.Inventory.Scope

/-!
# The types that members belong to

An inventory of a package lists each member behind the type it belongs to.

* `Owns` says when a type element is the owner of a member;
* `Ordered` is what every prefix of the listing keeps to; `Ordered.add` and `Ordered.addAll` are its
  steps, `Ordered.addType` takes up a type with its members, and `ordered_ofPackage` is the run;
* `ofPackage_owns_members`: keys, texts, names and owners in the inventory of a package.
-/

namespace DocAudit

open Source Policy

/-- A type element is the owner of a member: the member is named below it, and is at most as
visible. -/
structure Element.Owns (t e : Element) : Prop where
  kind : t.kind = .type
  qualifiedName : e.qualifiedName = t.qualifiedName ++ "." ++ e.name
  visibility : e.visibility.rank ≤ t.visibility.rank

namespace Source.Package

variable {p : Package} {s : Scope} {c : Candidate} {t : TypeDecl} {kinds : Config.MemberKinds}

/-! ## 1. Members and their types -/

theorem memberVisibility_rank_le (p : Package) (t : TypeDecl) (name : String) :
    (p.memberVisibility t name).rank ≤ (p.visibilityOf t.name).rank := by
  unfold memberVisibility Visibility.min
  split <;> omega

theorem visibility_of_mem_fieldCandidates {f : Field} (h : c ∈ p.fieldCandidates kinds t f) :
    c.element.visibility = p.memberVisibility t c.element.name := by
  unfold fieldCandidates at h
  dsimp only at h
  split at h
  · rw [List.mem_singleton.mp (List.mem_ite_nil_right.mp h).2]
    rfl
  · obtain ⟨n, -, rfl⟩ := List.mem_map.mp (List.mem_ite_nil_right.mp h).2
    rfl

theorem visibility_of_mem_methodCandidate {f : File} {n : Name} {sig : Signature}
    {fields : List String} {doc : Option CommentGroup} {generated : Bool}
    (h : c ∈ p.methodCandidate kinds t f n sig fields doc generated) :
    c.element.visibility = p.memberVisibility t c.element.name := by
  rw [List.mem_singleton.mp (List.mem_ite_nil_right.mp h).2]
  rfl

theorem visibility_of_mem_membersOfType (h : c ∈ p.membersOfType s t) :
    c.element.visibility = p.memberVisibility t c.element.name := by
  rcases mem_membersOfType_iff.mp h with ⟨_, _, f, _, hf⟩ | ⟨_, _, f, _, hf⟩ | ⟨m, _, hm⟩ |
    ⟨_, m, _, hm⟩
  · exact visibility_of_mem_fieldCandidates hf
  · unfold interfaceCandidates at hf
    split at hf
    · obtain ⟨n, -, hn⟩ := List.mem_flatMap.mp hf
      exact visibility_of_mem_methodCandidate hn
    · cases hf
  · exact visibility_of_mem_methodCandidate hm
  · exact visibility_of_mem_methodCandidate hm

/-- **A type owns its members.** -/
theorem owns_of_mem_membersOfType (h : c ∈ p.membersOfType s t) :
    (p.typeCandidate t).element.Owns c.element where
  kind := rfl
  qualifiedName := by
    rw [(memberNamed_of_mem_membersOfType h).qualifiedName]
    simp [typeCandidate, element, String.append_assoc]
  visibility := by
    rw [visibility_of_mem_membersOfType h]
    exact memberVisibility_rank_le p t _

/-- Elements of the kind of types are types of the package. -/
theorem exists_type_of_mem_candidates (h : c ∈ p.candidates s) (hkind : c.element.kind = .type) :
    ∃ t ∈ p.types, c = p.typeCandidate t := by
  rcases mem_candidates_iff_admits.mp h with ⟨t, ht, -, rfl | ⟨-, hc⟩⟩ | ⟨-, hc⟩
  · exact ⟨t, ht, rfl⟩
  · exact absurd hkind hc.kind_ne_type
  · exact absurd hkind hc.kind_ne_type

theorem type_notMem_memberKinds : Kind.type ∉ memberKinds := by
  decide

end Source.Package

namespace Inventory

variable {p : Package} {s : Scope} {v : Inventory} {e : Element} {doc : Option String}

/-! ## 2. Listings in order -/

/-- **A listing in order**: its types are types of the package, and each member stands behind a type
that owns it. -/
structure Ordered (p : Package) (v : Inventory) : Prop where
  types : ∀ u ∈ v.elements, u.kind = .type → ∃ t, u = (p.typeCandidate t).element
  members : ∀ e ∈ v.elements, e.kind ∈ Package.memberKinds →
    ∃ u, u.Owns e ∧ [u, e].Sublist v.elements

/-- What an element has to meet to come next in a listing. -/
structure ComesNext (p : Package) (v : Inventory) (e : Element) : Prop where
  type : e.kind = .type → ∃ t, e = (p.typeCandidate t).element
  member : e.kind ∈ Package.memberKinds → ∃ u ∈ v.elements, u.Owns e

theorem ordered_empty (p : Package) : empty.Ordered p :=
  ⟨fun _ h => absurd h List.not_mem_nil, fun _ h => absurd h List.not_mem_nil⟩

theorem elements_subset_add : v.elements ⊆ (v.add e doc).elements := by
  cases h : v.hasKey e.key with
  | true =>
    rw [add_of_hasKey h]
    exact List.Subset.refl _
  | false =>
    rw [elements_add_of_new h]
    exact List.subset_append_left _ _

/-- **An element that comes next keeps a listing in order.** -/
theorem Ordered.add (hv : v.Ordered p) (he : v.ComesNext p e) : (v.add e doc).Ordered p := by
  cases h : v.hasKey e.key with
  | true => rwa [add_of_hasKey h]
  | false =>
    have helems : (v.add e doc).elements = v.elements ++ [e] := elements_add_of_new h
    constructor
    · intro u hu hkind
      rw [helems, List.mem_append, List.mem_singleton] at hu
      rcases hu with hu | rfl
      · exact hv.types u hu hkind
      · exact he.type hkind
    · intro m hm hkind
      rw [helems, List.mem_append, List.mem_singleton] at hm
      rw [helems]
      rcases hm with hm | rfl
      · obtain ⟨u, hu, hbehind⟩ := hv.members m hm hkind
        exact ⟨u, hu, hbehind.trans (List.sublist_append_left _ _)⟩
      · obtain ⟨u, hmem, hu⟩ := he.member hkind
        have hfirst : [u].Sublist v.elements := List.singleton_sublist.mpr hmem
        exact ⟨u, hu, hfirst.append (List.Sublist.refl [m])⟩

theorem Ordered.addAll : ∀ {v : Inventory} {xs : List (Element × Option String)},
    v.Ordered p → (∀ x ∈ xs, v.ComesNext p x.1) → (v.addAll xs).Ordered p
  | _, [], hv, _ => hv
  | v, x :: xs, hv, h => by
      rw [List.forall_mem_cons] at h
      refine Ordered.addAll (v := v.add x.1 x.2) (hv.add h.1) fun y hy => ⟨(h.2 y hy).type, ?_⟩
      intro hkind
      obtain ⟨u, hmem, hu⟩ := (h.2 y hy).member hkind
      exact ⟨u, elements_subset_add hmem, hu⟩

/-! ## 3. The listing of a package -/

/-- Candidates as they are added to a listing. -/
def entriesOf (cs : List Candidate) : List (Element × Option String) :=
  cs.map fun c => (c.element, c.doc.map CommentGroup.text)

theorem entriesOf_append (cs ds : List Candidate) :
    entriesOf (cs ++ ds) = entriesOf cs ++ entriesOf ds := List.map_append

/-- An owner of the members of a type, whether or not the type itself was the first with its key. -/
theorem exists_owner (hv : v.Ordered p) {t : TypeDecl}
    (hkey : v.hasKey (p.typeCandidate t).element.key = true) {c : Candidate}
    (hc : c ∈ p.membersOfType s t) : ∃ u ∈ v.elements, u.Owns c.element := by
  have howns := Package.owns_of_mem_membersOfType hc
  obtain ⟨u, hu, hkey⟩ := List.mem_map.mp (hasKey_iff.mp hkey)
  have hkind : u.kind = .type := congrArg ElementKey.kind hkey
  have hname : u.qualifiedName = (p.typeCandidate t).element.qualifiedName :=
    congrArg ElementKey.qualifiedName hkey
  obtain ⟨t', rfl⟩ := hv.types u hu hkind
  -- Types of one key have one name, and the name decides how visible they are.
  have hsame : t'.name = t.name :=
    (eq_of_last_dot t'.spec.name.dot_notMem t.spec.name.dot_notMem hname).2
  refine ⟨_, hu, ⟨hkind, ?_, ?_⟩⟩
  · rw [hname]
    exact howns.qualifiedName
  · have hvisibility : (p.typeCandidate t').element.visibility =
        (p.typeCandidate t).element.visibility := congrArg p.visibilityOf hsame
    rw [hvisibility]
    exact howns.visibility

/-- **A type that comes with its members keeps a listing in order.** -/
theorem Ordered.addType (hv : v.Ordered p) (t : TypeDecl) :
    (v.addAll (entriesOf (p.typeWithMembers s t))).Ordered p := by
  unfold Package.typeWithMembers
  split
  · let e := (p.typeCandidate t).element
    have hnext : v.ComesNext p e :=
      ⟨fun _ => ⟨t, rfl⟩, fun hkind => absurd hkind Package.type_notMem_memberKinds⟩
    have hfirst : (v.add e ((p.typeCandidate t).doc.map CommentGroup.text)).Ordered p :=
      hv.add hnext
    refine hfirst.addAll fun x hx => ?_
    obtain ⟨c, hc, rfl⟩ := List.mem_map.mp hx
    have hmember := (List.mem_filter.mp hc).1
    have hnamed := Package.memberNamed_of_mem_membersOfType hmember
    refine ⟨fun hkind => ?_, fun _ => exists_owner hfirst ?_ hmember⟩
    · exact absurd (hkind ▸ hnamed.kind) Package.type_notMem_memberKinds
    · simp [hasKey_add, e]
  · exact hv

theorem Ordered.addTypes : ∀ {v : Inventory} (ts : List TypeDecl), v.Ordered p →
    (v.addAll (entriesOf (ts.flatMap (p.typeWithMembers s)))).Ordered p
  | _, [], hv => hv
  | v, t :: ts, hv => by
      rw [List.flatMap_cons, entriesOf_append, addAll_append]
      exact Ordered.addTypes ts (hv.addType t)

/-- **The inventory of a package is in order.** -/
theorem ordered_ofPackage (p : Package) (s : Scope) : (ofPackage p s).Ordered p := by
  rw [ofPackage_eq_addAll]
  show (empty.addAll (entriesOf (p.candidates s))).Ordered p
  have hcandidates := fun c => Package.exists_type_of_mem_candidates (p := p) (s := s) (c := c)
  unfold Package.candidates at hcandidates ⊢
  rw [entriesOf_append, addAll_append]
  refine ((ordered_empty p).addTypes p.types).addAll fun x hx => ?_
  obtain ⟨c, hc, rfl⟩ := List.mem_map.mp hx
  refine ⟨fun hkind => ?_, fun hkind => ?_⟩
  · obtain ⟨t, -, rfl⟩ := hcandidates c (List.mem_append_right _ hc) hkind
    exact ⟨t, rfl⟩
  · obtain ⟨f, -, hf⟩ := List.mem_flatMap.mp (List.mem_filter.mp hc).1
    obtain ⟨d, -, hd⟩ := List.mem_flatMap.mp hf
    exact absurd hkind
      (Package.notMem_memberKinds _ (Package.topNamed_of_mem_declCandidates hd).kind)

/-! ## 4. The whole -/

theorem docsBelong_ofPackage (p : Package) (s : Scope) : (ofPackage p s).DocsBelong := by
  rw [ofPackage_eq_addAll]
  exact docsBelong_empty.addAll

/-- What stands below the import path in the name of an element stands below the name of the package
in its display name, and is its own name unless it belongs to a type. -/
theorem localName_of_mem (h : e ∈ (ofPackage p s).elements) :
    ∃ below, e.qualifiedName = p.importPath ++ "." ++ below ∧
      e.displayName = p.name ++ "." ++ below ∧ (e.kind ∉ Package.memberKinds → below = e.name) := by
  obtain ⟨c, hc, rfl⟩ := exists_candidate_of_mem h
  obtain ⟨below, hqualified, hdisplay⟩ := Package.namedBelow_of_mem_candidates hc
  refine ⟨below, hqualified, hdisplay, fun hkind => ?_⟩
  rcases Package.named_of_mem_candidates hc with htop | ⟨t, -, hmember⟩
  · rw [htop.qualifiedName] at hqualified
    exact (String.append_right_inj _).mp hqualified.symm
  · exact absurd hmember.kind hkind

/-- There is one owner of a member among elements with distinct keys. -/
theorem Distinct.owner_unique (hv : v.Distinct) {t u : Element} (ht : t ∈ v.elements)
    (hu : u ∈ v.elements) (howns : t.Owns e) (hkind : u.kind = .type)
    (hname : e.qualifiedName = u.qualifiedName ++ "." ++ e.name) : u = t := by
  have hqualified : u.qualifiedName = t.qualifiedName := by
    have heq := hname.symm.trans howns.qualifiedName
    rw [String.append_assoc, String.append_assoc] at heq
    exact (String.append_left_inj _).mp heq
  refine List.inj_on_of_nodup_map hv hu ht ?_
  rw [Element.key, Element.key, hkind, howns.kind, hqualified]

/-- **What holds of the inventory of a package**, under any scope.  Its elements have keys of their
own; every recorded text is that of an element; every element is named below the import path of the
package; and every member stands behind the one type that it is named below, and is at most as
visible as this type. -/
theorem ofPackage_owns_members (p : Package) (s : Scope) :
    (ofPackage p s).Distinct ∧
    (∀ k text, (ofPackage p s).docAt? k = some text → ∃ e ∈ (ofPackage p s).elements, e.key = k) ∧
    (∀ e ∈ (ofPackage p s).elements, e.package = p.importPath ∧
      ∃ below, e.qualifiedName = p.importPath ++ "." ++ below ∧
        e.displayName = p.name ++ "." ++ below ∧
        (e.kind ∉ [Kind.field, .method, .recordComponent] → below = e.name)) ∧
    ∀ e ∈ (ofPackage p s).elements, e.kind ∈ [Kind.field, .method, .recordComponent] →
      ∃ t, t.Owns e ∧ [t, e].Sublist (ofPackage p s).elements ∧
        ∀ u ∈ (ofPackage p s).elements, u.kind = .type →
          e.qualifiedName = u.qualifiedName ++ "." ++ e.name → u = t := by
  refine ⟨distinct_ofPackage p s, fun k text hdoc => ?_, fun e he => ?_, fun e he hkind => ?_⟩
  · by_cases hkey : (ofPackage p s).hasKey k = true
    · exact List.mem_map.mp (hasKey_iff.mp hkey)
    · rw [docsBelong_ofPackage p s k (Bool.eq_false_iff.mpr hkey)] at hdoc
      cases hdoc
  · exact ⟨package_of_mem_ofPackage he, localName_of_mem he⟩
  · obtain ⟨t, howns, hbehind⟩ := (ordered_ofPackage p s).members e he hkind
    have ht : t ∈ (ofPackage p s).elements := hbehind.subset List.mem_cons_self
    exact ⟨t, howns, hbehind, fun u hu => (distinct_ofPackage p s).owner_unique ht hu howns⟩

/-- An unexported method of an exported type stands behind this type. -/
theorem ofPackage_owns_members_method :
    ∃ e ∈ (ofPackage samplePackage (Package.wholeScope false)).elements,
      e.key = ⟨.method, "example.com/p.T.m"⟩ ∧
        ∃ t, t.Owns e ∧
          [t, e].Sublist (ofPackage samplePackage (Package.wholeScope false)).elements := by
  have hkeys : (⟨.method, "example.com/p.T.m"⟩ : ElementKey) ∈
      (ofPackage samplePackage (Package.wholeScope false)).elements.map Element.key := by
    decide +kernel
  obtain ⟨e, he, hkey⟩ := List.mem_map.mp hkeys
  have hkind : e.kind = .method := congrArg ElementKey.kind hkey
  have hmember : e.kind ∈ [Kind.field, .method, .recordComponent] := by
    rw [hkind]
    decide
  obtain ⟨t, howns, hbehind, -⟩ :=
    (ofPackage_owns_members samplePackage (Package.wholeScope false)).2.2.2 e he hmember
  exact ⟨e, he, hkey, t, howns, hbehind⟩

end Inventory

end DocAudit
