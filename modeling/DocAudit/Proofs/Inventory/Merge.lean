import DocAudit.Inventory
import Mathlib.Data.List.Nodup

/-!
# Adding to inventories

Merging inventories, and listing a package, are runs of `add`: what was found first stays.

* `Distinct` and `DocsBelong` hold of every inventory that is built by adding;
* `docAt?_addAll`: the text for a key is the one of the first element with this key;
* `mem_addAll_iff`: an element is kept if it is the first with its key;
* `addAll_of_nodup`: elements with distinct keys are all kept, each with its text;
* `foldl_merge`: merging inventories one after the other adds their elements one after the other.
-/

namespace DocAudit

theorem find?_of_unique {α : Type} {P : α → Bool} {xs : List α} {x : α} (hx : x ∈ xs)
    (hP : P x = true) (hunique : ∀ y ∈ xs, P y = true → y = x) : xs.find? P = some x := by
  obtain ⟨y, hy⟩ := Option.isSome_iff_exists.mp (List.find?_isSome.mpr ⟨x, hx, hP⟩)
  rw [hy, hunique y (List.mem_of_find?_eq_some hy) (List.find?_some hy)]

namespace Inventory

/-! ## 1. Adding one element -/

/-- Different elements have different keys. -/
def Distinct (v : Inventory) : Prop := (v.elements.map Element.key).Nodup

/-- Every text is that of an element. -/
def DocsBelong (v : Inventory) : Prop := ∀ k, v.hasKey k = false → v.docAt? k = none

variable {v : Inventory} {e : Element} {doc : Option String} {k : ElementKey}

theorem hasKey_iff : v.hasKey k = true ↔ k ∈ v.elements.map Element.key := by
  simp [hasKey]

theorem hasKey_eq_false_iff : v.hasKey k = false ↔ k ∉ v.elements.map Element.key := by
  rw [← hasKey_iff, Bool.not_eq_true]

theorem add_of_hasKey (h : v.hasKey e.key = true) : v.add e doc = v := by
  simp [add, h]

theorem elements_add_of_new (h : v.hasKey e.key = false) :
    (v.add e doc).elements = v.elements ++ [e] := by
  simp [add, h]

theorem hasKey_add : (v.add e doc).hasKey k = (v.hasKey k || e.key == k) := by
  cases h : v.hasKey e.key with
  | true =>
    rw [add_of_hasKey h]
    by_cases hk : e.key = k
    · subst hk
      simp [h]
    · simp [hk]
  | false =>
    unfold hasKey
    rw [elements_add_of_new h]
    simp

theorem docAt?_add_of_new (h : v.hasKey e.key = false) :
    (v.add e doc).docAt? k = if e.key = k then doc.or (v.docAt? k) else v.docAt? k := by
  cases doc with
  | none => simp [docAt?, add, h]
  | some d =>
    by_cases hk : e.key = k
    · subst hk
      simp [docAt?, add, h]
    · have hk' : (k == e.key) = false := by simpa using Ne.symm hk
      simp [docAt?, add, h, List.lookup_cons, hk, hk']

/-- An added element keeps the texts that are there, and brings its own if its key is new. -/
theorem docAt?_add (hv : v.DocsBelong) :
    (v.add e doc).docAt? k =
      if v.hasKey k then v.docAt? k else if e.key = k then doc else none := by
  cases h : v.hasKey e.key with
  | true =>
    rw [add_of_hasKey h]
    cases hk : v.hasKey k with
    | true => rfl
    | false =>
      have hne : e.key ≠ k := fun heq => by simp [heq, hk] at h
      simp [hne, hv k hk]
  | false =>
    rw [docAt?_add_of_new h]
    by_cases hk : e.key = k
    · subst hk
      simp [h, hv _ h]
    · cases hk' : v.hasKey k with
      | true => simp [hk]
      | false => simp [hk, hv k hk']

theorem Distinct.add (hv : v.Distinct) : (v.add e doc).Distinct := by
  cases h : v.hasKey e.key with
  | true => rwa [add_of_hasKey h]
  | false =>
    unfold Distinct
    rw [elements_add_of_new h, List.map_append]
    refine List.Nodup.append hv (List.nodup_singleton _) ?_
    simpa using hasKey_eq_false_iff.mp h

theorem DocsBelong.add (hv : v.DocsBelong) : (v.add e doc).DocsBelong := by
  intro k hk
  rw [hasKey_add, Bool.or_eq_false_iff] at hk
  have hne : e.key ≠ k := by simpa using hk.2
  simp [docAt?_add hv, hk.1, hne]

theorem distinct_empty : empty.Distinct := List.nodup_nil

theorem docsBelong_empty : empty.DocsBelong := fun _ _ => rfl

/-- Every recorded key is that of an element. -/
theorem docsBelong_iff : v.DocsBelong ↔ ∀ x ∈ v.docs, v.hasKey x.1 = true := by
  constructor
  · intro h x hx
    by_contra hkey
    have hnone := h x.1 (Bool.not_eq_true _ ▸ hkey)
    simpa using List.lookup_eq_none_iff.mp hnone x hx
  · intro h k hk
    refine List.lookup_eq_none_iff.mpr fun x hx => bne_iff_ne.mpr ?_
    rintro rfl
    exact Bool.false_ne_true (hk.symm.trans (h x hx))

instance : Decidable v.DocsBelong := decidable_of_iff _ docsBelong_iff.symm

/-! ## 2. Adding many -/

/-- The inventory with elements and their texts added one after the other. -/
def addAll (v : Inventory) (xs : List (Element × Option String)) : Inventory :=
  xs.foldl (fun v x => v.add x.1 x.2) v

/-- The elements of an inventory, each with its text. -/
def entries (v : Inventory) : List (Element × Option String) :=
  v.elements.map fun e => (e, v.doc? e)

theorem elements_entries (v : Inventory) : v.entries.map (·.1) = v.elements := by
  rw [entries, List.map_map]
  exact List.map_id _

theorem keys_entries (v : Inventory) : v.entries.map (·.1.key) = v.elements.map Element.key := by
  simp [entries]

theorem addAll_cons (v : Inventory) (x : Element × Option String)
    (xs : List (Element × Option String)) : v.addAll (x :: xs) = (v.add x.1 x.2).addAll xs := rfl

theorem addAll_append (v : Inventory) (xs ys : List (Element × Option String)) :
    v.addAll (xs ++ ys) = (v.addAll xs).addAll ys := by
  simp [addAll]

theorem Distinct.addAll : ∀ {v : Inventory} {xs : List (Element × Option String)},
    v.Distinct → (v.addAll xs).Distinct
  | _, [], hv => hv
  | v, x :: _, hv => Distinct.addAll (v := v.add x.1 x.2) hv.add

theorem DocsBelong.addAll : ∀ {v : Inventory} {xs : List (Element × Option String)},
    v.DocsBelong → (v.addAll xs).DocsBelong
  | _, [], hv => hv
  | v, x :: _, hv => DocsBelong.addAll (v := v.add x.1 x.2) hv.add

/-- A key is found after adding if it was found before, or is that of an added element. -/
theorem hasKey_addAll : ∀ {v : Inventory} (xs : List (Element × Option String)),
    (v.addAll xs).hasKey k = (v.hasKey k || xs.any (·.1.key == k))
  | v, [] => by simp [addAll]
  | v, x :: xs => by
      rw [addAll_cons, hasKey_addAll xs, hasKey_add, List.any_cons, Bool.or_assoc]

/-- **The text for a key is the one of the first element with this key.** -/
theorem docAt?_addAll : ∀ {v : Inventory} (xs : List (Element × Option String)), v.DocsBelong →
    (v.addAll xs).docAt? k =
      if v.hasKey k then v.docAt? k else (xs.find? (·.1.key == k)).bind (·.2)
  | v, [], hv => by
      cases h : v.hasKey k with
      | true => simp [addAll]
      | false => simp [addAll, hv k h]
  | v, x :: xs, hv => by
      rw [addAll_cons, docAt?_addAll xs hv.add, hasKey_add, docAt?_add hv, List.find?_cons]
      by_cases hk : x.1.key = k
      · simp [hk]
      · have hk' : (x.1.key == k) = false := by simpa using hk
        cases h : v.hasKey k <;> simp [hk']

/-- **An element is kept if it is the first with its key.** -/
theorem mem_addAll_iff : ∀ {v : Inventory} (xs : List (Element × Option String)),
    e ∈ (v.addAll xs).elements ↔ e ∈ v.elements ∨
      v.hasKey e.key = false ∧ (xs.find? (·.1.key == e.key)).map (·.1) = some e
  | v, [] => by simp [addAll]
  | v, x :: xs => by
      rw [addAll_cons, mem_addAll_iff xs, hasKey_add, List.find?_cons]
      cases hx : v.hasKey x.1.key with
      | true =>
        rw [add_of_hasKey hx]
        by_cases hk : x.1.key = e.key
        · rw [← hk, hx]
          simp
        · have hk' : (x.1.key == e.key) = false := by simpa using hk
          simp [hk']
      | false =>
        rw [elements_add_of_new hx, List.mem_append, List.mem_singleton]
        by_cases hk : x.1.key = e.key
        · rw [← hk, hx]
          simp [eq_comm]
        · have hk' : (x.1.key == e.key) = false := by simpa using hk
          have hne : e ≠ x.1 := fun heq => hk (heq ▸ rfl)
          simp [hk', hne]

theorem find?_entries_eq_none_iff :
    v.entries.find? (·.1.key == k) = none ↔ v.hasKey k = false := by
  rw [hasKey_eq_false_iff, List.find?_eq_none, ← keys_entries]
  simp

theorem Distinct.find?_entries (hv : v.Distinct) (he : e ∈ v.elements) :
    v.entries.find? (·.1.key == e.key) = some (e, v.doc? e) := by
  refine find?_of_unique (List.mem_map_of_mem he) (beq_self_eq_true _) fun x hx hkey => ?_
  obtain ⟨e', he', rfl⟩ := List.mem_map.mp hx
  rw [List.inj_on_of_nodup_map hv he' he (beq_iff_eq.mp hkey)]

/-- The elements that are added are among those given. -/
theorem mem_of_mem_addAll : ∀ {v : Inventory} {xs : List (Element × Option String)},
    e ∈ (v.addAll xs).elements → e ∈ v.elements ∨ e ∈ xs.map (·.1)
  | _, [], he => .inl he
  | v, x :: xs, he => by
      rcases mem_of_mem_addAll (v := v.add x.1 x.2) he with he | he
      · cases h : v.hasKey x.1.key with
        | true =>
          rw [add_of_hasKey h] at he
          exact .inl he
        | false =>
          rw [elements_add_of_new h, List.mem_append, List.mem_singleton] at he
          rcases he with he | rfl
          · exact .inl he
          · exact .inr List.mem_cons_self
      · exact .inr (List.mem_cons_of_mem _ he)

theorem elements_addAll_of_nodup : ∀ {v : Inventory} (xs : List (Element × Option String)),
    (v.elements.map Element.key ++ xs.map (·.1.key)).Nodup →
      (v.addAll xs).elements = v.elements ++ xs.map (·.1)
  | v, [], _ => by simp [addAll]
  | v, x :: xs, h => by
      have hnew : v.hasKey x.1.key = false := by
        rw [hasKey_eq_false_iff]
        intro hx
        exact List.disjoint_of_nodup_append h hx List.mem_cons_self
      have helems : (v.add x.1 x.2).elements = v.elements ++ [x.1] := elements_add_of_new hnew
      rw [addAll_cons, elements_addAll_of_nodup xs, helems]
      · simp
      · rw [helems]
        simpa using h

/-- **Elements with distinct keys are all kept, each with its text.** -/
theorem addAll_of_nodup {xs : List (Element × Option String)} (h : (xs.map (·.1.key)).Nodup) :
    (empty.addAll xs).elements = xs.map (·.1) ∧
      ∀ x ∈ xs, (empty.addAll xs).doc? x.1 = x.2 := by
  refine ⟨elements_addAll_of_nodup (v := empty) xs h, fun x hx => ?_⟩
  have hfind : xs.find? (·.1.key == x.1.key) = some x :=
    find?_of_unique hx (beq_self_eq_true _) fun y hy hkey =>
      List.inj_on_of_nodup_map h hy hx (beq_iff_eq.mp hkey)
  rw [doc?, docAt?_addAll xs docsBelong_empty, hfind]
  rfl

/-! ## 3. Merging -/

theorem merge_eq_addAll (v w : Inventory) : v.merge w = v.addAll w.entries := by
  simp [merge, addAll, entries, List.foldl_map]

/-- **Merging inventories one after the other adds their elements one after the other.** -/
theorem foldl_merge : ∀ (v : Inventory) (us : List Inventory),
    us.foldl merge v = v.addAll (us.flatMap entries)
  | _, [] => rfl
  | v, u :: us => by
      rw [List.foldl_cons, foldl_merge, merge_eq_addAll, List.flatMap_cons, addAll_append]

end Inventory

end DocAudit
