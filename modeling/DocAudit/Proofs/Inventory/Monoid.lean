import DocAudit.Proofs.Inventory.Merge
import Mathlib.Data.List.Induction

/-!
# Merging as a monoid

Merging inventories is associative, the empty inventory is neutral, and what was found first wins.

* `newIn` are the elements of one inventory whose keys another does not have, each key once;
* `elements_merge` and `docAt?_merge`: the elements and the texts of a merged inventory;
* `merge_of_hasKey`: merging what has been found changes nothing;
* `merge_assoc`: it does not matter how inventories are batched;
* `merge_first_wins`: the laws together.
-/

namespace DocAudit.Inventory

variable {a b c v w : Inventory} {e : Element} {k : ElementKey}

/-! ## 1. First occurrences -/

/-- The elements of a list whose keys are not taken and do not occur earlier in the list. -/
def firstOf (taken : ElementKey → Bool) (es : List Element) : List Element :=
  (es.zipIdx.filter fun (e, i) => !taken e.key && (es.take i).all (·.key != e.key)).map (·.1)

/-- **The elements of `w` with keys that are new to `v`**, in order, each where its key occurs
first. -/
def newIn (v w : Inventory) : List Element := firstOf v.hasKey w.elements

theorem firstOf_concat (taken : ElementKey → Bool) (es : List Element) (e : Element) :
    firstOf taken (es ++ [e]) = firstOf taken es ++
      if taken e.key || es.any (·.key == e.key) then [] else [e] := by
  have hbefore : ∀ x ∈ es.zipIdx,
      (!taken x.1.key && ((es ++ [e]).take x.2).all (·.key != x.1.key)) =
        (!taken x.1.key && (es.take x.2).all (·.key != x.1.key)) := by
    intro x hx
    have hlt : x.2 < es.length := by simpa using List.snd_lt_of_mem_zipIdx hx
    rw [List.take_append_of_le_length (Nat.le_of_lt hlt)]
  have hlast : (!taken e.key && ((es ++ [e]).take es.length).all (·.key != e.key)) =
      !(taken e.key || es.any (·.key == e.key)) := by
    rw [List.take_left, Bool.not_or, List.not_any_eq_all_not]
    rfl
  unfold firstOf
  rw [List.zipIdx_append, List.filter_append, List.map_append]
  congr 1
  · exact congrArg (List.map _) (List.filter_congr hbefore)
  · simp only [List.zipIdx_singleton, Nat.zero_add, List.filter_singleton, hlast]
    cases taken e.key || es.any (·.key == e.key) <;> rfl

/-! ## 2. Adding first occurrences -/

section AddAll

variable (f : Element → Option String)

theorem addAll_concat (v : Inventory) (es : List Element) (e : Element) :
    v.addAll ((es ++ [e]).map fun e => (e, f e)) =
      (v.addAll (es.map fun e => (e, f e))).add e (f e) := by
  simp [addAll]

theorem hasKey_addAll_map (v : Inventory) (es : List Element) :
    (v.addAll (es.map fun e => (e, f e))).hasKey k = (v.hasKey k || es.any (·.key == k)) := by
  rw [hasKey_addAll, List.any_map]
  rfl

/-- Elements are added where their keys occur first. -/
theorem elements_addAll (v : Inventory) (es : List Element) :
    (v.addAll (es.map fun e => (e, f e))).elements = v.elements ++ firstOf v.hasKey es := by
  -- From the right: whether an element counts depends on those before it.
  induction es using List.reverseRecOn with
  | nil => exact (List.append_nil _).symm
  | append_singleton es e ih =>
    rw [addAll_concat, firstOf_concat, ← hasKey_addAll_map f, ← List.append_assoc, ← ih]
    cases h : (v.addAll (es.map fun e => (e, f e))).hasKey e.key with
    | true => rw [add_of_hasKey h, if_pos rfl, List.append_nil]
    | false => rw [elements_add_of_new h, if_neg Bool.false_ne_true]

/-- Leaving out what does not count leaves the result as it is. -/
theorem addAll_firstOf {taken : ElementKey → Bool}
    (htaken : ∀ k, taken k = true → v.hasKey k = true) (es : List Element) :
    v.addAll ((firstOf taken es).map fun e => (e, f e)) =
      v.addAll (es.map fun e => (e, f e)) := by
  induction es using List.reverseRecOn with
  | nil => rfl
  | append_singleton es e ih =>
    rw [firstOf_concat]
    split
    · rename_i h
      have hold : (v.addAll (es.map fun e => (e, f e))).hasKey e.key = true := by
        rw [hasKey_addAll_map, Bool.or_eq_true]
        exact (Bool.or_eq_true _ _ ▸ h).imp_left (htaken e.key)
      rw [List.append_nil, ih, addAll_concat, add_of_hasKey hold]
    · rw [addAll_concat, addAll_concat, ih]

theorem addAll_of_hasKey : ∀ {xs : List (Element × Option String)},
    (∀ x ∈ xs, v.hasKey x.1.key = true) → v.addAll xs = v
  | [], _ => rfl
  | x :: _, h => by
      rw [addAll_cons, add_of_hasKey (h x List.mem_cons_self)]
      exact addAll_of_hasKey fun y hy => h y (List.mem_cons_of_mem x hy)

end AddAll

/-! ## 3. What a merged inventory holds -/

/-- **The elements of `v`, and those of `w` with new keys.** -/
theorem elements_merge (v w : Inventory) : (v.merge w).elements = v.elements ++ v.newIn w := by
  rw [merge_eq_addAll]
  exact elements_addAll w.doc? v w.elements

theorem hasKey_merge : (v.merge w).hasKey k = (v.hasKey k || w.hasKey k) := by
  rw [merge_eq_addAll]
  exact hasKey_addAll_map w.doc? v w.elements

/-- The text that the entries of an inventory have for a key is the one recorded for it. -/
theorem DocsBelong.find?_entries (hw : w.DocsBelong) :
    (w.entries.find? (·.1.key == k)).bind (·.2) = w.docAt? k := by
  cases h : w.entries.find? (·.1.key == k) with
  | none => exact (hw k (find?_entries_eq_none_iff.mp h)).symm
  | some x =>
    obtain ⟨e, -, rfl⟩ := List.mem_map.mp (List.mem_of_find?_eq_some h)
    have hk : e.key = k := by simpa using List.find?_some h
    rw [← hk]
    rfl

/-- **The texts of `v`, and those of `w` for new keys.** -/
theorem docAt?_merge (hv : v.DocsBelong) (hw : w.DocsBelong) :
    (v.merge w).docAt? k = if v.hasKey k then v.docAt? k else w.docAt? k := by
  rw [merge_eq_addAll, docAt?_addAll _ hv, hw.find?_entries]

theorem DocsBelong.merge (hv : v.DocsBelong) : (v.merge w).DocsBelong := by
  rw [merge_eq_addAll]
  exact hv.addAll

theorem Distinct.merge (hv : v.Distinct) : (v.merge w).Distinct := by
  rw [merge_eq_addAll]
  exact hv.addAll

theorem hasKey_of_mem (he : e ∈ v.elements) : v.hasKey e.key = true :=
  hasKey_iff.mpr (List.mem_map_of_mem he)

theorem hasKey_of_mem_newIn (he : e ∈ v.newIn w) : v.hasKey e.key = false := by
  obtain ⟨x, hx, rfl⟩ := List.mem_map.mp he
  have := (List.mem_filter.mp hx).2
  simp only [Bool.and_eq_true, Bool.not_eq_true'] at this
  exact this.1

/-! ## 4. Laws -/

/-- **Merging what has been found changes nothing.** -/
theorem merge_of_hasKey (h : ∀ e ∈ w.elements, v.hasKey e.key = true) : v.merge w = v := by
  rw [merge_eq_addAll]
  refine addAll_of_hasKey fun x hx => ?_
  obtain ⟨e, he, rfl⟩ := List.mem_map.mp hx
  exact h e he

theorem merge_self (v : Inventory) : v.merge v = v := merge_of_hasKey fun _ => hasKey_of_mem

theorem merge_merge_self (v w : Inventory) : (v.merge w).merge w = v.merge w :=
  merge_of_hasKey fun e he => by rw [hasKey_merge, hasKey_of_mem he, Bool.or_true]

theorem merge_empty (v : Inventory) : v.merge empty = v := rfl

/-- The entries of a merged inventory are those of its parts. -/
theorem entries_merge (hv : v.DocsBelong) (hw : w.DocsBelong) :
    (v.merge w).entries = v.entries ++ (v.newIn w).map fun e => (e, w.doc? e) := by
  rw [entries, elements_merge, List.map_append]
  congr 1
  · refine List.map_congr_left fun e he => ?_
    rw [doc?, docAt?_merge hv hw, if_pos (hasKey_of_mem he)]
    rfl
  · refine List.map_congr_left fun e he => ?_
    rw [doc?, docAt?_merge hv hw, hasKey_of_mem_newIn he]
    rfl

/-- **It does not matter how inventories are batched.** -/
theorem merge_assoc (hb : b.DocsBelong) (hc : c.DocsBelong) :
    (a.merge b).merge c = a.merge (b.merge c) := by
  have htaken : ∀ k, b.hasKey k = true → (a.addAll b.entries).hasKey k = true := fun k hk => by
    rw [← merge_eq_addAll, hasKey_merge, hk, Bool.or_true]
  -- On the right, the elements of `c` whose keys `b` has are left out before `a` is asked; on the
  -- left they are added to what has those keys already.
  calc (a.merge b).merge c = (a.addAll b.entries).addAll c.entries := by
        rw [merge_eq_addAll, merge_eq_addAll a b]
    _ = (a.addAll b.entries).addAll ((b.newIn c).map fun e => (e, c.doc? e)) :=
        (addAll_firstOf c.doc? htaken c.elements).symm
    _ = a.addAll (b.merge c).entries := by rw [entries_merge hb hc, addAll_append]
    _ = a.merge (b.merge c) := (merge_eq_addAll _ _).symm

/-- Merging into the empty inventory gives an inventory with distinct keys back. -/
theorem empty_merge (hb : b.DocsBelong) (hdistinct : b.Distinct) :
    (empty.merge b).elements = b.elements ∧ ∀ k, (empty.merge b).docAt? k = b.docAt? k := by
  refine ⟨?_, fun k => docAt?_merge docsBelong_empty hb⟩
  rw [merge_eq_addAll, (addAll_of_nodup (by rwa [keys_entries])).1, elements_entries]

/-- **Merging is a monoid in which what was found first wins.** -/
theorem merge_first_wins (ha : a.DocsBelong) (hb : b.DocsBelong) (hc : c.DocsBelong) :
    (a.merge b).DocsBelong ∧
    (a.merge b).elements = a.elements ++ a.newIn b ∧
    (∀ k, (a.merge b).docAt? k = if a.hasKey k then a.docAt? k else b.docAt? k) ∧
    (a.Distinct → (a.merge b).Distinct) ∧
    (a.merge b).merge b = a.merge b ∧ a.merge a = a ∧ a.merge empty = a ∧
    (b.Distinct → (empty.merge b).elements = b.elements ∧
      ∀ k, (empty.merge b).docAt? k = b.docAt? k) ∧
    (a.merge b).merge c = a.merge (b.merge c) :=
  ⟨ha.merge, elements_merge a b, fun _ => docAt?_merge ha hb, Distinct.merge, merge_merge_self a b,
    merge_self a, merge_empty a, empty_merge hb, merge_assoc hb hc⟩

/-- A type of a line. -/
def typeAt (name : String) (line : Int) : Element :=
  ⟨.type, "m." ++ name, "m." ++ name, name, "a.go", line, .pub, [], [], "m", "", []⟩

/-- A bare `T` of line 1 stays bare, and of two `U` the one of line 3 counts, with the text that is
recorded for both. -/
theorem merge_first_wins_overlapping :
    let a := ofList [(typeAt "T" 1, none)]
    let b := ofList [(typeAt "T" 2, some "T is."), (typeAt "U" 3, some "U is."),
      (typeAt "U" 4, none)]
    let c := ofList [(typeAt "U" 5, some "U was."), (typeAt "V" 6, some "V is.")]
    (a.merge b).elements = [typeAt "T" 1, typeAt "U" 3] ∧
    (a.merge b).docAt? (typeAt "T" 1).key = none ∧
    (a.merge b).docAt? (typeAt "U" 3).key = some "U is." ∧
    (a.merge b).Distinct ∧
    (a.merge b).merge b = a.merge b ∧
    (a.merge b).merge c = a.merge (b.merge c) := by
  intro a b c
  have ha : a.DocsBelong := by decide +kernel
  have hb : b.DocsBelong := by decide +kernel
  have hc : c.DocsBelong := by decide +kernel
  obtain ⟨-, helements, hdocs, hdistinct, htwice, -, -, -, hassoc⟩ := merge_first_wins ha hb hc
  refine ⟨?_, ?_, ?_, hdistinct (List.nodup_singleton _), htwice, hassoc⟩
  · have hnew : a.newIn b = [typeAt "U" 3] := by decide +kernel
    rw [helements, hnew]
    rfl
  · rw [hdocs, if_pos (by decide +kernel)]
    rfl
  · rw [hdocs, if_neg (by decide +kernel)]
    decide +kernel

end DocAudit.Inventory
