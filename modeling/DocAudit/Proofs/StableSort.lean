import Mathlib.Data.List.Perm.Basic

/-!
# Stable sorting

What it means that a list is the stable sort of another, apart from how it is computed.

* `StableSort.mergeSort`: merging gives a stable sort, if the comparison is total and transitive;
* `StableSort.unique`: there is no other one;
* `StableSort.filter`: what is kept of a stable sort is the stable sort of what is kept, so choosing
  elements before and after sorting is the same (`filter_mergeSort`);
* `StableSort.mergeSort_eq_of_apart`: where nothing ties, being sorted is enough;
* `StableSort.mergeSort_flatMap_of_perm`: lists in which nothing ties can be rearranged before they
  are put together and sorted.
-/

namespace DocAudit

variable {α : Type} {le : α → α → Bool}

/-- Whether neither of two elements has to stand before the other. -/
def ties (le : α → α → Bool) (a b : α) : Bool := le a b && le b a

/-- **`out` is a stable sort of `l`**: it has the elements of `l`, in order, and elements that tie
stand as they do in `l`. -/
structure StableSort (le : α → α → Bool) (l out : List α) : Prop where
  perm : out.Perm l
  sorted : out.Pairwise fun a b => le a b = true
  stable : ∀ a, out.filter (ties le a) = l.filter (ties le a)

/-- A comparison under which every list has one stable sort. -/
structure IsOrder (le : α → α → Bool) : Prop where
  trans : ∀ a b c, le a b = true → le b c = true → le a c = true
  total : ∀ a b, (le a b || le b a) = true

namespace IsOrder

theorem refl (o : IsOrder le) (a : α) : le a a = true := by
  simpa using o.total a a

theorem ties_self (o : IsOrder le) (a : α) : ties le a a = true := by
  simp [ties, o.refl a]

/-- Elements that tie with one element are in order, however they stand. -/
theorem pairwise_ties (o : IsOrder le) (a : α) (l : List α) :
    (l.filter (ties le a)).Pairwise fun x y => le x y = true := by
  rw [List.pairwise_filter]
  refine List.pairwise_of_forall_mem_list fun x _ y _ hx hy => ?_
  simp only [ties, Bool.and_eq_true] at hx hy
  exact o.trans x a y hx.2 hy.1

end IsOrder

namespace StableSort

theorem mergeSort (o : IsOrder le) (l : List α) : StableSort le l (l.mergeSort le) where
  perm := List.mergeSort_perm l le
  sorted := List.pairwise_mergeSort o.trans o.total l
  stable a := by
    -- the elements that tie with `a` are sorted already, so they are found in their order; there
    -- are no others of them
    have hsub : (l.filter (ties le a)).Sublist (l.mergeSort le) :=
      List.sublist_mergeSort o.trans o.total (o.pairwise_ties a l) List.filter_sublist
    have hsub' : (l.filter (ties le a)).Sublist ((l.mergeSort le).filter (ties le a)) := by
      simpa using hsub.filter (ties le a)
    have hlen := ((List.mergeSort_perm l le).filter (ties le a)).length_eq
    exact (hsub'.eq_of_length hlen.symm).symm

/-- The first elements of two sorted arrangements of one list tie. -/
theorem heads_le (o : IsOrder le) {a b : α} {s t : List α} (hperm : (a :: s).Perm (b :: t))
    (hs : (a :: s).Pairwise fun x y => le x y = true) : le a b = true := by
  rcases List.mem_cons.mp (hperm.mem_iff.mpr List.mem_cons_self) with rfl | hb
  · exact o.refl b
  · exact List.rel_of_pairwise_cons hs hb

/-- **There is one stable sort.** -/
theorem unique (o : IsOrder le) : ∀ {l out out' : List α},
    StableSort le l out → StableSort le l out' → out = out'
  | _, [], _, h, h' => (List.nil_perm.mp (h.perm.trans h'.perm.symm)).symm
  | _, _ :: _, [], h, h' => List.perm_nil.mp (h.perm.trans h'.perm.symm)
  | l, a :: out, b :: out', h, h' => by
      have hperm : (a :: out).Perm (b :: out') := h.perm.trans h'.perm.symm
      have hst : ∀ x, (a :: out).filter (ties le x) = (b :: out').filter (ties le x) :=
        fun x => (h.stable x).trans (h'.stable x).symm
      obtain rfl : a = b := by
        have hab : ties le a b = true := by
          simp [ties, heads_le o hperm h.sorted, heads_le o hperm.symm h'.sorted]
        have := hst a
        rw [List.filter_cons_of_pos (o.ties_self a), List.filter_cons_of_pos hab] at this
        exact (List.cons.inj this).1
      have htail : StableSort le out' out := by
        refine ⟨hperm.cons_inv, h.sorted.of_cons, fun x => ?_⟩
        have := hst x
        by_cases hx : ties le x a = true
        · rw [List.filter_cons_of_pos hx, List.filter_cons_of_pos hx] at this
          exact (List.cons.inj this).2
        · rwa [List.filter_cons_of_neg hx, List.filter_cons_of_neg hx] at this
      rw [unique o htail ⟨.rfl, h'.sorted.of_cons, fun _ => rfl⟩]

/-- The stable sort is what merging gives. -/
theorem iff_eq_mergeSort (o : IsOrder le) {l out : List α} :
    StableSort le l out ↔ out = l.mergeSort le :=
  ⟨fun h => unique o h (mergeSort o l), fun h => h ▸ mergeSort o l⟩

theorem filter {l out : List α} (h : StableSort le l out) (p : α → Bool) :
    StableSort le (l.filter p) (out.filter p) where
  perm := h.perm.filter p
  sorted := h.sorted.filter p
  stable a := by
    rw [List.filter_comm, h.stable a, List.filter_comm]

/-- **Choosing elements commutes with sorting them.** -/
theorem filter_mergeSort (o : IsOrder le) (p : α → Bool) (l : List α) :
    (l.mergeSort le).filter p = (l.filter p).mergeSort le :=
  (iff_eq_mergeSort o).mp ((mergeSort o l).filter p)

/-- No two elements of a list tie. -/
def Apart (le : α → α → Bool) (l : List α) : Prop := l.Pairwise fun a b => ties le a b = false

theorem ties_of_common (o : IsOrder le) {a b c : α} (hb : ties le a b = true)
    (hc : ties le a c = true) : ties le b c = true := by
  simp only [ties, Bool.and_eq_true] at hb hc ⊢
  exact ⟨o.trans b a c hb.2 hc.1, o.trans c a b hc.2 hb.1⟩

theorem length_filter_ties_le (o : IsOrder le) {l : List α} (hl : Apart le l) (a : α) :
    (l.filter (ties le a)).length ≤ 1 := by
  have hpair : (l.filter (ties le a)).Pairwise fun b c => ties le b c = false := hl.filter _
  match hf : l.filter (ties le a) with
  | [] => simp
  | [_] => simp
  | b :: c :: rest =>
    have hb : ties le a b = true := List.of_mem_filter (hf ▸ List.mem_cons_self)
    have hc : ties le a c = true :=
      List.of_mem_filter (hf ▸ List.mem_cons_of_mem _ List.mem_cons_self)
    rw [hf] at hpair
    have hbc := List.rel_of_pairwise_cons hpair List.mem_cons_self
    rw [ties_of_common o hb hc] at hbc
    cases hbc

theorem eq_of_perm_of_length_le_one : ∀ {l l' : List α}, l.Perm l' → l.length ≤ 1 → l = l'
  | [], _, h, _ => (List.nil_perm.mp h).symm
  | [_], _, h, _ => List.singleton_perm.mp h

/-- **Where nothing ties, every sorted arrangement is the stable sort.** -/
theorem mergeSort_eq_of_apart {l out : List α} (o : IsOrder le) (hperm : out.Perm l)
    (hsorted : out.Pairwise fun a b => le a b = true) (hapart : Apart le out) :
    l.mergeSort le = out :=
  ((iff_eq_mergeSort o).mp ⟨hperm, hsorted, fun a =>
    eq_of_perm_of_length_le_one (hperm.filter _) (length_filter_ties_le o hapart a)⟩).symm

/-- **Lists without ties can be rearranged before they are put together and sorted.** -/
theorem mergeSort_flatMap_of_perm {ι : Type} (o : IsOrder le) {f f' : ι → List α} {is : List ι}
    (hperm : ∀ i ∈ is, (f i).Perm (f' i)) (hapart : ∀ i ∈ is, Apart le (f i)) :
    (is.flatMap f).mergeSort le = (is.flatMap f').mergeSort le := by
  have hsort := mergeSort o (is.flatMap f)
  refine (iff_eq_mergeSort o).mp ⟨hsort.perm.trans ?_, hsort.sorted, fun a => ?_⟩
  · exact List.Perm.flatMap_left _ hperm
  · -- Of each list at most one element ties with `a`, so there is nothing to be out of order.
    rw [hsort.stable, List.filter_flatMap, List.filter_flatMap]
    refine List.flatMap_congr fun i hi => ?_
    exact eq_of_perm_of_length_le_one ((hperm i hi).filter _)
      (length_filter_ties_le o (hapart i hi) a)

end StableSort

end DocAudit
