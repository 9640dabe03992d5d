import DocAudit.Pattern.Regex
import Mathlib.Data.List.Perm.Subperm
import Mathlib.Logic.Relation

/-!
# The positions a match can reach

`Regex.ends` works on rising lists of positions of a text.  It computes the relation `Regex.Leads`:
from a list of starts it gives the positions at which a match from one of them can end.

* `Computes`: a function on rising lists computes a relation between positions;
* `Computes.closure`: with as much fuel as there are positions, `closure` computes the reflexive and
  transitive closure;
* `computes_ends`: an expression computes its relation, if no repetition asks for more than it
  allows (`Regex.Counted`);
* `found_iff`: so an expression is found in a text exactly if it leads from some position of it to
  another.
-/

namespace DocAudit.Pattern

open Relation

/-! ## 1. Rising lists -/

/-- A rising list of positions of a text. -/
structure Positions (v : Array Char) (s : List Nat) : Prop where
  rising : s.Pairwise (· < ·)
  within : ∀ i ∈ s, i ≤ v.size

variable {v : Array Char} {s t : List Nat}

/-- What is below the first entry of a rising list is below all of them. -/
theorem lt_of_mem_rising {x y : Nat} {ys : List Nat} (h : x < y) (hy : (y :: ys).Pairwise (· < ·)) :
    ∀ k ∈ y :: ys, x < k := by
  rw [List.pairwise_cons] at hy
  rw [List.forall_mem_cons]
  exact ⟨h, fun k hk => Nat.lt_trans h (hy.1 k hk)⟩

theorem mem_union_iff (j : Nat) (xs ys : List Nat) : j ∈ union xs ys ↔ j ∈ xs ∨ j ∈ ys := by
  fun_induction union xs ys with
  | case1 ys => simp
  | case2 x xs => simp
  | case3 x xs y ys h ih => simp [ih, or_assoc]
  | case4 x xs y ys h h' ih =>
    simp only [List.mem_cons, ih]
    tauto
  | case5 x xs y ys h h' ih =>
    obtain rfl : x = y := by omega
    simp only [List.mem_cons, ih]
    tauto

theorem rising_union {xs ys : List Nat} (hx : xs.Pairwise (· < ·)) (hy : ys.Pairwise (· < ·)) :
    (union xs ys).Pairwise (· < ·) := by
  fun_induction union xs ys with
  | case1 ys => exact hy
  | case2 x xs => exact hx
  | case3 x xs y ys h ih =>
    have hlt := lt_of_mem_rising h hy
    rw [List.pairwise_cons] at hx ⊢
    refine ⟨fun j hj => ?_, ih hx.2 hy⟩
    rcases (mem_union_iff j _ _).mp hj with hj | hj
    · exact hx.1 j hj
    · exact hlt j hj
  | case4 x xs y ys h h' ih =>
    have hlt := lt_of_mem_rising h' hx
    rw [List.pairwise_cons] at hy ⊢
    refine ⟨fun j hj => ?_, ih hx hy.2⟩
    rcases (mem_union_iff j _ _).mp hj with hj | hj
    · exact hlt j hj
    · exact hy.1 j hj
  | case5 x xs y ys h h' ih =>
    obtain rfl : x = y := by omega
    rw [List.pairwise_cons] at hx hy ⊢
    refine ⟨fun j hj => ?_, ih hx.2 hy.2⟩
    rcases (mem_union_iff j _ _).mp hj with hj | hj
    · exact hx.1 j hj
    · exact hy.1 j hj

theorem Positions.union (hs : Positions v s) (ht : Positions v t) :
    Positions v (Pattern.union s t) := by
  refine ⟨rising_union hs.rising ht.rising, fun i hi => ?_⟩
  rcases (mem_union_iff i s t).mp hi with hi | hi
  · exact hs.within i hi
  · exact ht.within i hi

theorem minus_sublist (xs ys : List Nat) : (minus xs ys).Sublist xs := by
  fun_induction minus xs ys with
  | case1 ys => exact List.Sublist.refl _
  | case2 x xs => exact List.Sublist.refl _
  | case3 x xs y ys h ih => exact ih.cons_cons x
  | case4 x xs y ys h h' ih => exact ih
  | case5 x xs y ys h h' ih => exact ih.cons x

theorem mem_minus_iff (j : Nat) {xs ys : List Nat} (hx : xs.Pairwise (· < ·))
    (hy : ys.Pairwise (· < ·)) : j ∈ minus xs ys ↔ j ∈ xs ∧ j ∉ ys := by
  fun_induction minus xs ys with
  | case1 ys => simp
  | case2 x xs => simp
  | case3 x xs y ys h ih =>
    have hout : x ∉ y :: ys := fun hk => Nat.lt_irrefl x (lt_of_mem_rising h hy x hk)
    rw [List.mem_cons (b := x), List.mem_cons (b := x), ih (List.pairwise_cons.mp hx).2 hy]
    constructor
    · rintro (rfl | ⟨hj, hny⟩)
      · exact ⟨.inl rfl, hout⟩
      · exact ⟨.inr hj, hny⟩
    · rintro ⟨rfl | hj, hny⟩
      · exact .inl rfl
      · exact .inr ⟨hj, hny⟩
  | case4 x xs y ys h h' ih =>
    have hout : y ∉ x :: xs := fun hk => Nat.lt_irrefl y (lt_of_mem_rising h' hx y hk)
    rw [ih hx (List.pairwise_cons.mp hy).2, List.mem_cons (b := y)]
    refine and_congr_right fun hj => not_congr ⟨.inr, ?_⟩
    rintro (rfl | hk)
    · exact absurd hj hout
    · exact hk
  | case5 x xs y ys h h' ih =>
    obtain rfl : x = y := by omega
    rw [List.pairwise_cons] at hx hy
    rw [ih hx.2 hy.2, List.mem_cons (b := x), List.mem_cons (b := x)]
    constructor
    · rintro ⟨hj, hny⟩
      refine ⟨.inr hj, ?_⟩
      rintro (rfl | hk)
      · exact Nat.lt_irrefl j (hx.1 j hj)
      · exact hny hk
    · rintro ⟨rfl | hj, hny⟩
      · exact absurd (.inl rfl) hny
      · exact ⟨hj, fun hk => hny (.inr hk)⟩

theorem Positions.minus (hs : Positions v s) : Positions v (Pattern.minus s t) :=
  ⟨hs.rising.sublist (minus_sublist s t), fun i hi => hs.within i ((minus_sublist s t).subset hi)⟩

theorem Positions.nodup (hs : Positions v s) : s.Nodup := hs.rising.imp fun h => Nat.ne_of_lt h

/-- A rising list with as many entries as there are positions has them all. -/
theorem Positions.mem_of_le (hs : Positions v s) (hlen : v.size + 1 ≤ s.length) {i : Nat}
    (hi : i ≤ v.size) : i ∈ s := by
  have hsub : s ⊆ List.range (v.size + 1) := fun k hk =>
    List.mem_range.mpr (Nat.lt_succ_of_le (hs.within k hk))
  have hperm : s.Perm (List.range (v.size + 1)) :=
    (hs.nodup.subperm hsub).perm_of_length_le (by simpa using hlen)
  exact hperm.mem_iff.mpr (List.mem_range.mpr (Nat.lt_succ_of_le hi))

/-! ## 2. Functions that compute a relation -/

/-- From positions, `f` gives the positions that the relation leads to. -/
structure Computes (v : Array Char) (f : List Nat → List Nat) (R : Nat → Nat → Prop) : Prop where
  positions : ∀ {s}, Positions v s → Positions v (f s)
  mem_iff : ∀ {s}, Positions v s → ∀ j, j ∈ f s ↔ ∃ i ∈ s, R i j

/-- A relation, `n` times one after the other. -/
def Times (R : Nat → Nat → Prop) : Nat → Nat → Nat → Prop
  | 0, i, j => i = j
  | n + 1, i, k => ∃ j, R i j ∧ Times R n j k

variable {f g : List Nat → List Nat} {R Q : Nat → Nat → Prop}

theorem Computes.congr (hf : Computes v f R) (h : ∀ i j, R i j ↔ Q i j) : Computes v f Q := by
  refine ⟨hf.positions, fun hs j => ?_⟩
  rw [hf.mem_iff hs]
  simp only [h]

theorem Computes.le (hf : Computes v f R) {i j : Nat} (hi : i ≤ v.size) (h : R i j) :
    j ≤ v.size := by
  have hs : Positions v [i] := ⟨List.pairwise_singleton _ _, by simpa using hi⟩
  exact (hf.positions hs).within j ((hf.mem_iff hs j).mpr ⟨i, List.mem_singleton_self i, h⟩)

theorem times_append {i k : Nat} : ∀ {m n : Nat},
    Times R (m + n) i k ↔ ∃ j, Times R m i j ∧ Times R n j k
  | 0, n => by simp [Times]
  | m + 1, n => by
      rw [Nat.add_right_comm]
      simp only [Times, times_append (m := m)]
      constructor
      · rintro ⟨j, hj, l, hl, hn⟩
        exact ⟨l, ⟨j, hj, hl⟩, hn⟩
      · rintro ⟨l, ⟨j, hj, hl⟩, hn⟩
        exact ⟨j, hj, l, hl, hn⟩

theorem reflTransGen_iff_times {i j : Nat} : ReflTransGen R i j ↔ ∃ n, Times R n i j := by
  constructor
  · intro h
    induction h using ReflTransGen.head_induction_on with
    | refl => exact ⟨0, rfl⟩
    | head hstep _ ih =>
      obtain ⟨n, hn⟩ := ih
      exact ⟨n + 1, _, hstep, hn⟩
  · rintro ⟨n, hn⟩
    induction n generalizing i with
    | zero =>
      obtain rfl : i = j := hn
      exact ReflTransGen.refl
    | succ n ih =>
      obtain ⟨k, hstep, hk⟩ := hn
      exact ReflTransGen.head hstep (ih hk)

theorem computes_id : Computes v (fun s => s) (· = ·) :=
  ⟨id, fun _ j => by simp⟩

theorem Computes.comp (hf : Computes v f R) (hg : Computes v g Q) :
    Computes v (fun s => g (f s)) fun i k => ∃ j, R i j ∧ Q j k := by
  refine ⟨fun hs => hg.positions (hf.positions hs), fun hs k => ?_⟩
  rw [hg.mem_iff (hf.positions hs)]
  simp only [hf.mem_iff hs]
  constructor
  · rintro ⟨j, ⟨i, hi, hij⟩, hjk⟩
    exact ⟨i, hi, j, hij, hjk⟩
  · rintro ⟨i, hi, j, hij, hjk⟩
    exact ⟨j, ⟨i, hi, hij⟩, hjk⟩

theorem Computes.union (hf : Computes v f R) (hg : Computes v g Q) :
    Computes v (fun s => Pattern.union (f s) (g s)) fun i j => R i j ∨ Q i j := by
  refine ⟨fun hs => (hf.positions hs).union (hg.positions hs), fun hs j => ?_⟩
  rw [mem_union_iff, hf.mem_iff hs, hg.mem_iff hs]
  simp only [and_or_left, exists_or]

/-- From nothing, nothing is reached. -/
theorem Computes.nil (hf : Computes v f R) : f [] = [] := by
  have hs : Positions v [] := ⟨List.Pairwise.nil, by simp⟩
  refine List.eq_nil_iff_forall_not_mem.mpr fun j hj => ?_
  obtain ⟨i, hi, -⟩ := (hf.mem_iff hs j).mp hj
  cases hi

theorem Computes.times (hf : Computes v f R) : ∀ n, Computes v (Pattern.times f n) (Times R n)
  | 0 => computes_id
  | n + 1 => by
      have htail := hf.times n
      have heq : Pattern.times f (n + 1) = fun s => Pattern.times f n (f s) := by
        funext s
        rw [Pattern.times]
        split
        · rename_i hs
          rw [List.isEmpty_iff.mp hs, hf.nil, htail.nil]
        · rfl
      rw [heq]
      exact hf.comp htail

/-! ## 3. Closures -/

/-- A list that no step leaves holds all that it leads to. -/
theorem mem_iff_of_closed (h : ∀ i ∈ s, ∀ j, R i j → j ∈ s) (j : Nat) :
    j ∈ s ↔ ∃ i ∈ s, ReflTransGen R i j := by
  constructor
  · exact fun hj => ⟨j, hj, ReflTransGen.refl⟩
  · rintro ⟨i, hi, hij⟩
    induction hij with
    | refl => exact hi
    | tail _ hstep ih => exact h _ ih _ hstep

/-- What `closure` does to the positions seen so far: only those in front have steps that are not
taken yet.  Each round sees a new position, so the fuel lasts. -/
theorem closure_spec (hf : Computes v f R) : ∀ (fuel : Nat) {seen front : List Nat},
    Positions v seen → Positions v front → front ⊆ seen →
      (∀ i ∈ seen, i ∉ front → ∀ j, R i j → j ∈ seen) → v.size + 1 ≤ fuel + seen.length →
      Positions v (closure f fuel seen front) ∧
        ∀ j, j ∈ closure f fuel seen front ↔ ∃ i ∈ seen, ReflTransGen R i j
  | 0, seen, front, hseen, _, _, _, hfuel => by
      refine ⟨hseen, mem_iff_of_closed fun i hi j hij => ?_⟩
      exact hseen.mem_of_le (by omega) (hf.le (hseen.within i hi) hij)
  | fuel + 1, seen, front, hseen, hfront, hsub, htaken, hfuel => by
      have hnext := hf.positions hfront
      have hnew : ∀ j, j ∈ minus (f front) seen ↔ (∃ i ∈ front, R i j) ∧ j ∉ seen := by
        intro j
        rw [mem_minus_iff j hnext.rising hseen.rising, hf.mem_iff hfront]
      have hreached : ∀ i ∈ seen, ∀ j, R i j → j ∈ seen ∨ j ∈ minus (f front) seen := by
        intro i hi j hij
        by_cases hj : j ∈ seen
        · exact .inl hj
        · by_cases hif : i ∈ front
          · exact .inr ((hnew j).mpr ⟨⟨i, hif, hij⟩, hj⟩)
          · exact .inl (htaken i hi hif j hij)
      rw [closure]
      split
      · rename_i hempty
        rw [List.isEmpty_iff] at hempty
        refine ⟨hseen, mem_iff_of_closed fun i hi j hij => ?_⟩
        rcases hreached i hi j hij with hj | hj
        · exact hj
        · rw [hempty] at hj
          cases hj
      · rename_i hne
        have hgrow : seen.length + 1 ≤ (union seen (minus (f front) seen)).length := by
          obtain ⟨j, hj⟩ := List.exists_mem_of_ne_nil _ fun hnil => hne (List.isEmpty_iff.mpr hnil)
          have hnodup : (j :: seen).Nodup :=
            List.nodup_cons.mpr ⟨((hnew j).mp hj).2, hseen.nodup⟩
          have hinto : j :: seen ⊆ union seen (minus (f front) seen) := by
            intro i hi
            rw [mem_union_iff]
            rcases List.mem_cons.mp hi with rfl | hi
            · exact .inr hj
            · exact .inl hi
          exact (hnodup.subperm hinto).length_le
        obtain ⟨hpos, hmem⟩ := closure_spec hf fuel (hseen.union hnext.minus) hnext.minus
          (fun j hj => (mem_union_iff j _ _).mpr (.inr hj))
          (fun i hi hnot j hij => (mem_union_iff j _ _).mpr
            (hreached i (((mem_union_iff i _ _).mp hi).resolve_right hnot) j hij))
          (by omega)
        refine ⟨hpos, fun j => (hmem j).trans ?_⟩
        constructor
        · rintro ⟨i, hi, hij⟩
          rcases (mem_union_iff i _ _).mp hi with hi | hi
          · exact ⟨i, hi, hij⟩
          · obtain ⟨⟨k, hk, hki⟩, -⟩ := (hnew i).mp hi
            exact ⟨k, hsub hk, ReflTransGen.head hki hij⟩
        · rintro ⟨i, hi, hij⟩
          exact ⟨i, (mem_union_iff i _ _).mpr (.inl hi), hij⟩

theorem Computes.closure (hf : Computes v f R) :
    Computes v (fun s => Pattern.closure f (v.size + 1) s s) (ReflTransGen R) := by
  have hspec : ∀ {s}, Positions v s → _ := fun {s} hs =>
    closure_spec hf (v.size + 1) hs hs (List.Subset.refl s)
      (fun i hi hnot => absurd hi hnot) (by omega)
  exact ⟨fun hs => (hspec hs).1, fun hs => (hspec hs).2⟩

theorem upTo_spec (hf : Computes v f R) : ∀ (n : Nat) {seen front : List Nat},
    Positions v seen → Positions v front → front ⊆ seen →
      Positions v (upTo f n seen front) ∧
        ∀ j, j ∈ upTo f n seen front ↔ j ∈ seen ∨ ∃ m ≤ n, ∃ i ∈ front, Times R m i j
  | 0, seen, front, hseen, _, hsub => by
      refine ⟨hseen, fun j => ⟨.inl, ?_⟩⟩
      rintro (hj | ⟨m, hm, i, hi, hij⟩)
      · exact hj
      · obtain rfl := Nat.le_zero.mp hm
        obtain rfl : i = j := hij
        exact hsub hi
  | n + 1, seen, front, hseen, hfront, hsub => by
      have hnext := hf.positions hfront
      -- One step more from the front is one step fewer from what it leads to.
      have hstep : ∀ j, (j ∈ seen ∨ ∃ m ≤ n + 1, ∃ i ∈ front, Times R m i j) ↔
          j ∈ seen ∨ ∃ m ≤ n, ∃ i ∈ f front, Times R m i j := by
        intro j
        constructor
        · rintro (hj | ⟨m, hm, i, hi, hij⟩)
          · exact .inl hj
          · cases m with
            | zero =>
              obtain rfl : i = j := hij
              exact .inl (hsub hi)
            | succ m =>
              obtain ⟨k, hik, hkj⟩ := hij
              exact .inr ⟨m, by omega, k, (hf.mem_iff hfront k).mpr ⟨i, hi, hik⟩, hkj⟩
        · rintro (hj | ⟨m, hm, k, hk, hkj⟩)
          · exact .inl hj
          · obtain ⟨i, hi, hik⟩ := (hf.mem_iff hfront k).mp hk
            exact .inr ⟨m + 1, by omega, i, hi, k, hik, hkj⟩
      rw [upTo]
      split
      · rename_i hempty
        rw [List.isEmpty_iff] at hempty
        refine ⟨hseen, fun j => ?_⟩
        rw [hstep, hempty]
        simp
      · obtain ⟨hpos, hmem⟩ := upTo_spec hf n (hseen.union hnext) hnext
          (fun j hj => (mem_union_iff j _ _).mpr (.inr hj))
        refine ⟨hpos, fun j => ?_⟩
        rw [hstep, hmem, mem_union_iff]
        constructor
        · rintro ((hj | hj) | hj)
          · exact .inl hj
          · exact .inr ⟨0, by omega, j, hj, rfl⟩
          · exact .inr hj
        · rintro (hj | hj)
          · exact .inl (.inl hj)
          · exact .inr hj

theorem Computes.upTo (hf : Computes v f R) (n : Nat) :
    Computes v (fun s => Pattern.upTo f n s s) fun i j => ∃ m ≤ n, Times R m i j := by
  have hspec : ∀ {s}, Positions v s → _ := fun {s} hs =>
    upTo_spec hf n hs hs (List.Subset.refl s)
  refine ⟨fun hs => (hspec hs).1, fun hs j => ((hspec hs).2 j).trans ?_⟩
  constructor
  · rintro (hj | ⟨m, hm, i, hi, hij⟩)
    · exact ⟨j, hj, 0, by omega, rfl⟩
    · exact ⟨i, hi, m, hm, hij⟩
  · rintro ⟨i, hi, m, hm, hij⟩
    exact .inr ⟨m, hm, i, hi, hij⟩

/-- A number of steps, and then any number of them. -/
theorem times_comp_reflTransGen {i k n : Nat} :
    (∃ j, Times R n i j ∧ ReflTransGen R j k) ↔ ∃ m, n ≤ m ∧ Times R m i k := by
  constructor
  · rintro ⟨j, hfirst, hmore⟩
    obtain ⟨l, hl⟩ := reflTransGen_iff_times.mp hmore
    exact ⟨n + l, by omega, times_append.mpr ⟨j, hfirst, hl⟩⟩
  · rintro ⟨m, hm, htimes⟩
    obtain ⟨l, rfl⟩ := Nat.exists_eq_add_of_le hm
    obtain ⟨j, hfirst, hl⟩ := times_append.mp htimes
    exact ⟨j, hfirst, reflTransGen_iff_times.mpr ⟨l, hl⟩⟩

/-- A number of steps, and then up to as many as are left of a larger number. -/
theorem times_comp_upTo {i k n most : Nat} (h : n ≤ most) :
    (∃ j, Times R n i j ∧ ∃ l ≤ most - n, Times R l j k) ↔
      ∃ m, n ≤ m ∧ m ≤ most ∧ Times R m i k := by
  constructor
  · rintro ⟨j, hfirst, l, hl, hmore⟩
    exact ⟨n + l, by omega, by omega, times_append.mpr ⟨j, hfirst, hmore⟩⟩
  · rintro ⟨m, hm, hmost, htimes⟩
    obtain ⟨l, rfl⟩ := Nat.exists_eq_add_of_le hm
    obtain ⟨j, hfirst, hmore⟩ := times_append.mp htimes
    exact ⟨j, hfirst, l, by omega, hmore⟩

/-! ## 4. Expressions -/

theorem mem_steps_iff (p : Char → Bool) (s : List Nat) (j : Nat) :
    j ∈ steps v p s ↔ ∃ i ∈ s, ∃ c, v[i]? = some c ∧ p c = true ∧ i + 1 = j := by
  unfold steps
  rw [List.mem_filterMap]
  refine exists_congr fun i => and_congr_right fun _ => ?_
  cases v[i]? with
  | none => simp
  | some c => by_cases hc : p c = true <;> simp [hc]

theorem rising_steps (p : Char → Bool) (hs : s.Pairwise (· < ·)) :
    (steps v p s).Pairwise (· < ·) := by
  have hstep : ∀ {i j : Nat}, j ∈ steps v p [i] → j = i + 1 := by
    intro i j hj
    obtain ⟨k, hk, _, -, -, rfl⟩ := (mem_steps_iff p [i] j).mp hj
    rw [List.mem_singleton.mp hk]
  refine List.Pairwise.filterMap _ (fun i k hik i' hi k' hk => ?_) hs
  have hi' : i' = i + 1 := hstep (List.mem_filterMap.mpr ⟨i, List.mem_singleton_self i, hi⟩)
  have hk' : k' = k + 1 := hstep (List.mem_filterMap.mpr ⟨k, List.mem_singleton_self k, hk⟩)
  rw [hi', hk']
  exact Nat.succ_lt_succ hik

theorem computes_steps (p : Char → Bool) :
    Computes v (steps v p) fun i j => ∃ c, v[i]? = some c ∧ p c = true ∧ i + 1 = j := by
  refine ⟨fun {s} hs => ⟨rising_steps p hs.rising, fun j hj => ?_⟩, fun _ => mem_steps_iff p _⟩
  obtain ⟨i, -, c, hc, -, rfl⟩ := (mem_steps_iff p s j).mp hj
  exact (Array.getElem?_eq_some_iff.mp hc).1

theorem computes_filter (p : Nat → Bool) :
    Computes v (List.filter p) fun i j => p i = true ∧ i = j := by
  refine ⟨fun hs => ⟨hs.rising.sublist List.filter_sublist, fun i hi => ?_⟩, fun _ j => ?_⟩
  · exact hs.within i (List.mem_filter.mp hi).1
  · rw [List.mem_filter]
    constructor
    · rintro ⟨hj, hp⟩
      exact ⟨j, hj, hp, rfl⟩
    · rintro ⟨i, hi, hp, rfl⟩
      exact ⟨hi, hp⟩

theorem leads_empty_iff {i j : Nat} : Regex.empty.Leads v i j ↔ i = j := by
  constructor
  · intro h
    cases h
    rfl
  · rintro rfl
    exact .empty

theorem leads_char_iff {code : Nat} {fold : Bool} {i j : Nat} :
    (Regex.char code fold).Leads v i j ↔
      ∃ c, v[i]? = some c ∧ sameChar code fold c = true ∧ i + 1 = j := by
  constructor
  · intro h
    cases h with
    | char hc hp => exact ⟨_, hc, hp, rfl⟩
  · rintro ⟨c, hc, hp, rfl⟩
    exact .char hc hp

theorem leads_any_iff {newline : Bool} {i j : Nat} :
    (Regex.any newline).Leads v i j ↔
      ∃ c, v[i]? = some c ∧ (newline || c != '\n') = true ∧ i + 1 = j := by
  constructor
  · intro h
    cases h with
    | any hc hp => exact ⟨_, hc, hp, rfl⟩
  · rintro ⟨c, hc, hp, rfl⟩
    exact .any hc hp

theorem leads_cls_iff {k : CharClass} {i j : Nat} :
    (Regex.cls k).Leads v i j ↔ ∃ c, v[i]? = some c ∧ k.has c = true ∧ i + 1 = j := by
  constructor
  · intro h
    cases h with
    | cls hc hp => exact ⟨_, hc, hp, rfl⟩
  · rintro ⟨c, hc, hp, rfl⟩
    exact .cls hc hp

theorem leads_anchor_iff {a : Anchor} {i j : Nat} :
    (Regex.anchor a).Leads v i j ↔ a.holds v i = true ∧ i = j := by
  constructor
  · intro h
    cases h with
    | anchor ha => exact ⟨ha, rfl⟩
  · rintro ⟨ha, rfl⟩
    exact .anchor ha

theorem leads_seq_iff {r q : Regex} {i k : Nat} :
    (Regex.seq r q).Leads v i k ↔ ∃ j, r.Leads v i j ∧ q.Leads v j k := by
  constructor
  · rintro (_ | _ | _ | _ | _ | ⟨hr, hq⟩)
    exact ⟨_, hr, hq⟩
  · rintro ⟨j, hr, hq⟩
    exact .seq hr hq

theorem leads_alt_iff {r q : Regex} {i j : Nat} :
    (Regex.alt r q).Leads v i j ↔ r.Leads v i j ∨ q.Leads v i j := by
  constructor
  · intro h
    cases h with
    | altLeft hr => exact .inl hr
    | altRight hq => exact .inr hq
  · exact fun h => h.elim .altLeft .altRight

theorem leads_group_iff {r : Regex} {i j : Nat} : (Regex.group r).Leads v i j ↔ r.Leads v i j := by
  constructor
  · intro h
    cases h with
    | group hr => exact hr
  · exact .group

theorem leads_star_iff {r : Regex} {i k : Nat} :
    (Regex.star r).Leads v i k ↔ ReflTransGen (r.Leads v) i k := by
  constructor
  · intro h
    generalize hq : Regex.star r = q at h
    induction h with
    | starNil => exact ReflTransGen.refl
    | starCons hr _ _ ih =>
      cases hq
      exact ReflTransGen.head hr (ih rfl)
    | _ => cases hq
  · intro h
    induction h using ReflTransGen.head_induction_on with
    | refl => exact .starNil
    | head hr _ ih => exact .starCons hr ih

theorem leads_plus_iff {r : Regex} {i k : Nat} :
    (Regex.plus r).Leads v i k ↔ ∃ j, r.Leads v i j ∧ ReflTransGen (r.Leads v) j k := by
  constructor
  · intro h
    cases h with
    | plus hr hs => exact ⟨_, hr, leads_star_iff.mp hs⟩
  · rintro ⟨j, hr, hs⟩
    exact .plus hr (leads_star_iff.mpr hs)

theorem leads_opt_iff {r : Regex} {i j : Nat} :
    (Regex.opt r).Leads v i j ↔ i = j ∨ r.Leads v i j := by
  constructor
  · intro h
    cases h with
    | optNil => exact .inl rfl
    | optSome hr => exact .inr hr
  · rintro (rfl | hr)
    · exact .optNil
    · exact .optSome hr

theorem leads_rep_iff {r : Regex} {min : Nat} {max : Option Nat} {i k : Nat} :
    (Regex.rep min max r).Leads v i k ↔
      ∃ n, min ≤ n ∧ (∀ m, max = some m → n ≤ m) ∧ Times (r.Leads v) n i k := by
  constructor
  · intro h
    generalize hq : Regex.rep min max r = q at h
    induction h generalizing min max with
    | repNil =>
      cases hq
      exact ⟨0, Nat.le_refl 0, fun m _ => Nat.zero_le m, rfl⟩
    | repMore hmax hr _ _ ih =>
      cases hq
      obtain ⟨n, hmin, hn, htimes⟩ := ih rfl
      refine ⟨n + 1, by omega, fun m hm => ?_, _, hr, htimes⟩
      subst hm
      have hle := hn (m - 1) rfl
      have hpos : m ≠ 0 := fun h0 => hmax (by rw [h0])
      omega
    | _ => cases hq
  · rintro ⟨n, hmin, hmax, htimes⟩
    induction n generalizing min max i with
    | zero =>
      obtain rfl : i = k := htimes
      obtain rfl : min = 0 := Nat.le_zero.mp hmin
      exact .repNil
    | succ n ih =>
      obtain ⟨j, hr, htimes⟩ := htimes
      refine .repMore (fun h0 => ?_) hr (ih (by omega) (fun m hm => ?_) htimes)
      · exact Nat.not_succ_le_zero n (hmax 0 h0)
      · obtain ⟨l, hl, rfl⟩ := Option.map_eq_some_iff.mp hm
        have hle := hmax l hl
        omega

/-- No repetition of an expression asks for more than it allows. -/
def Regex.Counted : Regex → Prop
  | .seq r s => r.Counted ∧ s.Counted
  | .alt r s => r.Counted ∧ s.Counted
  | .group r => r.Counted
  | .star r => r.Counted
  | .plus r => r.Counted
  | .opt r => r.Counted
  | .rep min max r => (∀ m, max = some m → min ≤ m) ∧ r.Counted
  | _ => True

/-- **An expression computes the relation that its rules state.** -/
theorem computes_ends (v : Array Char) (r : Regex) (hr : r.Counted) :
    Computes v (r.ends v) (r.Leads v) := by
  induction r with
  | empty => exact computes_id.congr fun _ _ => leads_empty_iff.symm
  | char code fold => exact (computes_steps _).congr fun _ _ => leads_char_iff.symm
  | any newline => exact (computes_steps _).congr fun _ _ => leads_any_iff.symm
  | cls k => exact (computes_steps _).congr fun _ _ => leads_cls_iff.symm
  | anchor a => exact (computes_filter _).congr fun _ _ => leads_anchor_iff.symm
  | seq r q ihr ihq =>
    have hq := ihq hr.2
    have heq : (Regex.seq r q).ends v = fun s => q.ends v (r.ends v s) := by
      funext s
      rw [Regex.ends]
      split
      · rename_i hmid
        rw [List.isEmpty_iff.mp hmid, hq.nil]
      · rfl
    rw [heq]
    exact ((ihr hr.1).comp hq).congr fun _ _ => leads_seq_iff.symm
  | alt r q ihr ihq => exact ((ihr hr.1).union (ihq hr.2)).congr fun _ _ => leads_alt_iff.symm
  | group r ih => exact (ih hr).congr fun _ _ => leads_group_iff.symm
  | star r ih => exact (ih hr).closure.congr fun _ _ => leads_star_iff.symm
  | plus r ih => exact ((ih hr).comp (ih hr).closure).congr fun _ _ => leads_plus_iff.symm
  | opt r ih => exact (computes_id.union (ih hr)).congr fun _ _ => leads_opt_iff.symm
  | rep min max r ih =>
    have hfirst := (ih hr.2).times min
    cases max with
    | none =>
      refine (hfirst.comp (ih hr.2).closure).congr fun i k => ?_
      rw [leads_rep_iff, times_comp_reflTransGen]
      simp
    | some most =>
      refine (hfirst.comp ((ih hr.2).upTo (most - min))).congr fun i k => ?_
      rw [leads_rep_iff, times_comp_upTo (hr.1 most rfl)]
      simp

/-- **An expression is found in a text exactly if it leads from one of its positions on.** -/
theorem found_iff {r : Regex} (hr : r.Counted) (text : String) :
    r.found text = true ↔
      ∃ i ≤ text.toList.length, ∃ j, r.Leads text.toList.toArray i j := by
  have hends := computes_ends text.toList.toArray r hr
  have hall : Positions text.toList.toArray (List.range (text.toList.toArray.size + 1)) :=
    ⟨List.pairwise_lt_range, fun i hi => Nat.le_of_lt_succ (List.mem_range.mp hi)⟩
  have hstart : ∀ i, i ∈ List.range (text.toList.toArray.size + 1) ↔ i ≤ text.toList.length := by
    intro i
    rw [List.mem_range, List.size_toArray, Nat.lt_succ_iff]
  have hsome : ∀ s : List Nat, (!s.isEmpty) = true ↔ ∃ j, j ∈ s := by
    intro s
    cases s <;> simp
  rw [Regex.found, hsome]
  simp only [hends.mem_iff hall, hstart]
  constructor
  · rintro ⟨j, i, hi, hij⟩
    exact ⟨i, hi, j, hij⟩
  · rintro ⟨i, hi, j, hij⟩
    exact ⟨j, i, hi, hij⟩

end DocAudit.Pattern
