import DocAudit.Severity
import Mathlib.Tactic.SplitIfs

/-!
# Moving along the scale

A shift adds its distance to the rank of a severity as 64-bit numbers, and only then looks where the
sum lies on the scale.

* `Overflows`: the sum is too large for a 64-bit number; `overflows_iff` names the three pairs of a
  severity and a distance for which it is;
* `rank_shift` and `shift_of_overflows`: where a shift ends, in whole numbers;
* `shift_stops_at_ends`: unless the sum overflows, a shift stops at the ends of the scale and keeps
  the order of severities and of distances.
-/

namespace DocAudit.Severity

variable {s t : Severity} {n : Int64}

/-! ## 1. The scale -/

theorem isValid_iff (s : Severity) : s.isValid = true ↔ s ∈ scale := by
  unfold isValid rank scale
  by_cases h₀ : s = info
  · simp [h₀]
  · by_cases h₁ : s = warn
    · simp [h₁]
      decide
    · by_cases h₂ : s = error
      · simp [h₂]
        decide
      · simp [h₀, h₁, h₂]

theorem text_ne_empty {s : Severity} (h : s ∈ scale) : s.text ≠ "" := by
  simp only [scale, List.mem_cons, List.not_mem_nil, or_false] at h
  rcases h with rfl | rfl | rfl <;> decide

/-- A shifted severity is on the scale if it was, also where the sum of rank and distance wraps. -/
theorem shift_mem_scale {s : Severity} (h : s ∈ scale) (n : Int64) : s.shift n ∈ scale := by
  simp only [shift, (isValid_iff s).mpr h, if_true]
  split_ifs <;> simp [scale]

theorem isValid_shift (h : s.isValid = true) (n : Int64) : (s.shift n).isValid = true := by
  rw [isValid_iff] at h ⊢
  exact shift_mem_scale h n

/-- The severities of the scale and their ranks. -/
theorem rank_cases (h : s.isValid = true) :
    s = info ∧ s.rank.toInt = 0 ∨ s = warn ∧ s.rank.toInt = 1 ∨ s = error ∧ s.rank.toInt = 2 := by
  have hs := (isValid_iff s).mp h
  simp only [scale, List.mem_cons, List.not_mem_nil, or_false] at hs
  rcases hs with rfl | rfl | rfl <;> decide

theorem rank_bounds (h : s.isValid = true) : 0 ≤ s.rank.toInt ∧ s.rank.toInt ≤ 2 := by
  rcases rank_cases h with ⟨-, h⟩ | ⟨-, h⟩ | ⟨-, h⟩ <;> omega

/-- Severities of the scale are told apart by their ranks. -/
theorem eq_of_rank_eq (hs : s.isValid = true) (ht : t.isValid = true)
    (h : s.rank.toInt = t.rank.toInt) : s = t := by
  rcases rank_cases hs with ⟨rfl, hs⟩ | ⟨rfl, hs⟩ | ⟨rfl, hs⟩ <;>
    rcases rank_cases ht with ⟨rfl, ht⟩ | ⟨rfl, ht⟩ | ⟨rfl, ht⟩
  all_goals first | rfl | omega

theorem atLeast_iff_toInt : s.atLeast t = true ↔ t.rank.toInt ≤ s.rank.toInt := by
  rw [atLeast, decide_eq_true_iff, Int64.le_iff_toInt_le]

/-! ## 2. Sums of ranks and distances -/

/-- The place of the scale that is nearest to a number. -/
def nearestPlace (z : Int) : Int := max 0 (min 2 z)

/-- The sum of a severity's rank and a distance is too large for a 64-bit number. -/
def Overflows (s : Severity) (n : Int64) : Prop :=
  Int64.maxValue.toInt < s.rank.toInt + n.toInt

theorem toInt_maxValue : Int64.maxValue.toInt = 9223372036854775807 := by
  decide

/-- The largest distance but one. -/
theorem toInt_maxValue_sub_one : (Int64.maxValue - 1).toInt = 9223372036854775806 := by
  decide

theorem toInt_rank_add (hs : s.isValid = true) (h : ¬ Overflows s n) :
    (s.rank + n).toInt = s.rank.toInt + n.toInt := by
  have hrank := rank_bounds hs
  have hlow := Int64.le_toInt n
  rw [Overflows, toInt_maxValue] at h
  rw [Int64.toInt_add]
  exact Int.bmod_eq_of_le (by omega) (by omega)

theorem rank_add_neg (hs : s.isValid = true) (h : Overflows s n) : (s.rank + n).toInt < 0 := by
  have hrank := rank_bounds hs
  have hhigh := Int64.toInt_lt n
  rw [Overflows, toInt_maxValue] at h
  rw [Int64.toInt_add, ← Int.sub_bmod_right, Int.bmod_eq_of_le (by omega) (by omega)]
  omega

/-- A sum overflows if its distance is among the two largest numbers, from above the bottom. -/
theorem overflows_iff (hs : s.isValid = true) :
    Overflows s n ↔ s = warn ∧ n = Int64.maxValue ∨
      s = error ∧ (n = Int64.maxValue - 1 ∨ n = Int64.maxValue) := by
  have hhigh := Int64.toInt_lt n
  rw [Overflows, ← Int64.toInt_inj, ← Int64.toInt_inj, toInt_maxValue, toInt_maxValue_sub_one]
  rcases rank_cases hs with ⟨rfl, h⟩ | ⟨rfl, h⟩ | ⟨rfl, h⟩
  · have hw : info ≠ warn := by decide
    have he : info ≠ error := by decide
    simp only [hw, he, false_and, or_false, iff_false]
    omega
  · have he : warn ≠ error := by decide
    simp only [he, false_and, or_false, true_and]
    omega
  · have hw : error ≠ warn := by decide
    simp only [hw, false_and, false_or, true_and]
    omega

/-! ## 3. Where a shift ends -/

/-- A shift looks where the sum of rank and distance lies on the scale. -/
theorem rank_shift_eq (hs : s.isValid = true) (n : Int64) :
    (s.shift n).rank.toInt = nearestPlace (s.rank + n).toInt := by
  have hinfo : info.rank.toInt = 0 := by decide
  have hwarn : warn.rank.toInt = 1 := by decide
  have herror : error.rank.toInt = 2 := by decide
  have hzero : (0 : Int64).toInt = 0 := by decide
  have htwo : (2 : Int64).toInt = 2 := by decide
  simp only [shift, hs, if_true, ge_iff_le, beq_iff_eq, Int64.lt_iff_toInt_lt,
    Int64.le_iff_toInt_le, ← Int64.toInt_inj, hzero, htwo]
  unfold nearestPlace
  split_ifs <;> omega

/-- **Unless the sum overflows, a shift ends at the place nearest to it.** -/
theorem rank_shift (hs : s.isValid = true) (h : ¬ Overflows s n) :
    (s.shift n).rank.toInt = nearestPlace (s.rank.toInt + n.toInt) := by
  rw [rank_shift_eq hs, toInt_rank_add hs h]

/-- A sum that overflows is negative, so the shift ends at the bottom. -/
theorem shift_of_overflows (hs : s.isValid = true) (h : Overflows s n) : s.shift n = info := by
  have hneg : s.rank + n < 0 := Int64.lt_iff_toInt_lt.mpr (rank_add_neg hs h)
  simp only [shift, hs, if_true, hneg]

/-! ## 4. The order of shifts -/

theorem not_overflows_of_le {m : Int64} (hrank : t.atLeast s = true) (hn : n ≤ m)
    (h : ¬ Overflows t m) : ¬ Overflows s n := by
  rw [atLeast_iff_toInt] at hrank
  rw [Int64.le_iff_toInt_le] at hn
  unfold Overflows at h ⊢
  omega

/-- **A shift keeps the order** of severities and of distances, unless the larger sum overflows. -/
theorem shift_mono (hs : s.isValid = true) (ht : t.isValid = true) {m : Int64}
    (hrank : t.atLeast s = true) (hn : n ≤ m) (h : ¬ Overflows t m) :
    (t.shift m).atLeast (s.shift n) = true := by
  have hsmaller : ¬ Overflows s n := not_overflows_of_le hrank hn h
  rw [atLeast_iff_toInt, rank_shift hs hsmaller, rank_shift ht h]
  rw [atLeast_iff_toInt] at hrank
  rw [Int64.le_iff_toInt_le] at hn
  unfold nearestPlace
  omega

theorem not_overflows_zero (hs : s.isValid = true) : ¬ Overflows s 0 := by
  have hrank := rank_bounds hs
  have hzero : (0 : Int64).toInt = 0 := by decide
  rw [Overflows, toInt_maxValue]
  omega

theorem shift_zero (hs : s.isValid = true) : s.shift 0 = s := by
  have hrank := rank_bounds hs
  have hzero : (0 : Int64).toInt = 0 := by decide
  refine eq_of_rank_eq (isValid_shift hs 0) hs ?_
  rw [rank_shift hs (not_overflows_zero hs), hzero]
  unfold nearestPlace
  omega

/-! ## 5. The whole -/

/-- **A shift stops at the ends of the scale, unless the sum of rank and distance overflows.**  For
the severities of the scale it is then the one whose rank is nearest to the sum in whole numbers; it
keeps the order of severities and of distances and does not go against its direction.  The sum
overflows for three pairs of a severity and a distance, and for these the shift ends at the bottom. -/
theorem shift_stops_at_ends (hs : s.isValid = true) (n : Int64) :
    (¬ Overflows s n → ∀ t : Severity, t = s.shift n ↔
      t.isValid = true ∧ t.rank.toInt = nearestPlace (s.rank.toInt + n.toInt)) ∧
    (∀ t m, t.isValid = true → t.atLeast s = true → n ≤ m → ¬ Overflows t m →
      (t.shift m).atLeast (s.shift n) = true) ∧
    (0 ≤ n → ¬ Overflows s n → (s.shift n).atLeast s = true) ∧
    (n ≤ 0 → s.atLeast (s.shift n) = true) ∧
    (Overflows s n ↔ s = warn ∧ n = Int64.maxValue ∨
      s = error ∧ (n = Int64.maxValue - 1 ∨ n = Int64.maxValue)) ∧
    (Overflows s n → s.shift n = info) := by
  have hself : s.atLeast s = true := atLeast_iff_toInt.mpr (Int.le_refl _)
  refine ⟨fun h t => ⟨?_, ?_⟩, fun t m ht hrank hn => shift_mono hs ht hrank hn, fun hn h => ?_,
    fun hn => ?_, overflows_iff hs, shift_of_overflows hs⟩
  · rintro rfl
    exact ⟨isValid_shift hs n, rank_shift hs h⟩
  · rintro ⟨ht, hrank⟩
    exact eq_of_rank_eq ht (isValid_shift hs n) (hrank.trans (rank_shift hs h).symm)
  · have hup := shift_mono hs hs hself hn h
    rwa [shift_zero hs] at hup
  · have hdown := shift_mono hs hs hself hn (not_overflows_zero hs)
    rwa [shift_zero hs] at hdown

/-- The largest distance for which the middle severity does not overflow leads to the top. -/
theorem shift_stops_at_ends_largest :
    warn.isValid = true ∧ ¬ Overflows warn (Int64.maxValue - 1) ∧
      error = warn.shift (Int64.maxValue - 1) ∧
      (warn.shift (Int64.maxValue - 1)).atLeast warn = true := by
  have hvalid : warn.isValid = true := by decide
  have hfits : ¬ Overflows warn (Int64.maxValue - 1) := by
    unfold Overflows
    decide
  obtain ⟨hnearest, -, hup, -⟩ := shift_stops_at_ends hvalid (Int64.maxValue - 1)
  exact ⟨hvalid, hfits, (hnearest hfits error).mpr (by decide), hup (by decide) hfits⟩

/-- **One further, the middle severity goes down**, although the sum lies above the scale. -/
theorem shift_lowers_at_largest :
    warn.isValid = true ∧ 0 < Int64.maxValue ∧
      nearestPlace (warn.rank.toInt + Int64.maxValue.toInt) = error.rank.toInt ∧
      warn.shift Int64.maxValue = info ∧ (warn.shift Int64.maxValue).atLeast warn = false := by
  decide

end DocAudit.Severity
