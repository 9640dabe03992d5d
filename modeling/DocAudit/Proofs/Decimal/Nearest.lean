import DocAudit.Decimal.Binary64
import Mathlib.Algebra.Order.Field.Power
import Mathlib.Algebra.Order.Floor.Semifield
import Mathlib.Data.Rat.Floor
import Mathlib.Tactic.FieldSimp
import Mathlib.Tactic.Linarith
import Mathlib.Tactic.NormNum
import Mathlib.Tactic.Positivity
import Mathlib.Tactic.Ring

/-!
# The number that a decimal is read as

A finite number with the mantissa `m` and the exponent `q` is read from every decimal that is nearer
to `m · 2 ^ q` than to the numbers beside it.

* `Binary64.ReadsAs`: the magnitudes between the middles to the neighbours; the middles themselves
  count for an even mantissa;
* `ofRatio_of_readsAs` and `ofDecimal_of_readsAs`: a fraction and a decimal of such a magnitude are
  read as the number.
-/

namespace DocAudit.Decimal.Binary64

variable {x : Binary64} {num den m n d k : Nat} {q e : Int} {v : ℚ}

/-! ## 1. The parts of a number -/

/-- A number that is neither infinite nor NaN. -/
def Finite (x : Binary64) : Prop := x.exponentBits ≠ 2047

instance (x : Binary64) : Decidable x.Finite := inferInstanceAs (Decidable (_ ≠ _))

/-- The mantissa of a number. -/
def mantissa (x : Binary64) : Nat := x.parts.1

/-- The exponent of a number. -/
def exponent (x : Binary64) : Int := x.parts.2

/-- The number below has a smaller exponent, so it is only half as far away as the one above. -/
def Narrow (x : Binary64) : Prop := x.fractionBits = 0 ∧ 1 < x.exponentBits

instance (x : Binary64) : Decidable x.Narrow := inferInstanceAs (Decidable (_ ∧ _))

theorem fractionBits_lt (x : Binary64) : x.fractionBits < 2 ^ 52 := Nat.mod_lt _ (by decide)

theorem exponentBits_lt (x : Binary64) : x.exponentBits < 2 ^ 11 := Nat.mod_lt _ (by decide)

/-- The mantissa and the exponent of a number are within bounds, and tell its bits. -/
theorem parts_spec (hx : x.Finite) :
    x.mantissa < 2 ^ 53 ∧ -1074 ≤ x.exponent ∧ x.exponent ≤ 971 ∧
      (x.exponent = -1074 ∨ 2 ^ 52 ≤ x.mantissa) ∧
      (x.Narrow ↔ x.mantissa = 2 ^ 52 ∧ -1074 < x.exponent) ∧
      (x.exponent + 1074).toNat * 2 ^ 52 + x.mantissa =
        x.exponentBits * 2 ^ 52 + x.fractionBits := by
  have hfraction := x.fractionBits_lt
  have hexponent := x.exponentBits_lt
  have htwo : twoTo 52 = 2 ^ 52 := rfl
  unfold Finite at hx
  unfold mantissa exponent parts Narrow
  split
  · rename_i hzero
    rw [beq_iff_eq] at hzero
    dsimp only
    omega
  · rename_i hnonzero
    rw [beq_iff_eq] at hnonzero
    dsimp only
    omega

/-- A number between zero and one is finite. -/
theorem finite_of_le (hlow : Binary64.le .zero x = true) (hhigh : x.le .one = true) : x.Finite := by
  have hends : zero.orderKey = 0 ∧ one.orderKey = 1023 * 2 ^ 52 := by decide +kernel
  simp only [le, Bool.and_eq_true, decide_eq_true_eq, hends] at hlow hhigh
  have htwo : twoTo 63 = 2 ^ 63 ∧ twoTo 52 = 2 ^ 52 ∧ twoTo 11 = 2 ^ 11 := ⟨rfl, rfl, rfl⟩
  intro hmost
  have hlarge : 2047 * 2 ^ 52 ≤ x.bits.toNat % twoTo 63 := by
    unfold exponentBits at hmost
    rw [htwo.2.1, htwo.2.2] at hmost
    rw [htwo.1]
    omega
  have hkey : x.orderKey = (x.bits.toNat % twoTo 63 : Nat) ∨
      x.orderKey = -(x.bits.toNat % twoTo 63 : Nat) := by
    unfold orderKey
    cases x.negative
    · exact .inl rfl
    · exact .inr rfl
  omega

/-- The bits of a number are those of its sign and its magnitude. -/
theorem ofMagnitude_bits (x : Binary64) :
    ofMagnitude x.negative (x.exponentBits * 2 ^ 52 + x.fractionBits) = x := by
  have hlt : x.bits.toNat < 2 ^ 64 := x.bits.toNat_lt
  have hsign : x.bits.toNat / twoTo 63 = if x.negative then 1 else 0 := by
    have htwo : twoTo 63 = 2 ^ 63 := rfl
    unfold negative
    rw [htwo]
    split
    · rename_i h
      exact beq_iff_eq.mp h
    · rename_i h
      rw [beq_iff_eq] at h
      omega
  have hsum : x.exponentBits * 2 ^ 52 + x.fractionBits + (if x.negative then twoTo 63 else 0) =
      x.bits.toNat := by
    have htwo : twoTo 63 = 2 ^ 63 ∧ twoTo 52 = 2 ^ 52 ∧ twoTo 11 = 2 ^ 11 := ⟨rfl, rfl, rfl⟩
    unfold exponentBits fractionBits
    rw [htwo.1] at hsign
    rw [htwo.1, htwo.2.1, htwo.2.2]
    cases hneg : x.negative
    · simp only [hneg, Bool.false_eq_true, if_false] at hsign ⊢
      omega
    · simp only [hneg, if_true] at hsign ⊢
      omega
  unfold ofMagnitude
  rw [hsum]
  exact congrArg Binary64.mk (UInt64.ofNat_toNat (x := x.bits))

/-! ## 2. What is read as a number -/

/-- The magnitude of a finite number. -/
def magnitude (x : Binary64) : ℚ := x.mantissa * 2 ^ x.exponent

/-- The middle between a number and the one below it. -/
def lowEnd (x : Binary64) : ℚ :=
  (x.mantissa - if x.Narrow then 1 / 4 else 1 / 2) * 2 ^ x.exponent

/-- The middle between a number and the one above it. -/
def highEnd (x : Binary64) : ℚ := (x.mantissa + 1 / 2) * 2 ^ x.exponent

theorem magnitude_pos (x : Binary64) (hm : x.mantissa ≠ 0) : 0 < x.magnitude := by
  have hpos : (0 : ℚ) < x.mantissa := by exact_mod_cast Nat.pos_of_ne_zero hm
  unfold magnitude
  positivity

theorem lowEnd_pos (x : Binary64) (hm : x.mantissa ≠ 0) : 0 < x.lowEnd := by
  have hone : (1 : ℚ) ≤ x.mantissa := by exact_mod_cast Nat.pos_of_ne_zero hm
  have hpos : (0 : ℚ) < x.mantissa - if x.Narrow then 1 / 4 else 1 / 2 := by
    split <;> linarith
  unfold lowEnd
  positivity

theorem lowEnd_lt_magnitude (x : Binary64) : x.lowEnd < x.magnitude := by
  unfold lowEnd magnitude
  gcongr
  split <;> linarith

theorem magnitude_lt_highEnd (x : Binary64) : x.magnitude < x.highEnd := by
  unfold highEnd magnitude
  gcongr
  linarith

/-- **A magnitude that is nearest to a number's**; a middle goes to the even mantissa. -/
structure ReadsAs (x : Binary64) (v : ℚ) : Prop where
  low : x.lowEnd ≤ v
  high : v ≤ x.highEnd
  ends : v = x.lowEnd ∨ v = x.highEnd → x.mantissa % 2 = 0

/-- A quotient is rounded to the number it is nearest to. -/
theorem roundDiv_eq (hd : 0 < d) (hlow : (k : ℚ) - 1 / 2 ≤ n / d) (hhigh : (n : ℚ) / d ≤ k + 1 / 2)
    (hends : (n : ℚ) / d = k - 1 / 2 ∨ (n : ℚ) / d = k + 1 / 2 → k % 2 = 0) :
    roundDiv n d = k := by
  have hd' : (0 : ℚ) < d := by exact_mod_cast hd
  have hlow' : 2 * (d * k) ≤ 2 * n + d := by
    rw [le_div_iff₀ hd'] at hlow
    have : (2 * (d * k) : ℚ) ≤ 2 * n + d := by linarith
    exact_mod_cast this
  have hhigh' : 2 * n ≤ 2 * (d * k) + d := by
    rw [div_le_iff₀ hd'] at hhigh
    have : (2 * n : ℚ) ≤ 2 * (d * k) + d := by linarith
    exact_mod_cast this
  have hends' : 2 * n + d = 2 * (d * k) ∨ 2 * n = 2 * (d * k) + d → k % 2 = 0 := by
    refine fun h => hends (h.imp (fun h => ?_) fun h => ?_)
    · rw [div_eq_iff hd'.ne']
      have : (2 * n + d : ℚ) = 2 * (d * k) := by exact_mod_cast h
      linarith
    · rw [div_eq_iff hd'.ne']
      have : (2 * n : ℚ) = 2 * (d * k) + d := by exact_mod_cast h
      linarith
  obtain ⟨t, ht⟩ : ∃ t, n / d = t := ⟨_, rfl⟩
  obtain ⟨r, hr⟩ : ∃ r, n % d = r := ⟨_, rfl⟩
  have hdiv : d * t + r = n := by rw [← ht, ← hr, Nat.div_add_mod]
  have hrd : r < d := hr ▸ Nat.mod_lt n hd
  have hle : t ≤ k := by
    by_contra hgt
    have hmul := Nat.mul_le_mul_left d (Nat.succ_le_of_lt (not_le.mp hgt))
    rw [Nat.mul_succ] at hmul
    omega
  have hge : k ≤ t + 1 := by
    by_contra hlt
    have hmul := Nat.mul_le_mul_left d (Nat.succ_le_of_lt (not_le.mp hlt))
    rw [Nat.mul_succ, Nat.mul_succ] at hmul
    omega
  unfold roundDiv
  rw [ht, hr]
  dsimp only
  obtain rfl | rfl : k = t ∨ k = t + 1 := by omega
  · have htie : 2 * r = d → k % 2 = 0 := fun h => hends' (.inr (by omega))
    simp only [Bool.or_eq_true, Bool.and_eq_true, decide_eq_true_eq, beq_iff_eq, ite_eq_right_iff]
    omega
  · rw [Nat.mul_succ] at hlow' hhigh' hends'
    have htie : 2 * r = d → (t + 1) % 2 = 0 := fun h => hends' (.inl (by omega))
    simp only [Bool.or_eq_true, Bool.and_eq_true, decide_eq_true_eq, beq_iff_eq, ite_eq_left_iff]
    omega

/-! ## 3. Fractions -/

/-- A quotient scaled by a power of two, as a quotient of whole numbers. -/
theorem scaled_eq (q : Int) :
    (if q ≥ 0 then (num : ℚ) / (den * twoTo q.toNat : Nat)
      else (num * twoTo (-q).toNat : Nat) / den) = num / den / 2 ^ q := by
  split
  · rename_i h
    obtain ⟨j, rfl⟩ := Int.eq_ofNat_of_zero_le h
    simp [twoTo, div_div]
  · rename_i h
    obtain ⟨j, hj⟩ : ∃ j : Nat, q = -j := ⟨(-q).toNat, by omega⟩
    subst hj
    simp [twoTo]
    ring

/-- The exponent at which a fraction has as many binary digits as a mantissa. -/
def quotientExponent (num den : Nat) : Int :=
  let guess : Int := (num.log2 : Int) - (den.log2 : Int) - 52
  let low := if guess ≥ 0 then num / (den * twoTo guess.toNat) else num * twoTo (-guess).toNat / den
  if low < twoTo 52 then guess - 1 else guess

theorem ofRatio_eq (neg : Bool) (hnum : num ≠ 0) (hden : den ≠ 0) :
    ofRatio neg num den =
      (let q := max (quotientExponent num den) (-1074)
      let m :=
        if q ≥ 0 then roundDiv num (den * twoTo q.toNat) else roundDiv (num * twoTo (-q).toNat) den
      if m < twoTo 52 then ofMagnitude neg m
      else if q > 971 || (q == 971 && m == twoTo 53) then ofMagnitude neg (2047 * twoTo 52)
      else ofMagnitude neg ((q + 1074).toNat * twoTo 52 + m)) := by
  unfold ofRatio
  rw [if_neg (by simp [hnum, hden])]
  rfl

/-- The floor of a scaled quotient, as it is computed. -/
theorem floor_scaled (num den : Nat) (q : Int) :
    (if q ≥ 0 then num / (den * twoTo q.toNat) else num * twoTo (-q).toNat / den) =
      ⌊(num : ℚ) / den / 2 ^ q⌋₊ := by
  rw [← scaled_eq]
  split <;> rw [Nat.floor_div_eq_div]

theorem log2_bounds (hnum : num ≠ 0) :
    (2 : ℚ) ^ (num.log2 : Int) ≤ num ∧ (num : ℚ) < 2 ^ ((num.log2 : Int) + 1) := by
  have hlow : 2 ^ num.log2 ≤ num := Nat.log2_self_le hnum
  have hhigh : num < 2 ^ (num.log2 + 1) := Nat.lt_log2_self
  constructor
  · rw [zpow_natCast]
    exact_mod_cast hlow
  · exact_mod_cast hhigh

theorem quotientExponent_spec (hnum : num ≠ 0) (hden : den ≠ 0) :
    (2 : ℚ) ^ (quotientExponent num den + 52) ≤ num / den ∧
      (num : ℚ) / den < 2 ^ (quotientExponent num den + 53) := by
  obtain ⟨hnlow, hnhigh⟩ := log2_bounds hnum
  obtain ⟨hdlow, hdhigh⟩ := log2_bounds hden
  have hdpos : (0 : ℚ) < den := by exact_mod_cast Nat.pos_of_ne_zero hden
  obtain ⟨g, hg⟩ : ∃ g : Int, g = (num.log2 : Int) - den.log2 - 52 := ⟨_, rfl⟩
  have hlow : (2 : ℚ) ^ (g + 51) ≤ num / den := by
    rw [le_div_iff₀ hdpos]
    calc (2 : ℚ) ^ (g + 51) * den ≤ 2 ^ (g + 51) * 2 ^ ((den.log2 : Int) + 1) := by gcongr
      _ = 2 ^ (num.log2 : Int) := by
          rw [← zpow_add₀ (by norm_num)]
          congr 1
          omega
      _ ≤ num := hnlow
  have hhigh : (num : ℚ) / den < 2 ^ (g + 53) := by
    rw [div_lt_iff₀ hdpos]
    calc (num : ℚ) < 2 ^ ((num.log2 : Int) + 1) := hnhigh
      _ = 2 ^ (g + 53) * 2 ^ (den.log2 : Int) := by
          rw [← zpow_add₀ (by norm_num)]
          congr 1
          omega
      _ ≤ 2 ^ (g + 53) * den := by gcongr
  have hfloor := floor_scaled num den g
  have hsplit : (if g ≥ 0 then num / (den * twoTo g.toNat) else num * twoTo (-g).toNat / den) <
      twoTo 52 ↔ (num : ℚ) / den < 2 ^ (g + 52) := by
    rw [hfloor, Nat.floor_lt (by positivity), div_lt_iff₀ (by positivity), zpow_add₀ (by norm_num)]
    norm_num [twoTo, mul_comm]
  have hguess : quotientExponent num den = if (num : ℚ) / den < 2 ^ (g + 52) then g - 1 else g := by
    unfold quotientExponent
    dsimp only
    rw [← hg]
    simp only [hsplit]
  rw [hguess]
  split
  · rename_i hless
    rw [show g - 1 + 52 = g + 51 by omega, show g - 1 + 53 = g + 52 by omega]
    exact ⟨hlow, hless⟩
  · rename_i hless
    exact ⟨not_lt.mp hless, hhigh⟩

/-- The scaled quotient, rounded. -/
theorem roundDiv_scaled (hden : den ≠ 0) (hlow : (k : ℚ) - 1 / 2 ≤ num / den / 2 ^ q)
    (hhigh : (num : ℚ) / den / 2 ^ q ≤ k + 1 / 2)
    (hends : (num : ℚ) / den / 2 ^ q = k - 1 / 2 ∨ (num : ℚ) / den / 2 ^ q = k + 1 / 2 →
      k % 2 = 0) :
    (if q ≥ 0 then roundDiv num (den * twoTo q.toNat) else roundDiv (num * twoTo (-q).toNat) den) =
      k := by
  rw [← scaled_eq] at hlow hhigh hends
  have htwo : ∀ j, 0 < twoTo j := fun j => by simp [twoTo]
  split at hlow
  · rename_i h
    rw [if_pos h] at hhigh hends
    rw [if_pos h]
    exact roundDiv_eq (Nat.mul_pos (Nat.pos_of_ne_zero hden) (htwo _)) hlow hhigh hends
  · rename_i h
    rw [if_neg h] at hhigh hends
    rw [if_neg h]
    exact roundDiv_eq (Nat.pos_of_ne_zero hden) hlow hhigh hends

theorem ofRatio_of_rounds (neg : Bool) (hnum : num ≠ 0) (hden : den ≠ 0)
    (hq : max (quotientExponent num den) (-1074) = q)
    (hlow : (k : ℚ) - 1 / 2 ≤ num / den / 2 ^ q) (hhigh : (num : ℚ) / den / 2 ^ q ≤ k + 1 / 2)
    (hends : (num : ℚ) / den / 2 ^ q = k - 1 / 2 ∨ (num : ℚ) / den / 2 ^ q = k + 1 / 2 →
      k % 2 = 0)
    (hsmall : q = -1074 ∨ 2 ^ 52 ≤ k) (hlarge : q < 971 ∨ q = 971 ∧ k < 2 ^ 53) :
    ofRatio neg num den = ofMagnitude neg ((q + 1074).toNat * 2 ^ 52 + k) := by
  have htwo : twoTo 52 = 2 ^ 52 ∧ twoTo 53 = 2 ^ 53 := ⟨rfl, rfl⟩
  rw [ofRatio_eq neg hnum hden]
  dsimp only
  rw [hq, roundDiv_scaled hden hlow hhigh hends, htwo.1, htwo.2]
  split
  · rename_i hless
    obtain rfl : q = -1074 := hsmall.resolve_right (by omega)
    simp
  · rw [if_neg]
    simp only [Bool.or_eq_true, Bool.and_eq_true, decide_eq_true_eq, beq_iff_eq]
    omega

section Scaled

variable (h : x.ReadsAs v)
include h

theorem ReadsAs.scaled_low :
    x.mantissa - (if x.Narrow then 1 / 4 else 1 / 2) ≤ v / 2 ^ x.exponent :=
  (le_div_iff₀ (by positivity)).mpr h.low

theorem ReadsAs.scaled_high : v / 2 ^ x.exponent ≤ x.mantissa + 1 / 2 :=
  (div_le_iff₀ (by positivity)).mpr h.high

theorem ReadsAs.scaled_ends :
    v / 2 ^ x.exponent = x.mantissa - (if x.Narrow then 1 / 4 else 1 / 2) ∨
      v / 2 ^ x.exponent = x.mantissa + 1 / 2 → x.mantissa % 2 = 0 := by
  have hpow : (0 : ℚ) < 2 ^ x.exponent := by positivity
  rw [div_eq_iff hpow.ne', div_eq_iff hpow.ne']
  exact h.ends

end Scaled

/-- How the exponent of a quotient compares with another one. -/
theorem lt_quotientExponent (hnum : num ≠ 0) (hden : den ≠ 0) {j : Int}
    (h : (2 : ℚ) ^ j ≤ num / den / 2 ^ q) : j + q < quotientExponent num den + 53 := by
  rw [le_div_iff₀ (by positivity), ← zpow_add₀ (by norm_num)] at h
  rw [← zpow_lt_zpow_iff_right₀ (show (1 : ℚ) < 2 by norm_num)]
  exact h.trans_lt (quotientExponent_spec hnum hden).2

theorem quotientExponent_lt (hnum : num ≠ 0) (hden : den ≠ 0) {j : Int}
    (h : (num : ℚ) / den / 2 ^ q < 2 ^ j) : quotientExponent num den + 52 < j + q := by
  rw [div_lt_iff₀ (by positivity), ← zpow_add₀ (by norm_num)] at h
  rw [← zpow_lt_zpow_iff_right₀ (show (1 : ℚ) < 2 by norm_num)]
  exact (quotientExponent_spec hnum hden).1.trans_lt h

theorem ReadsAs.scaled_lt (hx : x.Finite) (h : x.ReadsAs v) :
    v / 2 ^ x.exponent < 2 ^ (53 : Int) := by
  have hmost : (x.mantissa : ℚ) + 1 ≤ 2 ^ 53 := by exact_mod_cast (parts_spec hx).1
  refine h.scaled_high.trans_lt ?_
  norm_num at hmost ⊢
  linarith

/-- A fraction with the exponent of the number. -/
theorem ofRatio_of_full (hx : x.Finite) (hnum : num ≠ 0) (hden : den ≠ 0)
    (h : x.ReadsAs (num / den))
    (hfull : x.exponent = -1074 ∨ (2 : ℚ) ^ (52 : Int) ≤ num / den / 2 ^ x.exponent) :
    ofRatio x.negative num den = x := by
  obtain ⟨hlt, hmin, hmax, hsmall, -, hbits⟩ := parts_spec hx
  have hlow := h.scaled_low
  have hhigh := h.scaled_high
  have hends := h.scaled_ends
  have hq : max (quotientExponent num den) (-1074) = x.exponent := by
    have hle := quotientExponent_lt hnum hden (h.scaled_lt hx)
    rcases hfull with h | h
    · omega
    · have hge := lt_quotientExponent hnum hden h
      omega
  rw [ofRatio_of_rounds _ hnum hden (k := x.mantissa) hq, hbits, ofMagnitude_bits]
  · refine le_trans ?_ hlow
    split <;> linarith
  · exact hhigh
  · refine fun hend => hends (hend.imp_left fun hend => ?_)
    split
    · rename_i hnarrow
      rw [if_pos hnarrow] at hlow
      linarith
    · exact hend
  · exact hsmall
  · omega

/-- A fraction that is less than a power of two, and is rounded up to it. -/
theorem ofRatio_of_narrow (hx : x.Finite) (hnum : num ≠ 0) (hden : den ≠ 0)
    (h : x.ReadsAs (num / den)) (hnormal : x.exponent ≠ -1074)
    (hless : (num : ℚ) / den / 2 ^ x.exponent < 2 ^ (52 : Int)) :
    ofRatio x.negative num den = x := by
  obtain ⟨-, hmin, hmax, hsmall, hnarrow, hbits⟩ := parts_spec hx
  have hlow := h.scaled_low
  obtain ⟨u, hu⟩ : ∃ u : ℚ, (num : ℚ) / den / 2 ^ x.exponent = u := ⟨_, rfl⟩
  have hmantissa : x.mantissa = 2 ^ 52 := by
    refine le_antisymm ?_ (hsmall.resolve_left hnormal)
    by_contra hgt
    have hgt : (2 : ℚ) ^ 52 + 1 ≤ x.mantissa := by exact_mod_cast not_le.mp hgt
    norm_num at hless
    split at hlow <;> linarith
  rw [if_pos (hnarrow.mpr ⟨hmantissa, by omega⟩), hmantissa, hu] at hlow
  rw [hu] at hless
  have hq : max (quotientExponent num den) (-1074) = x.exponent - 1 := by
    have hle := quotientExponent_lt hnum hden (hu ▸ hless)
    have hge := lt_quotientExponent (q := x.exponent) (j := 51) hnum hden <| by
      rw [hu]
      norm_num at hlow ⊢
      linarith
    omega
  have hdouble : (num : ℚ) / den / 2 ^ (x.exponent - 1) = 2 * u := by
    rw [← hu, zpow_sub_one₀ (by norm_num)]
    field_simp
  have hcarry : (x.exponent - 1 + 1074).toNat * 2 ^ 52 + 2 ^ 53 =
      (x.exponent + 1074).toNat * 2 ^ 52 + x.mantissa := by
    have hshift : (x.exponent + 1074).toNat = (x.exponent - 1 + 1074).toNat + 1 := by omega
    rw [hshift, hmantissa]
    ring
  rw [ofRatio_of_rounds _ hnum hden (k := 2 ^ 53) hq, hcarry, hbits, ofMagnitude_bits]
  · rw [hdouble]
    push_cast at hlow ⊢
    linarith
  · rw [hdouble]
    norm_num at hless ⊢
    linarith
  · exact fun _ => by norm_num
  · exact .inr (by norm_num)
  · omega

/-- **A fraction that is nearest to a number's magnitude is read as the number.** -/
theorem ofRatio_of_readsAs (hx : x.Finite) (hnum : num ≠ 0) (hden : den ≠ 0)
    (h : x.ReadsAs (num / den)) : ofRatio x.negative num den = x := by
  by_cases hfull :
      x.exponent = -1074 ∨ (2 : ℚ) ^ (52 : Int) ≤ num / den / 2 ^ x.exponent
  · exact ofRatio_of_full hx hnum hden h hfull
  · obtain ⟨hnormal, hless⟩ := not_or.mp hfull
    exact ofRatio_of_narrow hx hnum hden h hnormal (not_le.mp hless)

/-! ## 4. Decimals -/

/-- How many digits a number is written with. -/
theorem toDigits_bounds {c : Nat} (hc : c ≠ 0) :
    (10 : ℚ) ^ (((Nat.toDigits 10 c).length : Int) - 1) ≤ c ∧
      (c : ℚ) < 10 ^ ((Nat.toDigits 10 c).length : Int) := by
  obtain ⟨len, hlen⟩ : ∃ len, (Nat.toDigits 10 c).length = len := ⟨_, rfl⟩
  have hpos : 0 < len := hlen ▸ Nat.length_toDigits_pos
  have hhigh : c < 10 ^ len := (Nat.length_toDigits_le_iff (by decide) hpos).mp hlen.le
  have hlow : 10 ^ (len - 1) ≤ c := by
    rcases Nat.eq_zero_or_pos (len - 1) with hone | hmore
    · rw [hone]
      exact Nat.pos_of_ne_zero hc
    · by_contra hless
      have := (Nat.length_toDigits_le_iff (b := 10) (by decide) hmore).mpr (not_le.mp hless)
      omega
  rw [hlen, show (len : Int) - 1 = (len - 1 : Nat) by omega, zpow_natCast, zpow_natCast]
  exact ⟨by exact_mod_cast hlow, by exact_mod_cast hhigh⟩

/-- A magnitude that is read as a number is neither too large nor too small to be looked at. -/
theorem ReadsAs.within (hx : x.Finite) (hm : x.mantissa ≠ 0) (h : x.ReadsAs v) :
    (10 : ℚ) ^ (-401 : Int) < v ∧ v < 10 ^ (400 : Int) := by
  obtain ⟨-, hmin, hmax, -⟩ := parts_spec hx
  have hone : (1 : ℚ) ≤ x.mantissa := by exact_mod_cast Nat.pos_of_ne_zero hm
  have hcompare : ∀ a b : Nat, 2 ^ a < 10 ^ b → (2 : ℚ) ^ (a : Int) < 10 ^ (b : Int) :=
    fun a b h => by exact_mod_cast h
  constructor
  · calc (10 : ℚ) ^ (-401 : Int) < 2 ^ (-1075 : Int) := by
          rw [zpow_neg, zpow_neg, inv_lt_inv₀ (by positivity) (by positivity)]
          exact hcompare 1075 401 (by decide +kernel)
      _ = 1 / 2 * 2 ^ (-1074 : Int) := by
          rw [show (-1075 : Int) = -1 + -1074 by omega, zpow_add₀ (by norm_num)]
          norm_num
      _ ≤ (x.mantissa - (if x.Narrow then 1 / 4 else 1 / 2)) * 2 ^ x.exponent := by
          have hhalf : 1 / 2 ≤ (x.mantissa : ℚ) - (if x.Narrow then 1 / 4 else 1 / 2) := by
            split <;> linarith
          gcongr
          norm_num
      _ ≤ v := h.low
  · calc v < 2 ^ (53 : Int) * 2 ^ x.exponent := (div_lt_iff₀ (by positivity)).mp (h.scaled_lt hx)
      _ ≤ 2 ^ (53 : Int) * 2 ^ (971 : Int) := by
          gcongr
          norm_num
      _ = 2 ^ (1024 : Int) := by rw [← zpow_add₀ (by norm_num)]; rfl
      _ < 10 ^ (400 : Int) := hcompare 1024 400 (by decide +kernel)

/-- **A decimal that is nearest to a number's magnitude is read as the number.** -/
theorem ofDecimal_of_readsAs {c : Nat} (hx : x.Finite) (hm : x.mantissa ≠ 0) (hc : c ≠ 0)
    (h : x.ReadsAs (c * 10 ^ e)) : ofDecimal x.negative c e = x := by
  obtain ⟨hlow, hhigh⟩ := toDigits_bounds hc
  obtain ⟨hleast, hmost⟩ := h.within hx hm
  have hsize : ∀ j k : Int, (10 : ℚ) ^ j < 10 ^ k → j < k := fun j k =>
    (zpow_lt_zpow_iff_right₀ (by norm_num)).mp
  have hsmall : ((Nat.toDigits 10 c).length : Int) - 1 + e < 400 := by
    refine hsize _ _ (lt_of_le_of_lt ?_ hmost)
    rw [zpow_add₀ (by norm_num)]
    gcongr
  have hlarge : -401 < ((Nat.toDigits 10 c).length : Int) + e := by
    refine hsize _ _ (hleast.trans ?_)
    rw [zpow_add₀ (by norm_num)]
    gcongr
  unfold ofDecimal
  dsimp only
  rw [if_neg (by simpa using hc), if_neg (by omega), if_neg (by omega)]
  have hten : ∀ j, tenTo j ≠ 0 := fun j => by simp [tenTo]
  split
  · rename_i hpos
    obtain ⟨j, rfl⟩ := Int.eq_ofNat_of_zero_le hpos
    refine ofRatio_of_readsAs hx (Nat.mul_ne_zero hc (hten _)) one_ne_zero ?_
    simpa [tenTo] using h
  · rename_i hneg
    obtain ⟨j, hj⟩ : ∃ j : Nat, e = -j := ⟨(-e).toNat, by omega⟩
    subst hj
    refine ofRatio_of_readsAs hx hc (hten _) ?_
    simpa [tenTo, div_eq_mul_inv] using h

end DocAudit.Decimal.Binary64
