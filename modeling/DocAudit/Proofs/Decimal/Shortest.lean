import DocAudit.Proofs.Decimal.Nearest

/-!
# The digits that a number is written with

The fewest digits that read back as a number are looked for with one digit, two digits and so on.
Among the decimals with seventeen digits there is always one near enough.

* `Binary64.decimalExponent_spec`: the place of the first digit;
* `Binary64.hit_spec` and `Binary64.isSome_hit`: a hit lies between the middles, and there is one
  where the middles are further apart than two decimals;
* `shortest_readsAs`: the digits that are found are nearest to the number.
-/

namespace DocAudit.Decimal.Binary64

variable {x : Binary64} {num lo hi den k c : Nat} {closed : Bool} {top e : Int} {v : ℚ}

/-! ## 1. The first digit -/

theorem tenTo_pos (n : Nat) : 0 < tenTo n := Nat.pow_pos (by decide)

/-- A power as a fraction of whole numbers. -/
theorem zpow_eq_fraction (b : Nat) (e : Int) :
    (b : ℚ) ^ e = (if e ≥ 0 then b ^ e.toNat else 1 : Nat) /
      (if e ≥ 0 then 1 else b ^ (-e).toNat : Nat) := by
  split
  · rename_i h
    obtain ⟨j, rfl⟩ := Int.eq_ofNat_of_zero_le h
    simp
  · rename_i h
    obtain ⟨j, hj⟩ : ∃ j : Nat, e = -j := ⟨(-e).toNat, by omega⟩
    subst hj
    simp

theorem ten_zpow (e : Int) :
    (10 : ℚ) ^ e = (if e ≥ 0 then tenTo e.toNat else 1 : Nat) /
      (if e ≥ 0 then 1 else tenTo (-e).toNat : Nat) :=
  zpow_eq_fraction 10 e

/-- Whether a fraction is below a power of ten, as it is computed. -/
theorem below_iff (hden : den ≠ 0) :
    (if e ≥ 0 then num < den * tenTo e.toNat else num * tenTo (-e).toNat < den) ↔
      (num : ℚ) / den < 10 ^ e := by
  have hden' : (0 : ℚ) < den := by exact_mod_cast Nat.pos_of_ne_zero hden
  rw [div_lt_iff₀ hden']
  split
  · rename_i h
    obtain ⟨j, rfl⟩ := Int.eq_ofNat_of_zero_le h
    rw [zpow_natCast, mul_comm _ (den : ℚ)]
    exact_mod_cast Iff.rfl
  · rename_i h
    obtain ⟨j, hj⟩ : ∃ j : Nat, e = -j := ⟨(-e).toNat, by omega⟩
    subst hj
    rw [zpow_neg, zpow_natCast, ← div_eq_inv_mul, lt_div_iff₀ (by positivity)]
    simp only [neg_neg, Int.toNat_natCast, tenTo]
    exact_mod_cast Iff.rfl

theorem decimalExponent_spec (hnum : num ≠ 0) (hden : den ≠ 0) :
    (10 : ℚ) ^ decimalExponent num den ≤ num / den ∧
      (num : ℚ) / den < 10 ^ (decimalExponent num den + 1) := by
  have hden' : (0 : ℚ) < den := by exact_mod_cast Nat.pos_of_ne_zero hden
  obtain ⟨hnlow, hnhigh⟩ := toDigits_bounds hnum
  obtain ⟨hdlow, hdhigh⟩ := toDigits_bounds hden
  obtain ⟨ln, hln⟩ : ∃ ln : Int, ((Nat.toDigits 10 num).length : Int) = ln := ⟨_, rfl⟩
  obtain ⟨ld, hld⟩ : ∃ ld : Int, ((Nat.toDigits 10 den).length : Int) = ld := ⟨_, rfl⟩
  rw [hln] at hnlow hnhigh
  rw [hld] at hdlow hdhigh
  have hlow : (10 : ℚ) ^ (ln - ld - 1) ≤ num / den := by
    rw [le_div_iff₀ hden']
    calc (10 : ℚ) ^ (ln - ld - 1) * den ≤ 10 ^ (ln - ld - 1) * 10 ^ ld := by gcongr
      _ = 10 ^ (ln - 1) := by
          rw [← zpow_add₀ (by norm_num)]
          congr 1
          omega
      _ ≤ num := hnlow
  have hhigh : (num : ℚ) / den < 10 ^ (ln - ld + 1) := by
    rw [div_lt_iff₀ hden']
    calc (num : ℚ) < 10 ^ ln := hnhigh
      _ = 10 ^ (ln - ld + 1) * 10 ^ (ld - 1) := by
          rw [← zpow_add₀ (by norm_num)]
          congr 1
          omega
      _ ≤ 10 ^ (ln - ld + 1) * den := by gcongr
  have hguess : decimalExponent num den =
      if (num : ℚ) / den < 10 ^ (ln - ld) then ln - ld - 1 else ln - ld := by
    unfold decimalExponent
    rw [hln, hld]
    dsimp only
    simp only [below_iff hden]
  rw [hguess]
  split
  · rename_i hless
    rw [sub_add_cancel]
    exact ⟨hlow, hless⟩
  · rename_i hless
    exact ⟨not_lt.mp hless, hhigh⟩

/-! ## 2. Hits -/

/-- A magnitude between two ends, which count if the range is closed. -/
def Between (lo hi : ℚ) (closed : Bool) (v : ℚ) : Prop :=
  (lo ≤ v ∧ v ≤ hi) ∧ (v = lo ∨ v = hi → closed = true)

/-- Whether a decimal is between the ends, as it is computed. -/
def within (lo hi den : Nat) (closed : Bool) (e : Int) (c : Nat) : Bool :=
  let up := if e ≥ 0 then tenTo e.toNat else 1
  let down := if e ≥ 0 then 1 else tenTo (-e).toNat
  let v := c * up * den
  if closed then decide (lo * down ≤ v) && decide (v ≤ hi * down)
  else decide (lo * down < v) && decide (v < hi * down)

theorem within_iff (hden : den ≠ 0) :
    within lo hi den closed e c = true ↔ Between (lo / den) (hi / den) closed (c * 10 ^ e) := by
  obtain ⟨up, hup⟩ : ∃ up, (if e ≥ 0 then tenTo e.toNat else 1) = up := ⟨_, rfl⟩
  obtain ⟨down, hdown⟩ : ∃ down, (if e ≥ 0 then 1 else tenTo (-e).toNat) = down := ⟨_, rfl⟩
  have hdown' : (0 : ℚ) < down := by
    rw [← hdown]
    split
    · norm_num
    · exact_mod_cast tenTo_pos _
  have hden' : (0 : ℚ) < den := by exact_mod_cast Nat.pos_of_ne_zero hden
  have hlow : (lo : ℚ) / den ≤ c * (up / down) ↔ lo * down ≤ c * up * den := by
    rw [← mul_div_assoc, div_le_div_iff₀ hden' hdown']
    exact_mod_cast Iff.rfl
  have hhigh : (c : ℚ) * (up / down) ≤ hi / den ↔ c * up * den ≤ hi * down := by
    rw [← mul_div_assoc, div_le_div_iff₀ hdown' hden']
    exact_mod_cast Iff.rfl
  have hlow' : (c : ℚ) * (up / down) = lo / den ↔ c * up * den = lo * down := by
    rw [← mul_div_assoc, div_eq_div_iff hdown'.ne' hden'.ne']
    exact_mod_cast Iff.rfl
  have hhigh' : (c : ℚ) * (up / down) = hi / den ↔ c * up * den = hi * down := by
    rw [← mul_div_assoc, div_eq_div_iff hdown'.ne' hden'.ne']
    exact_mod_cast Iff.rfl
  unfold within Between
  dsimp only
  rw [ten_zpow, hup, hdown, hlow, hhigh, hlow', hhigh']
  cases closed
  · simp only [Bool.false_eq_true, if_false, Bool.and_eq_true, decide_eq_true_eq, imp_false, not_or]
    omega
  · simp

/-- The last decimal with the exponent that is not above a fraction. -/
def cut (num den : Nat) (e : Int) : Nat :=
  num * (if e ≥ 0 then 1 else tenTo (-e).toNat) / (den * if e ≥ 0 then tenTo e.toNat else 1)

theorem cut_spec (num : Nat) (e : Int) (hden : den ≠ 0) :
    (cut num den e : ℚ) * 10 ^ e ≤ num / den ∧ (num : ℚ) / den < (cut num den e + 1) * 10 ^ e := by
  have hpow : (0 : ℚ) < 10 ^ e := by positivity
  have hcut : cut num den e = ⌊(num : ℚ) / den / 10 ^ e⌋₊ := by
    unfold cut
    rw [ten_zpow, div_div_div_eq, ← Nat.floor_div_eq_div (K := ℚ)]
    push_cast
    rfl
  rw [hcut, ← le_div_iff₀ hpow, ← div_lt_iff₀ hpow]
  exact ⟨Nat.floor_le (by positivity), Nat.lt_floor_add_one _⟩

/-- With `k` digits, the decimals on both sides of the number are tried. -/
theorem hit_cases (num lo hi den : Nat) (closed : Bool) (top : Int) (k : Nat) :
    (∃ c, within lo hi den closed (top - k + 1) c = true ∧
      hit num lo hi den closed top k = some (c, top - k + 1)) ∨
    (within lo hi den closed (top - k + 1) (cut num den (top - k + 1)) = false ∧
      within lo hi den closed (top - k + 1) (cut num den (top - k + 1) + 1) = false ∧
      hit num lo hi den closed top k = none) := by
  have heither : ∀ (p : Prop) [Decidable p] (a b : Nat),
      within lo hi den closed (top - k + 1) a = true →
      within lo hi den closed (top - k + 1) b = true →
      within lo hi den closed (top - k + 1) (if p then a else b) = true := by
    intro p _ a b ha hb
    split
    · exact ha
    · exact hb
  unfold hit
  dsimp only
  split
  · rename_i hbelow habove
    exact .inl ⟨_, heither _ _ _ hbelow habove, rfl⟩
  · rename_i hbelow habove
    exact .inl ⟨_, hbelow, rfl⟩
  · rename_i hbelow habove
    exact .inl ⟨_, habove, rfl⟩
  · rename_i hbelow habove
    exact .inr ⟨hbelow, habove, rfl⟩

/-- A hit is a decimal between the ends. -/
theorem hit_spec (hden : den ≠ 0) (h : hit num lo hi den closed top k = some (c, e)) :
    Between (lo / den) (hi / den) closed (c * 10 ^ e) := by
  rcases hit_cases num lo hi den closed top k with ⟨c', hwithin, heq⟩ | ⟨-, -, heq⟩
  · rw [h] at heq
    cases heq
    exact (within_iff hden).mp hwithin
  · rw [h] at heq
    cases heq

/-- One of the two decimals is between the ends where these are further apart. -/
theorem isSome_hit (hden : den ≠ 0) (hlow : lo < num) (hhigh : num < hi)
    (hwide : (10 : ℚ) ^ (top - (k : Int) + 1) < hi / den - lo / den) :
    (hit num lo hi den closed top k).isSome = true := by
  obtain ⟨e, he⟩ : ∃ e, top - (k : Int) + 1 = e := ⟨_, rfl⟩
  rcases hit_cases num lo hi den closed top k with ⟨c, -, heq⟩ | ⟨hbelow, habove, -⟩
  · rw [heq]
    rfl
  · exfalso
    rw [he] at hwide hbelow habove
    rw [← Bool.not_eq_true, within_iff hden] at hbelow habove
    push_cast at habove
    obtain ⟨hcut, hnext⟩ := cut_spec num e hden
    have hlow' : (lo : ℚ) / den < num / den := by gcongr
    have hhigh' : (num : ℚ) / den < hi / den := by gcongr
    -- neither is between the ends, so one is below the lower and the other above the upper end
    have hleast : (cut num den e : ℚ) * 10 ^ e ≤ lo / den := by
      by_contra hgt
      refine hbelow ⟨⟨by linarith, by linarith⟩, fun hend => ?_⟩
      rcases hend with hend | hend <;> linarith
    have hmost : (hi : ℚ) / den ≤ (cut num den e + 1) * 10 ^ e := by
      by_contra hgt
      refine habove ⟨⟨by linarith, by linarith⟩, fun hend => ?_⟩
      rcases hend with hend | hend <;> linarith
    linarith

/-- The first hit is between the ends, if the last try is one. -/
theorem firstHit_between (hden : den ≠ 0) {left : Nat}
    (h : (hit num lo hi den closed top (k + left)).isSome = true) :
    Between (lo / den) (hi / den) closed ((firstHit num lo hi den closed top left k).1 *
      10 ^ (firstHit num lo hi den closed top left k).2) := by
  induction left generalizing k with
  | zero =>
    obtain ⟨⟨c, e⟩, hit⟩ := Option.isSome_iff_exists.mp h
    rw [Nat.add_zero] at hit
    rw [firstHit, hit]
    exact hit_spec hden hit
  | succ left ih =>
    rw [firstHit]
    split
    · rename_i r hit
      exact hit_spec hden hit
    · refine ih ?_
      rwa [Nat.add_right_comm]

/-! ## 3. The fewest digits -/

/-- Zeros that are moved into the exponent change nothing. -/
theorem dropZeros_value (fuel c : Nat) (e : Int) :
    ((dropZeros fuel c e).1 : ℚ) * 10 ^ (dropZeros fuel c e).2 = c * 10 ^ e := by
  induction fuel generalizing c e with
  | zero => rfl
  | succ n ih =>
    rw [dropZeros]
    split
    · rename_i h
      simp only [Bool.and_eq_true, beq_iff_eq] at h
      obtain ⟨d, rfl⟩ := Nat.dvd_of_mod_eq_zero h.2
      rw [ih, Nat.mul_div_cancel_left d (by decide), zpow_add_one₀ (by norm_num)]
      push_cast
      ring
    · rfl

/-- The unit in which the ends are whole numbers. -/
theorem quarter_zpow (q : Int) :
    (2 : ℚ) ^ (q - 2) = (if q - 2 ≥ 0 then twoTo (q - 2).toNat else 1 : Nat) /
      (if q - 2 ≥ 0 then 1 else twoTo (2 - q).toNat : Nat) := by
  rw [← neg_sub q 2]
  exact zpow_eq_fraction 2 (q - 2)

/-- The search for the digits of a number is one between the middles to its neighbours. -/
theorem shortest_eq (hm : x.mantissa ≠ 0) :
    ∃ num lo hi den : Nat, den ≠ 0 ∧ (num : ℚ) / den = x.magnitude ∧ (lo : ℚ) / den = x.lowEnd ∧
      (hi : ℚ) / den = x.highEnd ∧
      x.shortest =
        (let found :=
          firstHit num lo hi den (x.mantissa % 2 == 0) (decimalExponent num den) 16 1
        dropZeros 20 found.1 found.2) := by
  have hflag : (x.fractionBits == 0 && decide (x.exponentBits > 1)) = decide x.Narrow := by
    rw [Bool.eq_iff_iff, decide_eq_true_iff]
    simp [Narrow]
  have hfour : (2 : ℚ) ^ x.exponent = 4 * 2 ^ (x.exponent - 2) := by
    rw [zpow_sub₀ (by norm_num)]
    norm_num
    ring
  unfold shortest
  rw [show x.parts = (x.mantissa, x.exponent) from rfl]
  dsimp only
  rw [if_neg (by simpa using hm), hflag]
  refine ⟨_, _, _, _, ?_, ?_, ?_, ?_, rfl⟩
  · split
    · exact one_ne_zero
    · exact (Nat.pow_pos (by decide)).ne'
  · unfold magnitude
    rw [hfour, quarter_zpow]
    push_cast
    ring
  · unfold lowEnd
    rw [hfour, quarter_zpow]
    by_cases h : x.Narrow
    · simp only [h, decide_true, if_true]
      rw [Nat.cast_mul, Nat.cast_sub (by omega)]
      push_cast
      ring
    · simp only [h, decide_false, Bool.false_eq_true, if_false]
      rw [Nat.cast_mul, Nat.cast_sub (by omega)]
      push_cast
      ring
  · unfold highEnd
    rw [hfour, quarter_zpow]
    push_cast
    ring

/-- Two decimals with seventeen digits are nearer to each other than the ends. -/
theorem lt_width (hx : x.Finite) (h : (10 : ℚ) ^ top ≤ x.magnitude) :
    (10 : ℚ) ^ (top - 16) < x.highEnd - x.lowEnd := by
  obtain ⟨hlt, -, -, -, hnarrow, -⟩ := parts_spec hx
  have hlt : (x.mantissa : ℚ) < 2 ^ 53 := by exact_mod_cast hlt
  have hpow : (0 : ℚ) < 2 ^ x.exponent := by positivity
  have hwidth : x.highEnd - x.lowEnd =
      (1 / 2 + if x.Narrow then 1 / 4 else 1 / 2) * 2 ^ x.exponent := by
    unfold highEnd lowEnd
    ring
  calc (10 : ℚ) ^ (top - 16) = 10 ^ top / 10 ^ 16 := by
        rw [zpow_sub₀ (by norm_num)]
        norm_num
    _ ≤ x.magnitude / 10 ^ 16 := by gcongr
    _ = x.mantissa / 10 ^ 16 * 2 ^ x.exponent := by
        unfold magnitude
        ring
    _ < x.highEnd - x.lowEnd := by
        rw [hwidth]
        gcongr
        split
        · rename_i h
          rw [(hnarrow.mp h).1]
          norm_num
        · rw [div_lt_iff₀ (by positivity)]
          linarith

/-- **The digits that a number is written with are read as the number.** -/
theorem shortest_readsAs (hx : x.Finite) (hm : x.mantissa ≠ 0) :
    x.ReadsAs (x.shortest.1 * 10 ^ x.shortest.2) := by
  obtain ⟨num, lo, hi, den, hden, hnum, hlo, hhi, heq⟩ := shortest_eq hm
  have hden' : (0 : ℚ) < den := by exact_mod_cast Nat.pos_of_ne_zero hden
  obtain ⟨top, htop⟩ : ∃ top, decimalExponent num den = top := ⟨_, rfl⟩
  have hnonzero : num ≠ 0 := by
    rintro rfl
    have hpos := x.magnitude_pos hm
    rw [← hnum] at hpos
    simp at hpos
  have hlow : lo < num := by
    have hbelow := x.lowEnd_lt_magnitude
    rw [← hlo, ← hnum, div_lt_div_iff_of_pos_right hden'] at hbelow
    exact_mod_cast hbelow
  have hhigh : num < hi := by
    have habove := x.magnitude_lt_highEnd
    rw [← hhi, ← hnum, div_lt_div_iff_of_pos_right hden'] at habove
    exact_mod_cast habove
  have hsome : (hit num lo hi den (x.mantissa % 2 == 0) top (1 + 16)).isSome = true := by
    refine isSome_hit hden hlow hhigh ?_
    rw [hhi, hlo, show top - ((1 + 16 : Nat) : Int) + 1 = top - 16 by omega]
    refine lt_width hx ?_
    rw [← hnum, ← htop]
    exact (decimalExponent_spec hnonzero hden).1
  obtain ⟨⟨hfrom, hto⟩, hends⟩ := firstHit_between hden hsome
  rw [hlo] at hfrom hends
  rw [hhi] at hto hends
  rw [heq, htop]
  dsimp only
  rw [dropZeros_value]
  exact ⟨hfrom, hto, fun h => by simpa using hends h⟩

theorem shortest_ne_zero (hx : x.Finite) (hm : x.mantissa ≠ 0) : x.shortest.1 ≠ 0 := by
  intro hzero
  have hlow := (shortest_readsAs hx hm).low
  have hpos := x.lowEnd_pos hm
  rw [hzero] at hlow
  simp at hlow
  linarith

theorem shortest_of_zero (hm : x.mantissa = 0) : x.shortest = (0, 0) := by
  unfold shortest
  rw [show x.parts = (x.mantissa, x.exponent) from rfl, hm]
  rfl

/-- Zero is one of the two zeros. -/
theorem ofMagnitude_zero (hm : x.mantissa = 0) : ofMagnitude x.negative 0 = x := by
  have hfinite : x.Finite := by
    intro hmost
    simp [mantissa, parts, hmost, twoTo] at hm
  obtain ⟨-, -, -, hsmall, -, hbits⟩ := parts_spec hfinite
  have hexponent : x.exponent = -1074 := hsmall.resolve_right (by omega)
  have hsum : x.exponentBits * 2 ^ 52 + x.fractionBits = 0 := by
    rw [← hbits, hm, hexponent]
    rfl
  rw [← hsum]
  exact x.ofMagnitude_bits

/-- **Every finite number is read back from its digits.** -/
theorem ofDecimal_shortest (hx : x.Finite) :
    ofDecimal x.negative x.shortest.1 x.shortest.2 = x := by
  by_cases hm : x.mantissa = 0
  · rw [shortest_of_zero hm]
    exact ofMagnitude_zero hm
  · exact ofDecimal_of_readsAs hx hm (shortest_ne_zero hx hm) (shortest_readsAs hx hm)

end DocAudit.Decimal.Binary64
