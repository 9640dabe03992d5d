import DocAudit.Proofs.Decimal.Shortest
import DocAudit.Proofs.Yaml.Decode

/-!
# Numbers as scalars

A floating-point number is written in digits, with a point or an exponent if it needs one.  A text
without them is read as a whole number, which is then converted.

* `Spells`: the parts of a text with a point or an exponent, and what they stand for;
* `Spells.resolve_eq`: what such a text is read as;
* `legible_iff`: every finite number but the negative zero is read as it is written.
-/

namespace DocAudit.Yaml

open DocAudit.Text DocAudit.Decimal

variable {ds whole frac rest : List Char} {radix m c : Nat} {e top : Int} {x : Binary64}

/-! ## 1. Digits -/

theorem digitsIn_zeros (k : Nat) (h : ds ≠ []) :
    digitsIn 10 (List.replicate k '0' ++ ds) = digitsIn 10 ds := by
  have hzeros : (List.replicate k '0').foldl (fun acc c => do
      let n ← acc
      let d ← hexDigit? c
      if d < 10 then some (n * 10 + d) else none) (some 0) = some 0 := by
    induction k with
    | zero => rfl
    | succ k ih => exact ih
  unfold digitsIn
  rw [List.foldl_append, hzeros]
  simp [h]

/-- A character that is no digit of the radix makes a text no number. -/
theorem digitsIn_eq_none {a : Char} (ha : a ∈ ds) (h : ∀ d, hexDigit? a = some d → radix ≤ d) :
    digitsIn radix ds = none := by
  have hstays : ∀ cs : List Char, cs.foldl (fun acc c => do
      let n ← acc
      let d ← hexDigit? c
      if d < radix then some (n * radix + d) else none) (none : Option Nat) = none := by
    intro cs
    induction cs with
    | nil => rfl
    | cons c cs ih => exact ih
  obtain ⟨before, after, rfl⟩ := List.append_of_mem ha
  unfold digitsIn
  rw [if_neg (by simp), List.foldl_append, List.foldl_cons]
  refine Eq.trans ?_ (hstays after)
  congr 1
  cases hdigit : hexDigit? a with
  | none => simp
  | some d =>
    have hd : ¬d < radix := not_lt.mpr (h d hdigit)
    simp [hd]

/-- The digits of a number that ends with zeros. -/
theorem toDigits_mul_pow (hc : c ≠ 0) (k : Nat) :
    Nat.toDigits 10 (c * 10 ^ k) = Nat.toDigits 10 c ++ List.replicate k '0' := by
  induction k with
  | zero => simp
  | succ k ih =>
    have hpos : 0 < c * 10 ^ k := Nat.mul_pos (Nat.pos_of_ne_zero hc) (Nat.pow_pos (by decide))
    have happend := Nat.toDigits_append_toDigits (b := 10) (d := 0) (by decide) hpos (by decide)
    rw [ih, Nat.toDigits_zero, List.append_assoc, ← List.replicate_succ', Nat.add_zero] at happend
    rw [happend, Nat.pow_succ]
    congr 1
    ring

/-! ## 2. Texts with a point or an exponent -/

/-- The part of a number behind the point; without digits there is no point. -/
def point (frac : List Char) : List Char := if frac.isEmpty then [] else '.' :: frac

/-- **What the parts of a text stand for**: digits before and behind the point, and an exponent.
One of the latter is there, and the first digit is zero only right before the point. -/
structure Spells (whole frac rest : List Char) (m : Nat) (e : Int) : Prop where
  digits : ∀ c ∈ whole ++ frac, c.isDigit = true
  value : digitsIn 10 (whole ++ frac) = some m
  exponent : readExponent? rest = some (e + frac.length)
  fractional : frac ≠ [] ∨ rest ≠ []
  first : whole = ['0'] ∧ frac ≠ [] ∨ ∃ c cs, whole = c :: cs ∧ c ≠ '0'

theorem point_ne_nil (h : frac ≠ []) : point frac = '.' :: frac := by
  simp [point, h]

/-- An exponent starts with its letter. -/
theorem exponent_letter {k : Int} (h : readExponent? rest = some k) (hrest : rest ≠ []) :
    ∃ a r, rest = a :: r ∧ (a = 'e' ∨ a = 'E') := by
  unfold readExponent? at h
  split at h
  · exact absurd rfl hrest
  · rename_i a r
    split at h
    · rename_i hletter
      exact ⟨a, r, rfl, by simpa using hletter⟩
    · cases h

theorem exponent_plain {k : Int} (h : readExponent? rest = some k) : '_' ∉ rest := by
  have hplain : hexDigit? '_' = none := by decide
  have hdigits : ∀ ds, (digitsIn 10 ds).isSome = true → '_' ∉ ds := fun ds hsome hmem => by
    rw [digitsIn_eq_none hmem (by simp [hplain])] at hsome
    cases hsome
  unfold readExponent? at h
  split at h
  · exact List.not_mem_nil
  · split at h
    · rename_i a r hletter
      have ha : '_' ≠ a := by
        rintro rfl
        cases hletter
      split at h
      rename_i neg ds hsign
      have hds : '_' ∉ ds := by
        refine hdigits ds ?_
        cases hvalue : digitsIn 10 ds with
        | none =>
          rw [hvalue] at h
          cases h
        | some n => rfl
      split at hsign <;> cases hsign <;> simpa [ha] using hds
    · cases h

namespace Spells

variable (h : Spells whole frac rest m e)
include h

/-- Behind the digits before the point there is the point or a letter. -/
theorem behind : ∃ a r, point frac ++ rest = a :: r ∧ (a = '.' ∨ a = 'e' ∨ a = 'E') := by
  by_cases hfrac : frac = []
  · obtain ⟨a, r, rfl, ha⟩ := exponent_letter h.exponent (h.fractional.resolve_left (· hfrac))
    exact ⟨a, r, by simp [hfrac, point], .inr ha⟩
  · exact ⟨'.', frac ++ rest, by rw [point_ne_nil hfrac, List.cons_append], .inl rfl⟩

theorem head_whole : ∃ c cs, whole = c :: cs ∧ c.isDigit = true := by
  obtain ⟨c, cs, rfl⟩ : ∃ c cs, whole = c :: cs := by
    rcases h.first with ⟨rfl, -⟩ | ⟨c, cs, rfl, -⟩
    · exact ⟨_, _, rfl⟩
    · exact ⟨_, _, rfl⟩
  exact ⟨c, cs, rfl, h.digits c (by simp)⟩

/-- Such a text is not a whole number. -/
theorem readNat?_eq_none : readNat? (whole ++ (point frac ++ rest)) = none := by
  have hpoint : hexDigit? '.' = none := by decide
  rcases h.first with ⟨rfl, hfrac⟩ | ⟨c, cs, rfl, hzero⟩
  · rw [point_ne_nil hfrac]
    have hnone : digitsIn 8 ('.' :: (frac ++ rest)) = none :=
      digitsIn_eq_none (a := '.') (by simp) (by simp [hpoint])
    simpa [readNat?] using hnone
  · obtain ⟨a, r, hbehind, ha⟩ := h.behind
    have hnone : digitsIn 10 (c :: (cs ++ (point frac ++ rest))) = none := by
      rw [hbehind]
      refine digitsIn_eq_none (a := a) (by simp) ?_
      rcases ha with rfl | rfl | rfl <;> decide
    rw [List.cons_append]
    unfold readNat?
    split
    · rename_i heq
      exact absurd (List.cons.inj heq).1 hzero
    · exact hnone

theorem readInt?_eq_none (neg : Bool) :
    readInt? (signed neg (whole ++ (point frac ++ rest))) = none := by
  have hnone := h.readNat?_eq_none
  obtain ⟨c, cs, hwhole, hdigit⟩ := h.head_whole
  rw [hwhole] at hnone ⊢
  unfold readInt?
  cases neg with
  | true =>
    simp only [signed, if_true, hnone]
    rfl
  | false =>
    split
    · rename_i heq
      cases (List.cons.inj heq).1
      cases hdigit
    · rename_i heq
      cases (List.cons.inj heq).1
      cases hdigit
    · simp only [signed, Bool.false_eq_true, if_false, hnone]
      rfl

/-- Such a text is read as the decimal that its parts stand for. -/
theorem readFloat?_eq (neg : Bool) (hfinite : (Binary64.ofDecimal neg m e).isInfinite = false) :
    readFloat? (signed neg (whole ++ (point frac ++ rest))) =
      some (Binary64.ofDecimal neg m e) := by
  obtain ⟨c, cs, hwhole, hdigit⟩ := h.head_whole
  obtain ⟨a, r, hbehind, ha⟩ := h.behind
  have hspan : (whole ++ (point frac ++ rest)).span Char.isDigit = (whole, point frac ++ rest) := by
    refine span_digits (fun c hc => h.digits c (List.mem_append_left _ hc)) ?_
    rw [hbehind]
    rintro c ⟨⟩
    rcases ha with rfl | rfl | rfl <;> rfl
  have hsome : whole ≠ [] := by
    rw [hwhole]
    exact List.cons_ne_nil _ _
  have hfrac : (frac ++ rest).span Char.isDigit = (frac, rest) := by
    refine span_digits (fun c hc => h.digits c (List.mem_append_right _ hc)) fun c hc => ?_
    by_cases hrest : rest = []
    · subst hrest
      cases hc
    · obtain ⟨l, r, rfl, hl⟩ := exponent_letter h.exponent hrest
      cases hc
      rcases hl with rfl | rfl <;> rfl
  unfold readFloat?
  split
  rename_i neg' body hsign
  obtain ⟨rfl, rfl⟩ : neg = neg' ∧ whole ++ (point frac ++ rest) = body := by
    cases neg with
    | true =>
      cases hsign
      exact ⟨rfl, rfl⟩
    | false =>
      rw [hwhole] at hsign
      split at hsign
      · rename_i heq
        cases (List.cons.inj heq).1
        cases hdigit
      · rename_i heq
        cases (List.cons.inj heq).1
        cases hdigit
      · cases hsign
        exact ⟨rfl, by rw [hwhole]; rfl⟩
  rw [hspan]
  dsimp only
  split
  · rename_i t htail
    have ht : t = frac ++ rest := by
      by_cases hnone : frac = []
      · obtain ⟨l, r, rfl, hl⟩ := exponent_letter h.exponent (h.fractional.resolve_left (· hnone))
        rw [hnone] at htail
        cases htail
        rcases hl with hl | hl <;> cases hl
      · rw [point_ne_nil hnone] at htail
        exact (List.cons.inj htail).2.symm
    rw [ht, hfrac]
    simp [h.exponent, h.value, hsome, hfinite]
  · rename_i hnone
    have hfrac : frac = [] := by
      by_contra hfrac
      exact hnone _ (by rw [point_ne_nil hfrac]; rfl)
    subst hfrac
    have hvalue : digitsIn 10 whole = some m := by simpa using h.value
    simp [point, h.exponent, hvalue, hsome, hfinite]

theorem notMem_underscore (neg : Bool) :
    '_' ∉ signed neg (whole ++ (point frac ++ rest)) := by
  have hdigits : '_' ∉ whole ++ frac := fun hmem => by cases h.digits _ hmem
  rw [List.mem_append, not_or] at hdigits
  have hpoint : '_' ∉ point frac := by
    unfold point
    split
    · exact List.not_mem_nil
    · simp [hdigits.2]
  have hbody : '_' ∉ whole ++ (point frac ++ rest) := by
    simp [hdigits.1, hpoint, exponent_plain h.exponent]
  cases neg with
  | true => simpa [signed] using hbody
  | false => exact hbody

/-- **A text with a point or an exponent is read as the number that it is nearest to.** -/
theorem resolve_eq {neg : Bool} {s : String}
    (hs : s.toList = signed neg (whole ++ (point frac ++ rest)))
    (hfinite : (Binary64.ofDecimal neg m e).isInfinite = false) :
    resolve s = .float (Binary64.ofDecimal neg m e) := by
  obtain ⟨c, cs, hwhole, hdigit⟩ := h.head_whole
  obtain ⟨a, r, hbehind, ha⟩ := h.behind
  refine resolve_number ?_ ?_ ?_
  · rw [hs, hwhole]
    exact startsAsNumber_signed neg hdigit _
  · rw [hs]
    refine parse?_signed neg (fun c hc => h.digits c (List.mem_append_left _ hc)) ?_
    rw [hbehind]
    rintro c ⟨⟩
    rcases ha with rfl | rfl | rfl <;> decide
  · rw [readNumber?, hs, List.filter_eq_self.mpr]
    · rw [h.readInt?_eq_none, h.readFloat?_eq neg hfinite]
    · exact fun c hc => bne_iff_ne.mpr (ne_of_mem_of_not_mem hc (h.notMem_underscore neg))

end Spells

/-! ## 3. What is written -/

/-- A text whose parts stand for a decimal. -/
def IsSpelling (cs : List Char) (m : Nat) (e : Int) : Prop :=
  ∃ whole frac rest, cs = whole ++ (point frac ++ rest) ∧ Spells whole frac rest m e

theorem isDigit_toDigits {n : Nat} : ∀ a ∈ Nat.toDigits 10 n, a.isDigit = true := fun _ =>
  Nat.isDigit_of_mem_toDigits (by decide) (by decide)

/-- The digits of a number that is not zero. -/
theorem toDigits_cons (hc : c ≠ 0) : ∃ d ds, Nat.toDigits 10 c = d :: ds ∧ d ≠ '0' := by
  obtain ⟨d, ds, hcons⟩ := List.exists_cons_of_ne_nil (Nat.toDigits_ne_nil (n := c) (b := 10))
  have hhead := head?_toDigits_ne (Nat.pos_of_ne_zero hc)
  rw [hcons] at hhead
  exact ⟨d, ds, hcons, fun heq => hhead (congrArg some heq)⟩

/-- An exponent is read as it is written. -/
theorem readExponent?_written (width : Nat) (n : Int) :
    readExponent? ('e' :: (if n < 0 then '-' else '+') :: padDigits width (digitsOf n.natAbs)) =
      some n := by
  have hdigits : digitsIn 10 (padDigits width (digitsOf n.natAbs)) = some n.natAbs := by
    rw [padDigits, digitsOf, digitsIn_zeros _ Nat.toDigits_ne_nil, digitsIn_toDigits]
  by_cases hn : n < 0
  · simp [readExponent?, hn, hdigits, abs_of_neg hn]
  · simp [readExponent?, hn, hdigits, abs_of_nonneg (not_lt.mp hn)]

section Written

variable (hc : c ≠ 0) (htop : top = ((Nat.toDigits 10 c).length : Int) - 1 + e)

include htop in
/-- A number below one. -/
theorem isSpelling_below (h : top < 0) : IsSpelling (positional (Nat.toDigits 10 c) top) c e := by
  obtain ⟨zeros, hzeros⟩ : ∃ zeros, (-top).toNat - 1 = zeros := ⟨_, rfl⟩
  have hne : List.replicate zeros '0' ++ Nat.toDigits 10 c ≠ [] := by
    simp [Nat.toDigits_ne_nil]
  refine ⟨['0'], List.replicate zeros '0' ++ Nat.toDigits 10 c, [], ?_, ?_, ?_, ?_, .inl hne,
    .inl ⟨rfl, hne⟩⟩
  · rw [positional, if_pos h, point_ne_nil hne, hzeros]
    simp
  · intro a ha
    simp only [List.mem_append, List.mem_singleton, List.mem_replicate] at ha
    rcases ha with rfl | ⟨-, rfl⟩ | ha
    · rfl
    · rfl
    · exact isDigit_toDigits a ha
  · have hvalue := digitsIn_zeros (zeros + 1) (Nat.toDigits_ne_nil (n := c) (b := 10))
    rwa [digitsIn_toDigits] at hvalue
  · have hsum : e + ((List.replicate zeros '0' ++ Nat.toDigits 10 c).length : Int) = 0 := by
      rw [List.length_append, List.length_replicate]
      omega
    rw [hsum]
    rfl

include hc htop

/-- A number with digits on both sides of the point. -/
theorem isSpelling_mixed (h : 0 ≤ top) (he : e < 0) :
    IsSpelling (positional (Nat.toDigits 10 c) top) c e := by
  obtain ⟨d, ds, hcons, hd⟩ := toDigits_cons hc
  obtain ⟨front, hfront⟩ : ∃ front : Nat, top = front := ⟨top.toNat, by omega⟩
  have hlength : ds.length = front + (-e).toNat := by
    rw [hcons, List.length_cons] at htop
    omega
  have hne : ds.drop front ≠ [] := by
    rw [Ne, List.drop_eq_nil_iff]
    omega
  refine ⟨d :: ds.take front, ds.drop front, [], ?_, ?_, ?_, ?_, .inl hne, .inr ⟨d, _, rfl, hd⟩⟩
  · rw [positional, if_neg (by omega), hfront, hcons]
    have hpad : front - ds.length = 0 := by omega
    simp [hpad, point]
  · rw [List.cons_append, List.take_append_drop, ← hcons]
    exact isDigit_toDigits
  · rw [List.cons_append, List.take_append_drop, ← hcons]
    exact digitsIn_toDigits c
  · have hsum : e + ((ds.drop front).length : Int) = 0 := by
      rw [List.length_drop]
      omega
    rw [hsum]
    rfl

/-- A whole number. -/
theorem positional_whole (he : 0 ≤ e) :
    positional (Nat.toDigits 10 c) top = Nat.toDigits 10 (c * 10 ^ e.toNat) := by
  have hlength := Nat.length_toDigits_pos (b := 10) (n := c)
  have hzeros : top.toNat + 1 - (Nat.toDigits 10 c).length = e.toNat := by omega
  have hall : (Nat.toDigits 10 c ++ List.replicate e.toNat '0').length ≤ top.toNat + 1 := by
    rw [List.length_append, List.length_replicate]
    omega
  rw [toDigits_mul_pow hc, positional, if_neg (by omega)]
  dsimp only
  rw [hzeros, List.take_of_length_le hall, List.drop_of_length_le hall]
  simp

/-- A number with an exponent. -/
theorem isSpelling_scientific (width : Nat) :
    IsSpelling (scientific width (Nat.toDigits 10 c) top) c e := by
  obtain ⟨d, ds, hcons, hd⟩ := toDigits_cons hc
  refine ⟨[d], ds, 'e' :: (if top < 0 then '-' else '+') :: padDigits width (digitsOf top.natAbs),
    ?_, ?_, ?_, ?_, .inr (List.cons_ne_nil _ _), .inr ⟨d, [], rfl, hd⟩⟩
  · rw [hcons]
    cases ds <;> rfl
  · rw [List.singleton_append, ← hcons]
    exact isDigit_toDigits
  · rw [List.singleton_append, ← hcons]
    exact digitsIn_toDigits c
  · rw [hcons, List.length_cons] at htop
    rw [readExponent?_written, show e + (ds.length : Int) = top by omega]

end Written

/-! ## 4. Numbers are read as they are written -/

/-- The zero with a sign. -/
def negZero : Binary64 := .ofMagnitude true 0

/-- A decimal without a fraction is read as the whole number that it is. -/
theorem ofDecimal_eq_ofInt (neg : Bool) (hc : c ≠ 0) (he : 0 ≤ e)
    (hsize : ((Nat.toDigits 10 c).length : Int) + e ≤ 400) {n : Int}
    (hn : n.natAbs = c * 10 ^ e.toNat) (hneg : n < 0 ↔ neg = true) :
    Binary64.ofDecimal neg c e = Binary64.ofInt n := by
  have hsign : decide (n < 0) = neg := by
    rw [Bool.eq_iff_iff, decide_eq_true_iff]
    exact hneg
  unfold Binary64.ofDecimal Binary64.ofInt
  dsimp only
  rw [if_neg (by simpa using hc), if_neg (by omega), if_neg (by omega), if_pos (by omega), hsign,
    hn]
  rfl

/-- The decimal exponent of the first digit of a number. -/
def firstPlace (x : Binary64) : Int :=
  if x.shortest.1 == 0 then 0
  else ((Nat.toDigits 10 x.shortest.1).length : Int) - 1 + x.shortest.2

theorem isInfinite_of_finite (hx : x.Finite) : x.isInfinite = false := by
  simp [Binary64.isInfinite, show x.exponentBits ≠ 2047 from hx]

/-- A finite number is written positionally where it has few digits before and behind the point. -/
theorem toList_write (hx : x.Finite) :
    (documentNumber.write x).toList = signed x.negative
      (if firstPlace x < -4 ∨ firstPlace x ≥ 6
        then scientific 2 (Nat.toDigits 10 x.shortest.1) (firstPlace x)
        else positional (Nat.toDigits 10 x.shortest.1) (firstPlace x)) := by
  have hnan : x.isNaN = false := by simp [Binary64.isNaN, show x.exponentBits ≠ 2047 from hx]
  unfold Style.write
  rw [hnan, isInfinite_of_finite hx, if_neg Bool.false_ne_true, if_neg Bool.false_ne_true]
  simp only [Bool.or_eq_true, decide_eq_true_eq, String.toList_ofList]
  rfl

theorem resolve_whole {n : Int} {s : String} (hlow : -Decimal.signedEnd ≤ n)
    (hhigh : n < Decimal.signedEnd)
    (hs : s.toList = signed (decide (n < 0)) (Nat.toDigits 10 n.natAbs)) :
    resolve s = .int n := by
  rw [← toList_repr_signed] at hs
  rw [String.toList_injective hs]
  exact resolve_int hlow hhigh

/-- Zero is written as a whole number. -/
theorem legible_zero (hx : x.Finite) (hzero : x ≠ negZero) (hc : x.shortest.1 = 0) :
    Legible x := by
  have hm : x.mantissa = 0 := by
    by_contra hm
    exact Binary64.shortest_ne_zero hx hm hc
  have hneg : x.negative = false := by
    by_contra hneg
    refine hzero ?_
    rw [← Binary64.ofMagnitude_zero hm, Bool.eq_true_of_not_eq_false hneg]
    rfl
  have hchars := toList_write hx
  have hplace : firstPlace x = 0 := by simp [firstPlace, hc]
  rw [hplace, if_neg (by decide), hc, hneg] at hchars
  unfold Legible
  rw [resolve_whole (n := 0) (by decide) (by decide +kernel) hchars]
  have hvalue := Binary64.ofMagnitude_zero hm
  rw [hneg] at hvalue
  rw [← hvalue]
  rfl

/-- A whole number is read as one. -/
theorem legible_whole (hx : x.Finite) (hc : x.shortest.1 ≠ 0) (he : 0 ≤ x.shortest.2)
    (hfew : ((Nat.toDigits 10 x.shortest.1).length : Int) + x.shortest.2 ≤ 6)
    (hchars : (documentNumber.write x).toList =
      signed x.negative (Nat.toDigits 10 (x.shortest.1 * 10 ^ x.shortest.2.toNat))) :
    Legible x := by
  obtain ⟨size, hsize⟩ : ∃ size, x.shortest.1 * 10 ^ x.shortest.2.toNat = size := ⟨_, rfl⟩
  have hpos : 0 < size := by
    rw [← hsize]
    exact Nat.mul_pos (Nat.pos_of_ne_zero hc) (Nat.pow_pos (by decide))
  have hlt : size < 10 ^ 6 := by
    have hdigits : x.shortest.1 < 10 ^ (Nat.toDigits 10 x.shortest.1).length :=
      (Nat.length_toDigits_le_iff (by decide) Nat.length_toDigits_pos).mp le_rfl
    calc size = x.shortest.1 * 10 ^ x.shortest.2.toNat := hsize.symm
      _ < 10 ^ (Nat.toDigits 10 x.shortest.1).length * 10 ^ x.shortest.2.toNat :=
          Nat.mul_lt_mul_of_pos_right hdigits (Nat.pow_pos (by decide))
      _ = 10 ^ ((Nat.toDigits 10 x.shortest.1).length + x.shortest.2.toNat) := (Nat.pow_add ..).symm
      _ ≤ 10 ^ 6 := Nat.pow_le_pow_right (by decide) (by omega)
  obtain ⟨n, hn, hneg⟩ : ∃ n : Int, n.natAbs = size ∧ (n < 0 ↔ x.negative = true) := by
    cases x.negative with
    | true => exact ⟨-size, by simp, by simpa using hpos⟩
    | false => exact ⟨size, by simp, by simp⟩
  have hend : (Decimal.signedEnd : Int) = 2 ^ 63 := by decide +kernel
  have hsign : decide (n < 0) = x.negative := by
    rw [Bool.eq_iff_iff, decide_eq_true_iff]
    exact hneg
  rw [hsize, ← hn, ← hsign] at hchars
  unfold Legible
  rw [resolve_whole (by omega) (by omega) hchars]
  have hvalue := Binary64.ofDecimal_shortest hx
  rw [ofDecimal_eq_ofInt x.negative hc he (by omega) (hn.trans hsize.symm) hneg] at hvalue
  exact congrArg some hvalue

/-- **Every finite number but the negative zero is read as it is written.** -/
theorem legible_of_finite (hx : x.Finite) (hzero : x ≠ negZero) : Legible x := by
  by_cases hc : x.shortest.1 = 0
  · exact legible_zero hx hzero hc
  have hchars := toList_write hx
  have hvalue := Binary64.ofDecimal_shortest hx
  have htop : firstPlace x = ((Nat.toDigits 10 x.shortest.1).length : Int) - 1 + x.shortest.2 := by
    rw [firstPlace, if_neg (by simpa using hc)]
  have hspelling : ∀ cs, (documentNumber.write x).toList = signed x.negative cs →
      IsSpelling cs x.shortest.1 x.shortest.2 → Legible x := by
    rintro cs hcs ⟨whole, frac, rest, rfl, hspells⟩
    unfold Legible
    rw [hspells.resolve_eq hcs (by rw [hvalue]; exact isInfinite_of_finite hx), hvalue]
    rfl
  by_cases hscientific : firstPlace x < -4 ∨ firstPlace x ≥ 6
  · rw [if_pos hscientific] at hchars
    exact hspelling _ hchars (isSpelling_scientific hc htop 2)
  rw [if_neg hscientific] at hchars
  by_cases hbelow : firstPlace x < 0
  · exact hspelling _ hchars (isSpelling_below htop hbelow)
  by_cases hmixed : x.shortest.2 < 0
  · exact hspelling _ hchars (isSpelling_mixed hc htop (not_lt.mp hbelow) hmixed)
  · rw [positional_whole hc htop (not_lt.mp hmixed)] at hchars
    exact legible_whole hx hc (not_lt.mp hmixed) (by omega) hchars

theorem not_legible_negZero : ¬Legible negZero := by
  unfold Legible
  decide +kernel

theorem legible_iff (hx : x.Finite) : Legible x ↔ x ≠ negZero := by
  refine ⟨?_, legible_of_finite hx⟩
  rintro h rfl
  exact not_legible_negZero h

end DocAudit.Yaml
