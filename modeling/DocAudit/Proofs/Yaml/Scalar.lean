import DocAudit.Yaml.Scalar
import Mathlib.Data.List.TakeDrop

/-!
# Whole numbers as scalars

A whole number is read from the digits that it is written with.

* `valueUnder_int`: this holds for the numbers of 64 bits, under the tag of whole numbers.
-/

namespace DocAudit.Yaml

open DocAudit.Text DocAudit.Decimal

/-! ## 1. Digits -/

theorem hexDigit?_digitChar : ∀ {d : Nat}, d < 10 → hexDigit? d.digitChar = some d := by decide

theorem digitChar_ne_zero : ∀ {d : Nat}, d < 10 → 0 < d → d.digitChar ≠ '0' := by decide

theorem digitsIn_toDigits (n : Nat) : digitsIn 10 (Nat.toDigits 10 n) = some n := by
  have hfold : (Nat.toDigits 10 n).foldl (fun acc c => do
      let n ← acc
      let d ← hexDigit? c
      if d < 10 then some (n * 10 + d) else none) (some 0) = some n := by
    induction n using Nat.strongRecOn with
    | ind n ih =>
      rw [Nat.toDigits_eq_if (by decide)]
      split
      · rename_i h
        simp [hexDigit?_digitChar h, h]
      · rename_i h
        have hd : n % 10 < 10 := Nat.mod_lt n (by decide)
        rw [List.foldl_append, ih (n / 10) (by omega)]
        simp [hexDigit?_digitChar hd, hd]
        omega
  unfold digitsIn
  rw [if_neg (by simp [Nat.toDigits_ne_nil]), hfold]

/-- A number is written without leading zeros. -/
theorem head?_toDigits_ne {n : Nat} (h : 0 < n) : (Nat.toDigits 10 n).head? ≠ some '0' := by
  induction n using Nat.strongRecOn with
  | ind n ih =>
    rw [Nat.toDigits_eq_if (by decide)]
    split
    · rename_i hlt
      simpa using digitChar_ne_zero hlt h
    · rename_i hge
      obtain ⟨c, cs, hcons⟩ :=
        List.exists_cons_of_ne_nil (Nat.toDigits_ne_nil (n := n / 10) (b := 10))
      have hhead := ih (n / 10) (by omega) (by omega)
      rw [hcons] at hhead ⊢
      exact hhead

theorem readNat?_toDigits (n : Nat) : readNat? (Nat.toDigits 10 n) = some n := by
  have hdigits := digitsIn_toDigits n
  unfold readNat?
  split
  · rename_i x ds heq
    rcases Nat.eq_zero_or_pos n with rfl | hn
    · cases heq
    · exact absurd (by rw [heq]; rfl) (head?_toDigits_ne hn)
  · exact hdigits

/-! ## 2. Whole numbers -/

/-- The characters of a whole number: digits, behind a sign if it is negative. -/
theorem toList_repr (n : Int) :
    n.repr.toList =
      if 0 ≤ n then Nat.toDigits 10 n.toNat else '-' :: Nat.toDigits 10 (-n).toNat := by
  rw [Int.repr_eq_if]
  split
  · rw [Nat.toList_repr]
  · rw [String.toList_append, Nat.toList_repr]
    rfl

theorem exists_digit_toDigits (n : Nat) :
    ∃ c cs, Nat.toDigits 10 n = c :: cs ∧ c.isDigit = true := by
  obtain ⟨c, cs, hcons⟩ := List.exists_cons_of_ne_nil (Nat.toDigits_ne_nil (n := n) (b := 10))
  have hmem : c ∈ Nat.toDigits 10 n := by
    rw [hcons]
    exact List.mem_cons_self
  exact ⟨c, cs, hcons, Nat.isDigit_of_mem_toDigits (by decide) (by decide) hmem⟩

theorem readInt?_repr {n : Int} (hlow : -Decimal.signedEnd ≤ n) (hhigh : n < Decimal.signedEnd) :
    readInt? n.repr.toList = some n := by
  have hends : Decimal.signedEnd < Decimal.unsignedEnd := by decide +kernel
  rw [toList_repr]
  split
  · rename_i hpos
    obtain ⟨c, cs, hcons, hdigit⟩ := exists_digit_toDigits n.toNat
    have hnat := readNat?_toDigits n.toNat
    rw [hcons] at hnat ⊢
    unfold readInt?
    split
    · rename_i heq
      cases heq
      cases hdigit
    · rename_i heq
      cases heq
      cases hdigit
    · rw [hnat]
      simp only [Option.bind_some]
      rw [if_pos (by omega)]
      congr 1
      omega
  · rename_i hneg
    simp only [readInt?, readNat?_toDigits, Option.bind_some]
    rw [if_pos (by omega)]
    congr 1
    omega

theorem filter_repr (n : Int) : n.repr.toList.filter (· != '_') = n.repr.toList := by
  rw [List.filter_eq_self]
  intro c hc
  rw [toList_repr] at hc
  have hdigits : ∀ m, '_' ∉ Nat.toDigits 10 m := fun _ => Nat.underscore_not_in_toDigits
  split at hc
  · simpa using fun heq => hdigits _ (heq ▸ hc)
  · rcases List.mem_cons.mp hc with rfl | hc
    · rfl
    · simpa using fun heq => hdigits _ (heq ▸ hc)

/-- A text behind a sign, if it stands for a negative number. -/
def signed (neg : Bool) (cs : List Char) : List Char := if neg then '-' :: cs else cs

theorem toList_repr_signed (n : Int) :
    n.repr.toList = signed (decide (n < 0)) (Nat.toDigits 10 n.natAbs) := by
  rw [toList_repr]
  unfold signed
  by_cases hn : 0 ≤ n
  · rw [if_pos hn, if_neg (by simpa using hn), show n.natAbs = n.toNat by omega]
  · rw [if_neg hn, if_pos (by simpa using hn), show n.natAbs = (-n).toNat by omega]

/-- Whether a text starts with a digit, or with a sign and a digit. -/
def startsAsNumber : List Char → Bool
  | '-' :: c :: _ => c.isDigit
  | c :: _ => c.isDigit
  | [] => false

theorem startsAsNumber_signed (neg : Bool) {c : Char} (hc : c.isDigit = true) (cs : List Char) :
    startsAsNumber (signed neg (c :: cs)) = true := by
  cases neg with
  | true => exact hc
  | false =>
    unfold signed startsAsNumber
    split
    · rename_i heq
      cases heq
      cases hc
    · rename_i heq
      cases heq
      exact hc
    · rename_i heq
      cases heq

/-- No word with a meaning of its own starts as a number. -/
theorem knownWords_of_startsAsNumber {s : String} (h : startsAsNumber s.toList = true) :
    knownWords.find? (·.1 == s) = none := by
  have hwords : ∀ w ∈ knownWords, startsAsNumber w.1.toList = false := by decide
  rw [List.find?_eq_none]
  intro w hw heq
  have hw' := hwords w hw
  rw [beq_iff_eq.mp heq, h] at hw'
  cases hw'

/-- A text that starts as a number and is no date has the value that is read from it. -/
theorem resolve_number {s : String} {v : Value} (hstart : startsAsNumber s.toList = true)
    (hdate : Moment.parse? s.toList = none) (hnumber : readNumber? s.toList = some v) :
    resolve s = v := by
  unfold resolve
  simp only [resolveWith, knownWords_of_startsAsNumber hstart]
  split
  · rename_i hnil
    rw [hnil] at hstart
    cases hstart
  · rename_i c cs hcons
    have hsign : c.isDigit = true ∨ c = '-' := by
      rw [hcons] at hstart
      unfold startsAsNumber at hstart
      split at hstart
      · rename_i heq
        cases heq
        exact .inr rfl
      · rename_i heq
        cases heq
        exact .inl hstart
      · cases hstart
    have hpoint : c ≠ '.' := by
      rcases hsign with hd | rfl
      · rintro rfl
        cases hd
      · decide
    have hcond : (c.isDigit || c == '+' || c == '-') = true := by
      rcases hsign with hd | rfl
      · simp [hd]
      · rfl
    simp only [beq_iff_eq, hpoint, if_false, hcond, if_true]
    rw [hdate, hnumber]
    rfl

/-- The digits at the start of a text. -/
theorem span_digits {ds rest : List Char} (hds : ∀ c ∈ ds, c.isDigit = true)
    (hrest : ∀ c ∈ rest.head?, c.isDigit = false) :
    (ds ++ rest).span Char.isDigit = (ds, rest) := by
  rw [List.span_eq_takeWhile_dropWhile, List.takeWhile_append_of_pos hds,
    List.dropWhile_append_of_pos hds]
  cases rest with
  | nil => simp
  | cons c cs =>
    have hc : c.isDigit = false := hrest c rfl
    simp [hc]

/-- A date has a second part behind a line; a number does not. -/
theorem parse?_signed (neg : Bool) {ds rest : List Char} (hds : ∀ c ∈ ds, c.isDigit = true)
    (hrest : ∀ c ∈ rest.head?, c.isDigit = false ∧ c ≠ '-') :
    Moment.parse? (signed neg (ds ++ rest)) = none := by
  unfold Moment.parse?
  cases neg with
  | true => rfl
  | false =>
    have hspan : (signed false (ds ++ rest)).span Char.isDigit = (ds, rest) :=
      span_digits hds fun c hc => (hrest c hc).1
    have hline : Moment.char? '-' rest = none := by
      cases rest with
      | nil => rfl
      | cons c cs =>
        have hc : '-' ≠ c := (hrest c rfl).2.symm
        simp [Moment.char?, hc]
    rw [hspan]
    dsimp only
    rw [hline]
    split
    · rfl
    · cases Moment.digits? ds <;> rfl

/-- **A whole number of 64 bits is read as it is written.** -/
theorem resolve_int {n : Int} (hlow : -Decimal.signedEnd ≤ n) (hhigh : n < Decimal.signedEnd) :
    resolve n.repr = .int n := by
  refine resolve_number ?_ ?_ ?_
  · obtain ⟨c, cs, hcons, hdigit⟩ := exists_digit_toDigits n.natAbs
    rw [toList_repr_signed, hcons]
    exact startsAsNumber_signed _ hdigit cs
  · have hdigits : ∀ c ∈ Nat.toDigits 10 n.natAbs, c.isDigit = true := fun _ =>
      Nat.isDigit_of_mem_toDigits (by decide) (by decide)
    have hdate : Moment.parse? (signed (decide (n < 0)) (Nat.toDigits 10 n.natAbs ++ [])) = none :=
      parse?_signed _ hdigits (by simp)
    rwa [List.append_nil, ← toList_repr_signed] at hdate
  · rw [readNumber?, filter_repr, readInt?_repr hlow hhigh]

/-! ## 3. Numbers under their tags -/

/-- A text that is not a date has the same value where dates do not count. -/
theorem resolveWith_false {s : String} (h : ∀ m, resolve s ≠ .date m) :
    resolveWith false s = resolve s := by
  unfold resolve resolveWith at *
  cases hword : knownWords.find? (·.1 == s) with
  | some w => rfl
  | none =>
    simp only [hword] at h
    cases hcons : s.toList with
    | nil => rfl
    | cons c cs =>
      simp only [hcons] at h
      simp only [if_true, Bool.false_eq_true, if_false] at h ⊢
      cases hdate : Moment.parse? (c :: cs) with
      | none => rfl
      | some m =>
        simp only [hdate] at h
        cases hpoint : c == '.' with
        | true => rfl
        | false =>
          cases hnumber : c.isDigit || c == '+' || c == '-' with
          | true =>
            simp only [hpoint, hnumber, Bool.false_eq_true, if_false, if_true] at h
            exact absurd rfl (h m)
          | false => rfl

/-- A number has its value under the tag that its text implies. -/
theorem valueUnder_resolve {s : String} {v : Value} (hs : resolve s = v)
    (hv : (∃ n, v = .int n) ∨ ∃ x, v = .float x) : valueUnder v.tag s = some v := by
  have hsame : resolveWith false s = v := by
    rw [← hs]
    refine resolveWith_false fun m hm => ?_
    rw [hs] at hm
    subst hm
    rcases hv with ⟨_, ⟨⟩⟩ | ⟨_, ⟨⟩⟩
  have htag : v.tag = "!!int" ∨ v.tag = "!!float" := by
    rcases hv with ⟨n, rfl⟩ | ⟨x, rfl⟩
    · exact .inl rfl
    · exact .inr rfl
  have hform : ∀ t, t = "!!int" ∨ t = "!!float" → (t == "") = false ∧ (t == "!!binary") = false ∧
      formTags.contains t = true ∧ (t == "!!timestamp") = false := by
    rintro t (rfl | rfl) <;> decide
  obtain ⟨hempty, hbinary, hknown, hdate⟩ := hform v.tag htag
  unfold valueUnder
  rw [hempty, hbinary, hknown, hdate, hsame]
  simp

theorem valueUnder_int {n : Int} (hlow : -Decimal.signedEnd ≤ n) (hhigh : n < Decimal.signedEnd) :
    valueUnder "!!int" n.repr = some (.int n) :=
  valueUnder_resolve (resolve_int hlow hhigh) (.inl ⟨n, rfl⟩)

end DocAudit.Yaml
