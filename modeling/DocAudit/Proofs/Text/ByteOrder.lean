import Mathlib.Data.String.Basic

/-!
# Texts in the order of their bytes

Texts are compared character by character.  This file shows that comparing their encodings byte by
byte gives the same order:

* `encode_append_lt`: of two different characters the smaller one has the smaller encoding, whatever
  follows the two;
* `utf8_lt_iff` and `utf8_le_iff`: so the order of texts is the order of their bytes;
* `utf8_pairwise_of_nodup`: what is sorted by labels of its own is so strictly.
-/

namespace DocAudit.Text

/-- The bytes of a text. -/
def utf8 (s : String) : List UInt8 := s.toUTF8.data.toList

theorem utf8_eq_flatMap (s : String) : utf8 s = s.toList.flatMap String.utf8EncodeChar := by
  rw [utf8, String.toUTF8_eq_toByteArray, ← String.utf8Encode_toList]
  exact List.toList_data_toByteArray

/-! ## 1. One character -/

theorem byte_lt_iff {m n : Nat} (hm : m < 256) (hn : n < 256) :
    UInt8.ofNat m < UInt8.ofNat n ↔ m < n := by
  rw [UInt8.lt_iff_toNat_lt, UInt8.toNat_ofNat', UInt8.toNat_ofNat', Nat.mod_eq_of_lt hm,
    Nat.mod_eq_of_lt hn]

theorem byte_eq_iff {m n : Nat} (hm : m < 256) (hn : n < 256) :
    UInt8.ofNat m = UInt8.ofNat n ↔ m = n := by
  rw [← UInt8.toNat_inj, UInt8.toNat_ofNat', UInt8.toNat_ofNat', Nat.mod_eq_of_lt hm,
    Nat.mod_eq_of_lt hn]

/-- A smaller character is encoded smaller, and the encodings differ before either of them ends. -/
theorem encode_append_lt {c d : Char} (h : c < d) (x y : List UInt8) :
    String.utf8EncodeChar c ++ x < String.utf8EncodeChar d ++ y := by
  have hcd : c.val.toNat < d.val.toNat := h
  have hd : d.val.toNat < 0x110000 := by
    rcases d.valid with h | h
    · exact Nat.lt_trans h (by decide)
    · exact h.2
  simp only [String.utf8EncodeChar]
  generalize c.val.toNat = m at *
  generalize d.val.toNat = n at *
  -- the bytes after the first hold digits to the base 64: the digits of `m` and `n` are compared
  -- from the last one on
  have h₁ : m / 64 < n / 64 ∨ m / 64 = n / 64 ∧ m % 64 < n % 64 := by omega
  have h₂ : m / 4096 < n / 4096 ∨ m / 4096 = n / 4096 ∧ m / 64 % 64 ≤ n / 64 % 64 := by omega
  have h₃ : m / 262144 < n / 262144 ∨
      m / 262144 = n / 262144 ∧ m / 4096 % 64 ≤ n / 4096 % 64 := by omega
  have h₄ : m / 262144 % 8 = m / 262144 ∧ n / 262144 % 8 = n / 262144 := by omega
  split_ifs <;>
    simp (disch := omega) only [List.cons_append, List.nil_append, List.cons_lt_cons_iff,
      byte_lt_iff, byte_eq_iff] <;> omega

/-! ## 2. Texts -/

theorem flatMap_encode_lt : ∀ {s t : List Char}, s < t →
    s.flatMap String.utf8EncodeChar < t.flatMap String.utf8EncodeChar
  | _, [], h => absurd h (List.not_lt_nil _)
  | [], d :: t, _ => by
      obtain ⟨b, bs, hb⟩ := List.exists_cons_of_ne_nil (String.utf8EncodeChar_ne_nil (c := d))
      rw [List.flatMap_cons, hb]
      exact List.nil_lt_cons _ _
  | c :: s, d :: t, h => by
      rcases List.cons_lt_cons_iff.mp h with hcd | ⟨rfl, hst⟩
      · exact encode_append_lt hcd _ _
      · exact List.append_left_lt (flatMap_encode_lt hst)

theorem utf8_lt {s t : String} (h : s < t) : utf8 s < utf8 t := by
  rw [utf8_eq_flatMap, utf8_eq_flatMap]
  exact flatMap_encode_lt h

/-- **A text is before another if its bytes are.** -/
theorem utf8_lt_iff (s t : String) : utf8 s < utf8 t ↔ s < t := by
  refine ⟨fun h => ?_, utf8_lt⟩
  rcases lt_trichotomy s t with hst | rfl | hts
  · exact hst
  · exact absurd h (List.lt_irrefl _)
  · exact absurd h (List.lt_asymm (utf8_lt hts))

theorem utf8_le_iff (s t : String) : utf8 s ≤ utf8 t ↔ s ≤ t := by
  rw [← List.not_lt, ← not_lt, utf8_lt_iff]

theorem utf8_inj {s t : String} : utf8 s = utf8 t ↔ s = t := by
  refine ⟨fun h => ?_, fun h => h ▸ rfl⟩
  rcases lt_trichotomy s t with hst | rfl | hts
  · exact absurd (h ▸ utf8_lt hst) (List.lt_irrefl _)
  · rfl
  · exact absurd (h ▸ utf8_lt hts) (List.lt_irrefl _)

/-! ## 3. Sorting by a text -/

section Sorting

variable {α : Type} (label : α → String)

theorem pairwise_mergeSort_label (as : List α) :
    (as.mergeSort fun a b => decide (label a ≤ label b)).Pairwise
      fun a b => label a ≤ label b := by
  have htrans : ∀ a b c : α, decide (label a ≤ label b) = true →
      decide (label b ≤ label c) = true → decide (label a ≤ label c) = true := fun a b c hab hbc =>
    decide_eq_true (String.le_trans (of_decide_eq_true hab) (of_decide_eq_true hbc))
  have htotal : ∀ a b : α, (decide (label a ≤ label b) || decide (label b ≤ label a)) = true := by
    intro a b
    simpa using String.le_total (label a) (label b)
  exact (List.pairwise_mergeSort htrans htotal as).imp of_decide_eq_true

variable {label}

/-- What is sorted by labels of its own is so strictly, byte by byte. -/
theorem utf8_pairwise_of_nodup {as : List α} (hdistinct : (as.map label).Nodup)
    (hsorted : as.Pairwise fun a b => label a ≤ label b) :
    (as.map fun a => utf8 (label a)).Pairwise (· < ·) := by
  rw [List.pairwise_map]
  have hne : as.Pairwise fun a b => label a ≠ label b := List.pairwise_map.mp hdistinct
  refine (hsorted.and hne).imp fun ⟨hle, hab⟩ => ?_
  exact (utf8_lt_iff _ _).mpr (lt_of_le_of_ne hle hab)

end Sorting

end DocAudit.Text
