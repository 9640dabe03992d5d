import DocAudit.Text.Split
import Mathlib.Data.List.Basic
import Mathlib.Data.List.TakeWhile

/-!
# Cut texts

* `startsWith_iff`, `endsWith_iff` and `containsText_iff`: looking for a marker is looking for a
  prefix, a suffix or an infix;
* `cutFirst_singleton_eq_some_iff`: a text is cut at the first occurrence of a character;
* `cutFirst_append`: the first occurrence of a marker stays the first when more text follows;
* `splitBy_append_cons`: a separator separates the pieces before it from those after it;
* `mem_splitBy_iff`: a piece stands between two separators, or between a separator and an end;
* `mem_splitAt_iff`: so four tests with markers find it.
-/

namespace DocAudit.Text

/-! ## 1. Markers -/

theorem startsWith_iff : ∀ {marker cs : List Char}, startsWith marker cs = true ↔ marker <+: cs
  | [], cs => by simp [startsWith, dropStart?]
  | m :: ms, [] => by simp [startsWith, dropStart?]
  | m :: ms, c :: cs => by
      have ih : (dropStart? ms cs).isSome = true ↔ ms <+: cs := startsWith_iff
      by_cases h : m = c
      · simp [startsWith, dropStart?, List.cons_prefix_cons, h, ih]
      · simp [startsWith, dropStart?, List.cons_prefix_cons, h]

theorem endsWith_iff {marker cs : List Char} : endsWith marker cs = true ↔ marker <:+ cs := by
  rw [endsWith, startsWith_iff, List.reverse_prefix]

theorem dropStart?_append {marker cs rest : List Char} (h : dropStart? marker cs = some rest)
    (zs : List Char) : dropStart? marker (cs ++ zs) = some (rest ++ zs) := by
  fun_induction dropStart? marker cs with
  | case1 cs =>
    cases h
    rfl
  | case2 m ms => cases h
  | case3 m ms c cs hc ih => simp [dropStart?, hc, ih h]
  | case4 m ms c cs hc => cases h

theorem dropStart?_eq_none_iff {marker cs : List Char} :
    dropStart? marker cs = none ↔ ¬ marker <+: cs := by
  rw [← startsWith_iff, startsWith, Bool.not_eq_true, Option.isSome_eq_false_iff,
    Option.isNone_iff_eq_none]

theorem dropStart?_eq_some_iff {marker cs rest : List Char} :
    dropStart? marker cs = some rest ↔ cs = marker ++ rest := by
  fun_induction dropStart? marker cs with
  | case1 cs => simp
  | case2 m ms => simp
  | case3 m ms c cs hc ih =>
    obtain rfl : m = c := by simpa using hc
    simp [ih]
  | case4 m ms c cs hc =>
    have hne : ¬ c = m := fun heq => hc (beq_iff_eq.mpr heq.symm)
    simp [hne]

theorem cutFirst_eq_none_iff {marker : List Char} :
    ∀ {cs : List Char}, cutFirst marker cs = none ↔ ¬ marker <:+: cs
  | [] => by simp [cutFirst]
  | c :: cs => by
      have ih : cutFirst marker cs = none ↔ ¬ marker <:+: cs := cutFirst_eq_none_iff
      rw [cutFirst, List.infix_cons_iff, not_or, ← dropStart?_eq_none_iff, ← ih]
      cases dropStart? marker (c :: cs) <;> simp

theorem containsText_iff {marker cs : List Char} :
    containsText marker cs = true ↔ marker <:+: cs := by
  rw [containsText, ← Option.ne_none_iff_isSome, ne_eq, cutFirst_eq_none_iff, not_not]

/-- A text is cut at the first occurrence of a character. -/
theorem cutFirst_singleton_eq_some_iff {c : Char} : ∀ {cs before rest : List Char},
    cutFirst [c] cs = some (before, rest) ↔ cs = before ++ c :: rest ∧ c ∉ before
  | [], before, rest => by simp [cutFirst]
  | x :: cs, before, rest => by
      rw [cutFirst]
      by_cases hx : c = x
      · subst hx
        cases before with
        | nil => simp [dropStart?]
        | cons b before =>
          simp only [dropStart?, beq_self_eq_true, if_true, List.cons_append, List.cons.injEq]
          constructor
          · intro h
            cases h
          · rintro ⟨⟨rfl, -⟩, hnot⟩
            exact absurd List.mem_cons_self hnot
      · simp only [dropStart?, beq_eq_false_iff_ne.mpr hx, Bool.false_eq_true, if_false,
          Option.map_eq_some_iff, Prod.exists, Prod.mk.injEq]
        constructor
        · rintro ⟨a, b, hcut, rfl, rfl⟩
          obtain ⟨rfl, hnot⟩ := cutFirst_singleton_eq_some_iff.mp hcut
          exact ⟨rfl, by simp [hx, hnot]⟩
        · rintro ⟨heq, hnot⟩
          cases before with
          | nil => exact absurd (List.cons.inj heq).1.symm hx
          | cons b before =>
            obtain ⟨rfl, rfl⟩ := List.cons.inj heq
            exact ⟨before, rest,
              cutFirst_singleton_eq_some_iff.mpr ⟨rfl, fun h => hnot (List.mem_cons_of_mem _ h)⟩,
              rfl, rfl⟩

/-- The first occurrence of a marker stays the first when more text follows. -/
theorem cutFirst_append {marker : List Char} (zs : List Char) : ∀ {cs before rest : List Char},
    cutFirst marker cs = some (before, rest) →
      cutFirst marker (cs ++ zs) = some (before, rest ++ zs)
  | [], before, rest, h => by
      rw [cutFirst] at h
      split at h
      · rename_i hm
        obtain rfl := List.isEmpty_iff.mp hm
        cases h
        cases zs <;> rfl
      · cases h
  | c :: cs, before, rest, h => by
      rw [cutFirst] at h
      rw [List.cons_append, cutFirst, ← List.cons_append]
      cases hd : dropStart? marker (c :: cs) with
      | some after =>
        rw [hd] at h
        cases h
        rw [dropStart?_append hd]
      | none =>
        rw [hd] at h
        obtain ⟨⟨before', rest'⟩, hcut, heq⟩ := Option.map_eq_some_iff.mp h
        cases heq
        -- The marker fits in front of what follows, because it occurs there later.
        have hfits : marker.length ≤ (c :: cs).length := by
          have hsome : ¬ cutFirst marker cs = none := by simp [hcut]
          have hin := (not_not.mp (mt cutFirst_eq_none_iff.mpr hsome)).length_le
          exact Nat.le_succ_of_le hin
        have hnone : dropStart? marker (c :: cs ++ zs) = none := by
          rw [dropStart?_eq_none_iff] at hd ⊢
          exact fun hp => hd (List.prefix_of_prefix_length_le hp (List.prefix_append _ _) hfits)
        rw [hnone]
        simp [cutFirst_append zs hcut]

/-- No marker reaches into a text that has no character of it. -/
theorem prefix_of_prefix_append {marker cs zs : List Char} (hz : ∀ c ∈ marker, c ∉ zs)
    (h : marker <+: cs ++ zs) : marker <+: cs := by
  rcases List.prefix_or_prefix_of_prefix h (List.prefix_append cs zs) with hp | ⟨w, rfl⟩
  · exact hp
  · cases w with
    | nil => simp
    | cons c w =>
      have hw : c :: w <+: zs := (List.prefix_append_right_inj cs).mp h
      exact absurd (hw.subset List.mem_cons_self) (hz c (by simp))

theorem cutFirst_append_eq_none {marker cs zs : List Char} (hz : ∀ c ∈ marker, c ∉ zs)
    (hm : marker ≠ []) (h : cutFirst marker cs = none) : cutFirst marker (cs ++ zs) = none := by
  rw [cutFirst_eq_none_iff] at h ⊢
  induction cs with
  | nil =>
    intro hin
    obtain ⟨c, hc⟩ := List.exists_mem_of_ne_nil marker hm
    exact hz c hc (hin.subset hc)
  | cons c cs ih =>
    rw [List.infix_cons_iff, not_or] at h
    rw [List.cons_append, List.infix_cons_iff, not_or, ← List.cons_append]
    exact ⟨fun hp => h.1 (prefix_of_prefix_append hz hp), ih h.2⟩

/-! ## 2. Pieces -/

section Pieces

variable {α : Type} {p : α → Bool} {w : List α}

theorem splitBy_ne_nil (cs : List α) : splitBy p cs ≠ [] := by
  cases cs with
  | nil => simp [splitBy]
  | cons c cs =>
    rw [splitBy]
    split
    · simp
    · split <;> simp

theorem splitBy_cons_sep {c : α} (hc : p c = true) (cs : List α) :
    splitBy p (c :: cs) = [] :: splitBy p cs := by
  rw [splitBy]
  split
  · rename_i h
    exact absurd h (splitBy_ne_nil cs)
  · rename_i h
    rw [if_pos hc, h]

/-- The pieces around a separator are those before it and those after it. -/
theorem splitBy_append_cons {c : α} (hc : p c = true) (b : List α) :
    ∀ a : List α, splitBy p (a ++ c :: b) = splitBy p a ++ splitBy p b
  | [] => splitBy_cons_sep hc b
  | x :: a => by
      have ih := splitBy_append_cons hc b a
      cases h : splitBy p a with
      | nil => exact absurd h (splitBy_ne_nil a)
      | cons w ws =>
        rw [h] at ih
        simp only [List.cons_append, splitBy, ih, h]
        split <;> rfl

theorem splitBy_of_forall_not : ∀ {cs : List α}, (∀ c ∈ cs, p c = false) → splitBy p cs = [cs]
  | [], _ => rfl
  | c :: cs, h => by
      have ih := splitBy_of_forall_not fun x hx => h x (List.mem_cons_of_mem c hx)
      simp [splitBy, ih, h c List.mem_cons_self]

/-- No piece has a separator in it. -/
theorem forall_mem_splitBy : ∀ {cs : List α}, ∀ w ∈ splitBy p cs, ∀ c ∈ w, p c = false
  | [], w, hw, c, hc => by
      rw [List.mem_singleton.mp hw] at hc
      cases hc
  | x :: cs, w, hw, c, hc => by
      have ih : ∀ v ∈ splitBy p cs, ∀ d ∈ v, p d = false := forall_mem_splitBy
      cases h : splitBy p cs with
      | nil => exact absurd h (splitBy_ne_nil cs)
      | cons v vs =>
        rw [h] at ih
        rw [splitBy, h] at hw
        by_cases hx : p x = true
        · simp only [hx, if_true] at hw
          rcases List.mem_cons.mp hw with rfl | hw
          · cases hc
          · exact ih w hw c hc
        · simp only [hx, Bool.false_eq_true, if_false] at hw
          rcases List.mem_cons.mp hw with rfl | hw
          · rcases List.mem_cons.mp hc with rfl | hc
            · simpa using hx
            · exact ih v List.mem_cons_self c hc
          · exact ih w (List.mem_cons_of_mem _ hw) c hc

/-- What stands at the start of a list up to the first separator. -/
theorem exists_append_word (cs : List α) : ∃ w rest, cs = w ++ rest ∧ (∀ c ∈ w, p c = false) ∧
    ∀ c ∈ rest.head?, p c = true := by
  refine ⟨cs.takeWhile (!p ·), cs.dropWhile (!p ·), List.takeWhile_append_dropWhile.symm,
    fun c hc => ?_, fun c hc => ?_⟩
  · simpa using List.mem_takeWhile_imp hc
  · have hnot := List.head?_dropWhile_not (!p ·) cs
    rw [Option.mem_def.mp hc] at hnot
    simpa using hnot

/-- The first piece ends at the first separator. -/
theorem splitBy_append_of_word (hw : ∀ c ∈ w, p c = false) {c : α} (hc : p c = true)
    (cs : List α) : splitBy p (w ++ c :: cs) = w :: splitBy p cs := by
  rw [splitBy_append_cons hc, splitBy_of_forall_not hw, List.singleton_append]

/-- **A piece stands between two separators**, or between a separator and an end. -/
theorem mem_splitBy_iff {cs : List α} : w ∈ splitBy p cs ↔
    (∀ c ∈ w, p c = false) ∧ ∃ before after, cs = before ++ (w ++ after) ∧
      (∀ c ∈ before.getLast?, p c = true) ∧ ∀ c ∈ after.head?, p c = true := by
  constructor
  · intro hmem
    refine ⟨forall_mem_splitBy w hmem, ?_⟩
    -- The first piece is cut off with its separator; the others are pieces of what is left.
    induction hlength : cs.length using Nat.strong_induction_on generalizing cs with
    | _ n ih =>
      obtain ⟨v, rest, rfl, hv, hrest⟩ := exists_append_word (p := p) cs
      cases rest with
      | nil =>
        rw [List.append_nil, splitBy_of_forall_not hv, List.mem_singleton] at hmem
        subst hmem
        exact ⟨[], [], rfl, nofun, nofun⟩
      | cons c rest =>
        have hc : p c = true := hrest c rfl
        rw [splitBy_append_of_word hv hc] at hmem
        rcases List.mem_cons.mp hmem with rfl | hmem
        · exact ⟨[], c :: rest, rfl, nofun, hrest⟩
        · have hlt : rest.length < n := by
            rw [List.length_append, List.length_cons] at hlength
            omega
          obtain ⟨before, after, rfl, hbefore, hafter⟩ := ih _ hlt hmem rfl
          refine ⟨v ++ c :: before, after, by simp, ?_, hafter⟩
          cases before with
          | nil => simpa using hc
          | cons b before =>
            simpa [List.getLast?_append, List.getLast?_cons_cons] using hbefore
  · rintro ⟨hw, before, after, rfl, hbefore, hafter⟩
    have hfirst : w ∈ splitBy p (w ++ after) := by
      cases after with
      | nil => rw [List.append_nil, splitBy_of_forall_not hw, List.mem_singleton]
      | cons c after =>
        rw [splitBy_append_of_word hw (hafter c rfl)]
        exact List.mem_cons_self
    rcases List.eq_nil_or_concat before with rfl | ⟨before, c, rfl⟩
    · exact hfirst
    · have hc : p c = true := hbefore c (by simp)
      rw [List.concat_eq_append, List.append_assoc, List.singleton_append, splitBy_append_cons hc]
      exact List.mem_append_right _ hfirst

end Pieces

section Separator

variable {sep : Char}

theorem eq_nil_or_concat_sep {before : List Char} (h : ∀ c ∈ before.getLast?, (c == sep) = true) :
    before = [] ∨ ∃ b, before = b ++ [sep] := by
  rcases List.eq_nil_or_concat before with rfl | ⟨b, c, rfl⟩
  · exact .inl rfl
  · rw [List.concat_eq_append] at h ⊢
    obtain rfl : c = sep := beq_iff_eq.mp (h c (by simp))
    exact .inr ⟨b, rfl⟩

theorem eq_nil_or_cons_sep {after : List Char} (h : ∀ c ∈ after.head?, (c == sep) = true) :
    after = [] ∨ ∃ a, after = sep :: a := by
  cases after with
  | nil => exact .inl rfl
  | cons c a =>
    obtain rfl : c = sep := beq_iff_eq.mp (h c rfl)
    exact .inr ⟨a, rfl⟩

/-- **Four tests find a piece**: it is the whole text, or what the text starts with in front of a
separator, or what it ends with behind one, or it stands between two of them. -/
theorem mem_splitAt_iff {w cs : List Char} (hw : sep ∉ w) : w ∈ splitAt sep cs ↔
    cs = w ∨ w ++ [sep] <+: cs ∨ sep :: w <:+ cs ∨ sep :: (w ++ [sep]) <:+: cs := by
  have hword : ∀ c ∈ w, (c == sep) = false := fun c hc =>
    beq_eq_false_iff_ne.mpr fun heq => hw (heq ▸ hc)
  rw [splitAt, mem_splitBy_iff, and_iff_right hword]
  constructor
  · rintro ⟨before, after, rfl, hbefore, hafter⟩
    rcases eq_nil_or_concat_sep hbefore with rfl | ⟨b, rfl⟩ <;>
      rcases eq_nil_or_cons_sep hafter with rfl | ⟨a, rfl⟩
    · exact .inl (by simp)
    · exact .inr (.inl ⟨a, by simp⟩)
    · exact .inr (.inr (.inl ⟨b, by simp⟩))
    · exact .inr (.inr (.inr ⟨b, a, by simp⟩))
  · rintro (rfl | ⟨a, rfl⟩ | ⟨b, rfl⟩ | ⟨b, a, rfl⟩)
    · exact ⟨[], [], by simp, nofun, nofun⟩
    · exact ⟨[], sep :: a, by simp, nofun, by simp⟩
    · exact ⟨b ++ [sep], [], by simp, by simp, nofun⟩
    · exact ⟨b ++ [sep], sep :: a, by simp, by simp, by simp⟩

end Separator

end DocAudit.Text
