import DocAudit.Yaml.Lexeme
import DocAudit.Yaml.Page
import Mathlib.Algebra.Group.Nat.Defs

/-!
# Scalars with and without quotes

A scalar that is written on one line is read as the text that it was made of.  Between double quotes
every text can be written: what cannot stand there as it is has an escape, and no line is broken.
Without quotes a text is written only if nothing in it ends a plain scalar.

* `scanDouble_doubleChars`: the text between double quotes is read as it was written, whatever
  follows it.
* `blockPlain_of_chooseStyle`: what the choice of a style says about a text that gets no quotes.
* `scanPlain_key`, `scanPlain_value`: such a text is read as it was written, as a key up to its
  colon and as a value up to a line that starts less deep.
-/

namespace DocAudit.Yaml

open DocAudit.Text

variable {whole : Bool} {m : Mark} {b : Nat} {c : Char} {cs rest text blanks : List Char}
  {held : Held}

/-! ## 1. Cells of a line -/

/-- The place behind so many characters of a line. -/
def Mark.further (m : Mark) (n : Nat) : Mark := ⟨m.index + n, m.line, m.column + n⟩

theorem Mark.next_further (m : Mark) (n : Nat) : m.next.further n = m.further (n + 1) := by
  simp only [Mark.next, Mark.further, Mark.mk.injEq, true_and]
  omega

theorem Mark.further_further (m : Mark) (n k : Nat) :
    (m.further n).further k = m.further (n + k) := by
  simp only [Mark.further, Mark.mk.injEq, true_and]
  omega

/-- A character that does not end its line. -/
def IsInline (c : Char) : Prop := c ≠ '\r' ∧ c.toNat ≠ 0x85 ∧ isBreak c = false

instance (c : Char) : Decidable (IsInline c) := inferInstanceAs (Decidable (_ ∧ _))

theorem cellsFrom_cons (hc : c ≠ '\r') :
    cellsFrom whole m b (c :: cs) =
      Cell.ofChar m b c ::
        if isBreak (Cell.ofChar m b c).char then cellsFrom whole (m.nextLine 1) (b + 1) cs
        else cellsFrom whole m.next (if isGap c then b else 0) cs := by
  rw [cellsFrom]
  rintro _ rfl
  exact absurd rfl hc

theorem cellsFrom_inline (hc : IsInline c) :
    cellsFrom whole m b (c :: cs) =
      ⟨c, m, b, .one⟩ :: cellsFrom whole m.next (if isGap c then b else 0) cs := by
  obtain ⟨hreturn, hnext, hbreak⟩ := hc
  have hcell : Cell.ofChar m b c = ⟨c, m, b, .one⟩ := by
    simp [Cell.ofChar, hreturn, hnext, hbreak]
  rw [cellsFrom_cons hreturn, hcell]
  simp [hbreak]

theorem cellsFrom_newline :
    cellsFrom whole m b ('\n' :: cs) =
      ⟨'\n', m, b, .one⟩ :: cellsFrom whole (m.nextLine 1) (b + 1) cs :=
  cellsFrom_cons (by decide)

/-- Within a line no document starts or ends. -/
theorem atDocumentMark_of_column {cell : Cell} {cells : List Cell} (h : 0 < cell.mark.column) :
    atDocumentMark (cell :: cells) = false := by
  have hmark : ∀ d, isDocumentMark d (cell :: cells) = false := by
    intro d
    unfold isDocumentMark
    split
    · rename_i heq
      cases heq
      simp [Nat.pos_iff_ne_zero.mp h]
    · rfl
  simp [atDocumentMark, hmark]

/-! ## 2. Escapes -/

section Steps

variable {cell : Cell} {cells : List Cell}

theorem scanDouble_open :
    scanDouble .open_ text held (cell :: cells) =
      if cell.char == endMark || atDocumentMark (cell :: cells) then none
      else if isGap cell.char then scanDouble .open_ text (held.blank cell.char) cells
      else if isBreak cell.char then scanDouble .open_ text (held.break_ cell.char) cells
      else if cell.char == '"' then some (String.ofList (held.folded ++ text).reverse, cells)
      else if cell.char == '\\' then scanDouble .escape (held.folded ++ text) .none cells
      else scanDouble .open_ (cell.char :: (held.folded ++ text)) .none cells :=
  rfl

theorem scanDouble_escape :
    scanDouble .escape text held (cell :: cells) =
      if isBreak cell.char then scanDouble .open_ text ⟨[], some [], []⟩ cells
      else (escapes.lookup cell.char).elim
        (if escapeDigits cell.char == 0 then none
          else scanDouble (.digits (escapeDigits cell.char) 0) text .none cells)
        fun n => scanDouble .open_ (Char.ofNat n :: text) .none cells := by
  rw [scanDouble]
  cases escapes.lookup cell.char <;> rfl

theorem scanDouble_digit {left v d : Nat} (hd : hexDigit? c = some d) :
    scanDouble (.digits left v) text held (⟨c, m, b, .one⟩ :: cells) =
      if left > 1 then scanDouble (.digits (left - 1) (v * 16 + d)) text .none cells
      else if (0xD800 ≤ v * 16 + d && v * 16 + d ≤ 0xDFFF) || v * 16 + d > 0x10FFFF then none
      else scanDouble .open_ (Char.ofNat (v * 16 + d) :: text) .none cells := by
  rw [scanDouble, hd]

end Steps

theorem hexDigit?_upper : ∀ {d : Nat}, d < 16 → hexDigit? (Nat.digitChar d).toUpper = some d := by
  decide

theorem isInline_upper : ∀ {d : Nat}, d < 16 → IsInline (Nat.digitChar d).toUpper ∧
    isGap (Nat.digitChar d).toUpper = false := by
  decide

/-- Digits that are not the last ones of an escape. -/
theorem scanDouble_hexDigits (w n left v : Nat) (hleft : 0 < left) :
    scanDouble (.digits (w + left) v) text .none (cellsFrom whole m 0 (Page.hexDigits w n ++ cs)) =
      scanDouble (.digits left (v * 16 ^ w + n % 16 ^ w)) text .none
        (cellsFrom whole (m.further w) 0 cs) := by
  induction w generalizing n left cs with
  | zero => simp [Page.hexDigits, Mark.further, Nat.mod_one]
  | succ w ih =>
    have hd : n % 16 < 16 := Nat.mod_lt n (by decide)
    obtain ⟨hinline, hgap⟩ := isInline_upper hd
    have hvalue : (v * 16 ^ w + n / 16 % 16 ^ w) * 16 + n % 16 =
        v * 16 ^ (w + 1) + n % 16 ^ (w + 1) := by
      rw [Nat.pow_succ', Nat.mod_mul, Nat.add_mul, Nat.mul_assoc, Nat.mul_comm (16 ^ w)]
      omega
    rw [Page.hexDigits, List.append_assoc, Nat.add_assoc, Nat.add_comm 1,
      ih (n / 16) (left + 1) (Nat.succ_pos left), List.singleton_append, cellsFrom_inline hinline]
    have hmore : left + 1 > 1 := by omega
    rw [scanDouble_digit (hexDigit?_upper hd), if_pos hmore, hvalue, hgap]
    rfl

/-- The digits of an escape. -/
theorem scanDouble_lastDigits (w : Nat) (hc : c.toNat < 16 ^ (w + 1)) :
    scanDouble (.digits (w + 1) 0) text .none
        (cellsFrom whole m 0 (Page.hexDigits (w + 1) c.toNat ++ cs)) =
      scanDouble .open_ (c :: text) .none (cellsFrom whole (m.further (w + 1)) 0 cs) := by
  have hd : c.toNat % 16 < 16 := Nat.mod_lt _ (by decide)
  obtain ⟨hinline, hgap⟩ := isInline_upper hd
  have hvalue : (0 * 16 ^ w + c.toNat / 16 % 16 ^ w) * 16 + c.toNat % 16 = c.toNat := by
    rw [Nat.pow_succ'] at hc
    rw [Nat.mod_eq_of_lt (by omega)]
    omega
  have hscalar : ((decide (0xD800 ≤ c.toNat) && decide (c.toNat ≤ 0xDFFF)) ||
      decide (c.toNat > 0x10FFFF)) = false := by
    have hvalid : c.toNat < 0xD800 ∨ 0xDFFF < c.toNat ∧ c.toNat < 0x110000 := c.valid
    simp only [Bool.or_eq_false_iff, Bool.and_eq_false_iff, decide_eq_false_iff_not]
    omega
  rw [Page.hexDigits, List.append_assoc, scanDouble_hexDigits w _ 1 0 Nat.one_pos,
    List.singleton_append, cellsFrom_inline hinline, scanDouble_digit (hexDigit?_upper hd), hvalue,
    if_neg (Nat.lt_irrefl 1), hscalar, if_neg Bool.false_ne_true, hgap, Char.ofNat_toNat]
  rfl

/-- What is held back comes before the next character. -/
theorem scanDouble_backslash (hcolumn : 0 < m.column) :
    scanDouble .open_ text held (cellsFrom whole m b ('\\' :: cs)) =
      scanDouble .escape (held.folded ++ text) .none (cellsFrom whole m.next 0 cs) := by
  rw [cellsFrom_inline (by decide), scanDouble_open, atDocumentMark_of_column hcolumn]
  rfl

theorem length_hexDigits (w n : Nat) : (Page.hexDigits w n).length = w := by
  induction w generalizing n with
  | zero => rfl
  | succ w ih => rw [Page.hexDigits, List.length_append, ih, List.length_singleton]

/-- An escape by number, which starts with a letter for the number of its digits. -/
theorem scanDouble_numbered {a : Char} (w : Nat) (hcolumn : 0 < m.column) (ha : IsInline a)
    (hnone : escapes.lookup a = none) (hw : escapeDigits a = w + 1) (hgap : isGap a = false)
    (hc : c.toNat < 16 ^ (w + 1)) :
    scanDouble .open_ text held
        (cellsFrom whole m b ('\\' :: a :: Page.hexDigits (w + 1) c.toNat ++ cs)) =
      scanDouble .open_ (c :: (held.folded ++ text)) .none (cellsFrom whole
        (m.further ('\\' :: a :: Page.hexDigits (w + 1) c.toNat).length) 0 cs) := by
  have hplace : m.further ('\\' :: a :: Page.hexDigits (w + 1) c.toNat).length =
      m.next.next.further (w + 1) := by
    rw [List.length_cons, List.length_cons, length_hexDigits, Mark.next_further, Mark.next_further]
  have hdigits : ∀ cells, scanDouble .escape (held.folded ++ text) .none (⟨a, m.next, 0, .one⟩ ::
      cells) = scanDouble (.digits (w + 1) 0) (held.folded ++ text) .none cells := fun cells => by
    rw [scanDouble_escape, ha.2.2, if_neg Bool.false_ne_true, hnone, hw]
    rfl
  rw [hplace, List.cons_append, scanDouble_backslash hcolumn, List.cons_append,
    cellsFrom_inline ha, hgap, hdigits]
  exact scanDouble_lastDigits w hc

/-- **An escape is read as the character that it was made of.** -/
theorem scanDouble_escaped (hcolumn : 0 < m.column) :
    scanDouble .open_ text held (cellsFrom whole m b (Page.escaped c ++ cs)) =
      scanDouble .open_ (c :: (held.folded ++ text)) .none
        (cellsFrom whole (m.further (Page.escaped c).length) 0 cs) := by
  have hletters : ∀ x ∈ Page.escapeLetters, IsInline x.2 ∧ isGap x.2 = false ∧
      escapes.lookup x.2 = some x.1 := by
    decide
  unfold Page.escaped
  split
  · rename_i l hl
    obtain ⟨before, after, heq, -⟩ := List.lookup_eq_some_iff.mp hl
    obtain ⟨hinline, hgap, hlookup⟩ := hletters (c.toNat, l) (by simp [heq])
    rw [List.cons_append, scanDouble_backslash hcolumn, List.singleton_append,
      cellsFrom_inline hinline, scanDouble_escape, hinline.2.2, if_neg Bool.false_ne_true, hlookup,
      hgap, Option.elim_some, Char.ofNat_toNat]
    rfl
  · have hvalid : c.toNat < 0xD800 ∨ 0xDFFF < c.toNat ∧ c.toNat < 0x110000 := c.valid
    dsimp only
    split
    · exact scanDouble_numbered 1 hcolumn (by decide) rfl rfl rfl (by omega)
    · split
      · exact scanDouble_numbered 3 hcolumn (by decide) rfl rfl rfl (by omega)
      · exact scanDouble_numbered 7 hcolumn (by decide) rfl rfl rfl (by omega)

/-! ## 3. Texts -/

/-- A text between double quotes, all of it in escapes if `marked`. -/
def doubled (marked : Bool) (cs : List Char) : List Char :=
  cs.flatMap fun c =>
    if marked || !isWritable c || isTextBreak c || c == '"' || c == '\\' then Page.escaped c
    else [c]

/-- A character that may be written as it is, and does not end its line. -/
def IsPlainChar (c : Char) : Prop := isWritable c = true ∧ isTextBreak c = false

theorem IsPlainChar.isInline (h : IsPlainChar c) : IsInline c ∧ c ≠ endMark ∧ c ≠ '\t' := by
  obtain ⟨hwritable, hbreak⟩ := h
  have hline : isBreak c = false := by
    simp only [isTextBreak, Bool.or_eq_false_iff] at hbreak
    exact hbreak.1.1
  refine ⟨⟨?_, ?_, hline⟩, ?_, ?_⟩
  · rintro rfl
    cases hwritable
  · intro heq
    simp [isWritable, heq] at hwritable
  · rintro rfl
    cases hwritable
  · rintro rfl
    cases hwritable

/-- A character that is no blank is read as it is. -/
theorem scanDouble_plain (hcolumn : 0 < m.column) (hc : IsPlainChar c) (hquote : c ≠ '"')
    (hslash : c ≠ '\\') (hblank : c ≠ ' ') :
    scanDouble .open_ text held (cellsFrom whole m b (c :: cs)) =
      scanDouble .open_ (c :: (held.folded ++ text)) .none (cellsFrom whole m.next 0 cs) := by
  obtain ⟨hinline, hend, htab⟩ := hc.isInline
  have hgap : isGap c = false := by simp [isGap, hblank, htab]
  rw [cellsFrom_inline hinline, scanDouble_open, atDocumentMark_of_column hcolumn]
  simp [hend, hgap, hinline.2.2, hquote, hslash]

/-- A blank is held back. -/
theorem scanDouble_blank (hcolumn : 0 < m.column) :
    scanDouble .open_ text ⟨blanks, none, []⟩ (cellsFrom whole m b (' ' :: cs)) =
      scanDouble .open_ text ⟨' ' :: blanks, none, []⟩ (cellsFrom whole m.next b cs) := by
  rw [cellsFrom_inline (by decide), scanDouble_open, atDocumentMark_of_column hcolumn]
  rfl

theorem scanDouble_quote (hcolumn : 0 < m.column) :
    scanDouble .open_ text held (cellsFrom whole m b ('"' :: cs)) =
      some (String.ofList (held.folded ++ text).reverse, cellsFrom whole m.next 0 cs) := by
  rw [cellsFrom_inline (by decide), scanDouble_open, atDocumentMark_of_column hcolumn]
  rfl

theorem scanDouble_doubled (marked : Bool) (hcolumn : 0 < m.column) :
    scanDouble .open_ text ⟨blanks, none, []⟩
        (cellsFrom whole m b (doubled marked cs ++ '"' :: rest)) =
      some (String.ofList ((blanks ++ text).reverse ++ cs),
        cellsFrom whole (m.further ((doubled marked cs).length + 1)) 0 rest) := by
  induction cs generalizing m b text blanks with
  | nil =>
    rw [doubled, List.flatMap_nil, List.nil_append, scanDouble_quote hcolumn, List.append_nil]
    rfl
  | cons c cs ih =>
    have hfurther : ∀ n, 0 < (m.further n).column := fun n => by
      simp only [Mark.further]
      omega
    have hcons : doubled marked (c :: cs) =
        (if marked || !isWritable c || isTextBreak c || c == '"' || c == '\\' then Page.escaped c
          else [c]) ++ doubled marked cs := rfl
    have hone : 0 < m.next.column := Nat.succ_pos _
    rw [hcons, List.append_assoc]
    split
    · have hrest := @ih _ 0 (c :: (blanks ++ text)) [] (hfurther (Page.escaped c).length)
      rw [scanDouble_escaped hcolumn]
      refine hrest.trans ?_
      rw [Mark.further_further, List.length_append, Nat.add_assoc]
      simp
    · rename_i hplain
      simp only [Bool.or_eq_true, not_or, Bool.not_eq_true, Bool.not_eq_false', beq_eq_false_iff_ne]
        at hplain
      obtain ⟨⟨⟨⟨-, hwritable⟩, hbreak⟩, hquote⟩, hslash⟩ := hplain
      rw [List.singleton_append, List.singleton_append, List.length_cons]
      by_cases hblank : c = ' '
      · subst hblank
        rw [scanDouble_blank hcolumn, ih hone, Mark.next_further]
        simp
      · have hrest := @ih _ 0 (c :: (blanks ++ text)) [] hone
        rw [scanDouble_plain hcolumn ⟨hwritable, hbreak⟩ hquote hslash hblank]
        refine hrest.trans ?_
        rw [Mark.next_further]
        simp

/-- **A text between double quotes is read as it was written**, whatever follows it. -/
theorem scanDouble_doubleChars (hcolumn : 0 < m.column) :
    scanDouble .open_ [] .none (cellsFrom whole m b (Page.doubleChars cs ++ '"' :: rest)) =
      some (String.ofList cs,
        cellsFrom whole (m.further ((Page.doubleChars cs).length + 1)) 0 rest) :=
  scanDouble_doubled _ hcolumn

/-! ## 4. Texts without quotes -/

/-- A blank, a line break or nothing, as a mark sees it before itself. -/
def isGapBefore (c : Char) : Bool := c == ' ' || c == '\t' || isTextBreak c || c.toNat == 0

/-- A text that has no marks of block context behind its first character. -/
theorem innerMarks_cons {gap : Bool} (h : (innerMarks gap (c :: cs)).2 = false) :
    (innerMarks (isGapBefore c) cs).2 = false ∧ (c = ':' → blankOrEnd cs = false) ∧
      (c = '#' → gap = false) := by
  obtain ⟨f, hf⟩ : ∃ f, innerMarks (isGapBefore c) cs = f := ⟨_, rfl⟩
  have hcons : innerMarks gap (c :: cs) =
      (if c == ',' || c == '?' || c == '[' || c == ']' || c == '\x7b' || c == '\x7d' then
        (true, f.2)
      else if c == ':' then (true, f.2 || blankOrEnd cs)
      else if c == '#' && gap then (true, true)
      else f) := by
    rw [← hf]
    rfl
  rw [hf]
  rw [hcons] at h
  by_cases hcolon : c = ':'
  · subst hcolon
    simpa using h
  · by_cases hhash : c = '#'
    · subst hhash
      cases gap with
      | true => cases h
      | false => exact ⟨h, by simp, by simp⟩
    · refine ⟨?_, fun heq => absurd heq hcolon, fun heq => absurd heq hhash⟩
      simp only [beq_iff_eq, hcolon, if_false, Bool.false_and, beq_eq_false_iff_ne.mpr hhash,
        Bool.false_eq_true] at h
      split at h <;> exact h

/-- A text that may go on without quotes; `gap` tells whether a blank comes before it. -/
structure Bare (gap : Bool) (cs : List Char) : Prop where
  chars : ∀ c ∈ cs, IsPlainChar c
  marks : (innerMarks gap cs).2 = false
  last : cs.getLast? ≠ some ' '

theorem IsPlainChar.isGapBefore (h : IsPlainChar c) : isGapBefore c = (c == ' ') := by
  obtain ⟨-, hend, htab⟩ := h.isInline
  have hzero : c.toNat ≠ 0 := by
    intro heq
    refine hend ?_
    rw [← Char.ofNat_toNat c, heq]
    rfl
  unfold Yaml.isGapBefore
  rw [h.2, beq_eq_false_iff_ne.mpr htab, beq_eq_false_iff_ne.mpr hzero]
  simp

/-- What stands in a text without quotes is no separator, but for its blanks. -/
theorem IsPlainChar.not_isSeparator (h : IsPlainChar c) (hblank : c ≠ ' ') :
    isSeparator (charAt (cellsFrom whole m b (c :: cs))) = false := by
  obtain ⟨hinline, hend, htab⟩ := h.isInline
  rw [cellsFrom_inline hinline]
  simp [charAt, isSeparator, isGap, isLineEnd, hblank, htab, hend, hinline.2.2]

variable {limit : Int} {inWord : Bool}

theorem scanPlain_cons {cell : Cell} {cells : List Cell} :
    scanPlain false limit inWord text held (cell :: cells) =
      if isGap cell.char then
        if held.first.isSome && cell.mark.column < limit && cell.char == '\t' then none
        else scanPlain false limit false text (held.blank cell.char) cells
      else if isBreak cell.char then
        scanPlain false limit false text (held.break_ cell.char) cells
      else if cell.char == endMark ||
          (!inWord && !text.isEmpty && decide ((cell.mark.column : Int) < limit)) ||
          (!inWord && (cell.char == '#' || atDocumentMark (cell :: cells))) ||
          (cell.char == ':' && isSeparator (charAt cells)) then
        some (String.ofList text.reverse, held.first.isSome, cell :: cells)
      else scanPlain false limit true (cell.char :: (held.folded ++ text)) .none cells := by
  rw [scanPlain, Bool.false_and, Bool.or_false, Bool.not_false, Bool.and_true]

/-- A character of a text without quotes. -/
theorem scanPlain_char (hc : IsPlainChar c) (hblank : c ≠ ' ')
    (hcolumn : text = [] ∨ limit ≤ m.column) (hhash : c = '#' → inWord = true)
    (hmark : inWord = true ∨ atDocumentMark (cellsFrom whole m b (c :: cs)) = false)
    (hcolon : c = ':' → isSeparator (charAt (cellsFrom whole m.next 0 cs)) = false) :
    scanPlain false limit inWord text ⟨blanks, none, []⟩ (cellsFrom whole m b (c :: cs)) =
      scanPlain false limit true (c :: (blanks ++ text)) .none (cellsFrom whole m.next 0 cs) := by
  obtain ⟨hinline, hend, htab⟩ := hc.isInline
  have hgap : isGap c = false := by simp [isGap, hblank, htab]
  have hstop : (!inWord && !text.isEmpty && decide ((m.column : Int) < limit)) = false := by
    rcases hcolumn with rfl | hcolumn
    · simp
    · simp [Int.not_lt.mpr hcolumn]
  have hdocument : (!inWord && (c == '#' || atDocumentMark (cellsFrom whole m b (c :: cs)))) =
      false := by
    cases inWord with
    | true => rfl
    | false =>
      have hno : c ≠ '#' := fun heq => Bool.noConfusion (hhash heq)
      simp [hno, hmark.resolve_left Bool.false_ne_true]
  have hkey : (c == ':' && isSeparator (charAt (cellsFrom whole m.next 0 cs))) = false := by
    by_cases heq : c = ':'
    · simp [heq, hcolon heq]
    · simp [heq]
  rw [cellsFrom_inline hinline, hgap, if_neg Bool.false_ne_true] at hdocument ⊢
  rw [scanPlain_cons]
  simp only [hgap, hinline.2.2, Bool.false_eq_true, if_false, beq_eq_false_iff_ne.mpr hend, hstop,
    hdocument, hkey, Bool.or_false]
  rfl

/-- A blank in a text without quotes is held back. -/
theorem scanPlain_blank :
    scanPlain false limit inWord text ⟨blanks, none, []⟩ (cellsFrom whole m b (' ' :: cs)) =
      scanPlain false limit false text ⟨' ' :: blanks, none, []⟩ (cellsFrom whole m.next b cs) := by
  rw [cellsFrom_inline (by decide), scanPlain_cons]
  rfl

/-- Behind a colon in a text without quotes the word goes on. -/
theorem not_isSeparator_of_goesOn (hcs : ∀ d ∈ cs, IsPlainChar d) (h : blankOrEnd cs = false) :
    isSeparator (charAt (cellsFrom whole m b (cs ++ rest))) = false := by
  cases cs with
  | nil => cases h
  | cons d ds =>
    simp only [blankOrEnd, Bool.or_eq_false_iff, beq_eq_false_iff_ne] at h
    exact (hcs d List.mem_cons_self).not_isSeparator h.1

theorem Bare.tail {gap : Bool} (h : Bare gap (c :: cs)) (hne : cs ≠ []) : Bare (c == ' ') cs where
  chars := fun d hd => h.chars d (List.mem_cons_of_mem c hd)
  marks := by
    rw [← (h.chars c List.mem_cons_self).isGapBefore]
    exact (innerMarks_cons h.marks).1
  last := by
    have hlast := h.last
    rwa [List.getLast?_cons_of_ne_nil hne] at hlast

/-- The rest of a text without quotes. -/
theorem scanPlain_bare (h : Bare (!inWord) cs) (hne : cs ≠ []) (hcolumn : 0 < m.column)
    (hlimit : limit ≤ m.column) :
    scanPlain false limit inWord text ⟨blanks, none, []⟩ (cellsFrom whole m b (cs ++ rest)) =
      scanPlain false limit true (cs.reverse ++ (blanks ++ text)) .none
        (cellsFrom whole (m.further cs.length) 0 rest) := by
  induction cs generalizing m b text blanks inWord with
  | nil => exact absurd rfl hne
  | cons c cs ih =>
    have hc := h.chars c List.mem_cons_self
    have hone : 0 < m.next.column := Nat.succ_pos _
    have hfar : limit ≤ m.next.column := by
      simp only [Mark.next]
      omega
    rw [List.cons_append, List.length_cons, ← Mark.next_further]
    by_cases hblank : c = ' '
    · subst hblank
      have hmore : cs ≠ [] := by
        rintro rfl
        exact h.last rfl
      have hrest : Bare (!false) cs := h.tail hmore
      rw [scanPlain_blank, ih hrest hmore hone hfar]
      simp
    · have hhash : c = '#' → inWord = true := by
        intro heq
        simpa using (innerMarks_cons h.marks).2.2 heq
      have hcolon : c = ':' →
          isSeparator (charAt (cellsFrom whole m.next 0 (cs ++ rest))) = false := by
        intro heq
        exact not_isSeparator_of_goesOn (fun d hd => h.chars d (List.mem_cons_of_mem c hd))
          ((innerMarks_cons h.marks).2.1 heq)
      rw [scanPlain_char hc hblank (.inr hlimit) hhash (.inr ?_) hcolon]
      · by_cases hmore : cs = []
        · subst hmore
          rfl
        · have hrest : Bare (!true) cs := by
            have htail := h.tail hmore
            rwa [beq_eq_false_iff_ne.mpr hblank] at htail
          refine (ih hrest hmore hone hfar).trans ?_
          simp
      · rw [cellsFrom_inline hc.isInline.1]
        exact atDocumentMark_of_column hcolumn

/-- **A text that may be written without quotes** in block context, by its characters. -/
structure BlockPlain (c : Char) (cs : List Char) : Prop where
  first : IsPlainChar c ∧ c ≠ ' ' ∧ c ≠ '#'
  colon : c = ':' → blankOrEnd cs = false
  document : startsWith ['-', '-', '-'] (c :: cs) = false ∧
    startsWith ['.', '.', '.'] (c :: cs) = false
  bare : Bare false cs

theorem marks_cons (h : (marks (c :: cs)).2 = false) :
    (innerMarks (isGapBefore c) cs).2 = false ∧ c ≠ '#' ∧ (c = ':' → blankOrEnd cs = false) ∧
      startsWith ['-', '-', '-'] (c :: cs) = false ∧
      startsWith ['.', '.', '.'] (c :: cs) = false := by
  obtain ⟨f, hf⟩ : ∃ f, innerMarks (isGapBefore c) cs = f := ⟨_, rfl⟩
  have hcons : marks (c :: cs) =
      (if (startsWith ['-', '-', '-'] (c :: cs) || startsWith ['.', '.', '.'] (c :: cs)) ||
          startMarks.contains c then (true, true)
      else if c == '?' || c == ':' then (true, f.2 || blankOrEnd cs)
      else if c == '-' && blankOrEnd cs then (true, true)
      else f) := by
    rw [← hf]
    rfl
  rw [hcons] at h
  rw [hf]
  split at h
  · cases h
  · rename_i hstart
    simp only [Bool.or_eq_true, not_or, Bool.not_eq_true] at hstart
    obtain ⟨⟨hdashes, hdots⟩, hmark⟩ := hstart
    have hhash : c ≠ '#' := by
      rintro rfl
      cases hmark
    refine ⟨?_, hhash, ?_, hdashes, hdots⟩
    · split at h
      · exact (Bool.or_eq_false_iff.mp h).1
      · split at h
        · cases h
        · exact h
    · rintro rfl
      exact (Bool.or_eq_false_iff.mp h).2

theorem blockPlain_of_allowed (h : (allowedStyles (c :: cs)).blockPlain = true) :
    BlockPlain c cs := by
  unfold allowedStyles at h
  rw [if_neg (by simp)] at h
  dsimp only at h
  simp only [Bool.and_eq_true, Bool.not_eq_true', Bool.or_eq_false_iff] at h
  obtain ⟨⟨⟨⟨⟨⟨⟨hspace, -⟩, -⟩, -⟩, htabs⟩, hspecial⟩, hbreaks⟩, hmarks⟩ := h
  have hchars : ∀ d ∈ c :: cs, IsPlainChar d := by
    intro d hd
    have hbreak := List.any_eq_false.mp hbreaks d hd
    have hwritable := List.any_eq_false.mp hspecial d hd
    have htab : d ≠ '\t' := by
      rintro rfl
      rw [List.contains_eq_mem, decide_eq_false_iff_not] at htabs
      exact htabs hd
    refine ⟨?_, by simpa using hbreak⟩
    simpa [htab] using hwritable
  have hblank : c ≠ ' ' := by simpa using hspace.1
  obtain ⟨hinner, hhash, hcolon, hdashes, hdots⟩ := marks_cons hmarks
  rw [(hchars c List.mem_cons_self).isGapBefore, beq_eq_false_iff_ne.mpr hblank] at hinner
  refine ⟨⟨hchars c List.mem_cons_self, hblank, hhash⟩, hcolon, ⟨hdashes, hdots⟩,
    fun d hd => hchars d (List.mem_cons_of_mem c hd), hinner, fun hlast => ?_⟩
  have hsame : (c :: cs).getLast? = some ' ' := by
    rw [List.getLast?_cons, hlast]
    rfl
  rw [hsame] at hspace
  cases hspace.2

theorem blockPlain_of_chooseStyle {key : Bool} {style : ScalarStyle}
    (h : chooseStyle false key style (c :: cs) = .plain) : BlockPlain c cs := by
  cases hallowed : (allowedStyles (c :: cs)).blockPlain with
  | true => exact blockPlain_of_allowed hallowed
  | false =>
    -- a plain style asked for turns into quotes, and no other style turns into a plain one
    unfold chooseStyle at h
    simp only [hallowed, Bool.not_false, Bool.false_eq_true, if_false, Bool.true_or, Bool.and_true,
      beq_iff_eq] at h
    grind

/-- **A text that may be written without quotes is taken whole**, whatever follows it. -/
theorem scanPlain_of_blockPlain (h : BlockPlain c cs) (hlimit : limit ≤ m.column + 1)
    (hmark : atDocumentMark (cellsFrom whole m b (c :: (cs ++ rest))) = false) :
    scanPlain false limit false [] .none (cellsFrom whole m b (c :: (cs ++ rest))) =
      scanPlain false limit true (c :: cs).reverse .none
        (cellsFrom whole (m.further (cs.length + 1)) 0 rest) := by
  have hcolon : c = ':' → isSeparator (charAt (cellsFrom whole m.next 0 (cs ++ rest))) = false :=
    fun heq => not_isSeparator_of_goesOn h.bare.chars (h.colon heq)
  have hone : 0 < m.next.column := Nat.succ_pos _
  have hfar : limit ≤ m.next.column := by
    simp only [Mark.next]
    omega
  refine (scanPlain_char h.first.1 h.first.2.1 (.inl rfl) (absurd · h.first.2.2) (.inr hmark)
    hcolon).trans ?_
  by_cases hmore : cs = []
  · subst hmore
    rfl
  · have hbare : Bare (!true) cs := h.bare
    refine (scanPlain_bare hbare hmore hone hfar).trans ?_
    rw [Mark.next_further]
    simp

/-- A key does not start or end a document. -/
theorem atDocumentMark_key (h : BlockPlain c cs) :
    atDocumentMark (cellsFrom whole m b (c :: (cs ++ ':' :: rest))) = false := by
  have hmark : ∀ d, d ≠ ':' → startsWith [d, d, d] (c :: cs) = false →
      isDocumentMark d (cellsFrom whole m b (c :: (cs ++ ':' :: rest))) = false := by
    intro d hd hstart
    have hd' : (':' == d) = false := beq_eq_false_iff_ne.mpr hd.symm
    have hcolon : IsInline ':' := by decide
    have hinline : ∀ a ∈ cs, IsInline a := fun a ha => (h.bare.chars a ha).isInline.1
    rw [cellsFrom_inline h.first.1.isInline.1]
    -- the colon may be among the three characters; if it is not, they are the text's own
    cases cs with
    | nil =>
      rw [List.nil_append, cellsFrom_inline hcolon]
      cases cellsFrom whole _ _ rest <;> simp [isDocumentMark, hd']
    | cons e cs =>
      rw [List.cons_append, cellsFrom_inline (hinline e (by simp))]
      cases cs with
      | nil =>
        rw [List.nil_append, cellsFrom_inline hcolon]
        simp [isDocumentMark, hd']
      | cons f cs =>
        rw [List.cons_append, cellsFrom_inline (hinline f (by simp))]
        by_cases hc : c = d
        · by_cases he : e = d
          · by_cases hf : f = d
            · simp [startsWith, dropStart?, hc, he, hf] at hstart
            · simp [isDocumentMark, hf]
          · simp [isDocumentMark, he]
        · simp [isDocumentMark, hc]
  simp [atDocumentMark, hmark '-' (by decide) h.document.1, hmark '.' (by decide) h.document.2]

/-- **A key without quotes is read as it was written**, up to its colon. -/
theorem scanPlain_key (h : BlockPlain c cs) (hlimit : limit ≤ m.column + 1)
    (hrest : isSeparator (charAt (cellsFrom whole (m.further (cs.length + 2)) 0 rest)) = true) :
    scanPlain false limit false [] .none (cellsFrom whole m b (c :: (cs ++ ':' :: rest))) =
      some (String.ofList (c :: cs), false,
        cellsFrom whole (m.further (cs.length + 1)) 0 (':' :: rest)) := by
  have hcolon : IsInline ':' := by decide
  rw [scanPlain_of_blockPlain h hlimit (atDocumentMark_key h), cellsFrom_inline hcolon,
    scanPlain_cons]
  have hgap : isGap ':' = false := by decide
  have hsep : isSeparator (charAt (cellsFrom whole (m.further (cs.length + 1)).next 0 rest)) =
      true := hrest
  rw [hgap, if_neg Bool.false_ne_true]
  simp only [hcolon.2.2, hsep, Bool.false_eq_true, if_false, beq_self_eq_true, Bool.true_and,
    Bool.or_true, if_true, List.reverse_reverse]
  rfl

/-- Indentation is left out behind a line break. -/
theorem scanPlain_indentation (i : Nat) (hheld : held.first.isSome = true) :
    scanPlain false limit false text held
        (cellsFrom whole m b (List.replicate i ' ' ++ cs)) =
      scanPlain false limit false text held (cellsFrom whole (m.further i) b cs) := by
  induction i generalizing m with
  | zero => rfl
  | succ i ih =>
    have hblank : held.blank ' ' = held := by simp [Held.blank, hheld]
    have hspace : IsInline ' ' := by decide
    rw [List.replicate_succ, List.cons_append, cellsFrom_inline hspace, scanPlain_cons, hblank,
      ← Mark.next_further, ← ih]
    simp [isGap]

/-- **A value without quotes is read as it was written**, where the next line starts less deep. -/
theorem scanPlain_value {i : Nat} {d : Char} (h : BlockPlain c cs) (hcolumn : 0 < m.column)
    (hlimit : limit ≤ m.column + 1) (hi : (i : Int) < limit) (hd : IsInline d)
    (hgap : isGap d = false) :
    scanPlain false limit false [] .none
        (cellsFrom whole m b (c :: (cs ++ '\n' :: (List.replicate i ' ' ++ d :: rest)))) =
      some (String.ofList (c :: cs), true,
        cellsFrom whole ⟨m.index + cs.length + 2 + i, m.line + 1, i⟩ 1 (d :: rest)) := by
  have hplace : ((m.further (cs.length + 1)).nextLine 1).further i =
      ⟨m.index + cs.length + 2 + i, m.line + 1, i⟩ := by
    simp [Mark.further, Mark.nextLine]
    omega
  have hmark : ∀ x, atDocumentMark (cellsFrom whole m b (c :: (cs ++ x))) = false := fun x => by
    rw [cellsFrom_inline h.first.1.isInline.1]
    exact atDocumentMark_of_column hcolumn
  have hbreak : isGap '\n' = false ∧ isBreak '\n' = true := by decide
  have hless : decide ((i : Int) < limit) = true := by simpa using hi
  rw [scanPlain_of_blockPlain h hlimit (hmark _), cellsFrom_newline, scanPlain_cons]
  simp only [hbreak.1, hbreak.2, Bool.false_eq_true, if_false, if_true]
  rw [scanPlain_indentation i rfl, hplace, cellsFrom_inline hd, scanPlain_cons]
  simp only [hgap, hd.2.2, hless, Bool.false_eq_true, if_false, List.isEmpty_reverse,
    List.isEmpty_cons, Bool.not_false, Bool.true_and, Bool.and_true, Bool.or_true, Bool.true_or,
    if_true, List.reverse_reverse]
  rfl

end DocAudit.Yaml
