import DocAudit.Proofs.Text.Words
import DocAudit.Source.Annotation

/-!
# Directives and prose

A comment line can be a directive to a tool, and then it is an annotation; the prose of a group
leaves directives out.  The two places recognise directives in their own ways: an annotation is the
first word behind the slashes, blanks before it not counted unless the plain one comes first, while
the prose leaves out only what begins right behind the slashes.

* `directive?_eq_some_iff`: what an annotation is made from;
* `Directive.isToolLine_body`, `isToolLine_cons_blank`: the prose leaves a directive out if it has no
  indent, and keeps it if it has one;
* `words_text`: the words of a group are those of its comments;
* `directive_left_out_unless_indented`: a directive without an indent is left out of the text of its
  group, and an indented one has its words there.
-/

namespace DocAudit.Source

open DocAudit.Text

/-! ## 1. How a directive is written -/

/-- **A directive as it is written** behind the slashes: an indent, the word `name:arg`, and what
comes after the next blank. -/
structure Directive where
  indent : List Char
  name : List Char
  arg : List Char
  rest : List Char
  indent_blank : ∀ c ∈ indent, isBlank c = true
  indent_head : indent.head? ≠ some ' '
  name_ne_nil : name ≠ []
  name_chars : ∀ c ∈ name, ('a' ≤ c ∧ c ≤ 'z') ∨ ('0' ≤ c ∧ c ≤ '9')
  arg_head : ∃ c ∈ arg.head?, 'a' ≤ c ∧ c ≤ 'z'
  arg_chars : ∀ c ∈ arg, isBlank c = false
  rest_head : ∀ c ∈ rest.head?, isBlank c = true

namespace Directive

/-- The word that the annotation is. -/
def word (d : Directive) : List Char := d.name ++ ':' :: d.arg

/-- What stands behind the slashes. -/
def body (d : Directive) : List Char := d.indent ++ (d.word ++ d.rest)

/-- The text of the comment. -/
def text (d : Directive) : List Char := '/' :: '/' :: d.body

end Directive

theorem isToolChar_iff {c : Char} :
    isToolChar c = true ↔ ('a' ≤ c ∧ c ≤ 'z') ∨ ('0' ≤ c ∧ c ≤ '9') := by
  simp [isToolChar, Char.isDigit, Char.le_def]

theorem isLowerLetter_iff {c : Char} : isLowerLetter c = true ↔ 'a' ≤ c ∧ c ≤ 'z' := by
  simp [isLowerLetter]

/-- The characters of a name are no blanks. -/
theorem isBlank_of_isToolChar {c : Char} (h : isToolChar c = true) : isBlank c = false := by
  rw [isToolChar_iff] at h
  simp only [Char.le_def, UInt32.le_iff_toNat_le] at h
  have hrange : (97 ≤ c.toNat ∧ c.toNat ≤ 122) ∨ (48 ≤ c.toNat ∧ c.toNat ≤ 57) := h
  rw [← Bool.not_eq_true]
  simp only [isBlank, Bool.or_eq_true, Bool.and_eq_true, decide_eq_true_eq, beq_iff_eq]
  omega

namespace Directive

variable {d : Directive}

theorem isToolChar_name (d : Directive) : ∀ c ∈ d.name, isToolChar c = true := fun c hc =>
  isToolChar_iff.mpr (d.name_chars c hc)

theorem word_ne_nil (d : Directive) : d.word ≠ [] := by
  simp [word]

theorem word_chars (d : Directive) : ∀ c ∈ d.word, isBlank c = false := by
  intro c hc
  rcases List.mem_append.mp hc with hname | hc
  · exact isBlank_of_isToolChar (d.isToolChar_name c hname)
  · rcases List.mem_cons.mp hc with rfl | harg
    · decide
    · exact d.arg_chars c harg

/-- The name ends at the first colon of the word. -/
theorem colon_notMem_name (d : Directive) : ':' ∉ d.name := fun h => by
  have := d.isToolChar_name ':' h
  revert this
  decide

theorem head?_word (d : Directive) (rest : List Char) :
    ∃ c, (d.word ++ rest).head? = some c ∧ isToolChar c = true := by
  obtain ⟨c, cs, hname⟩ := List.exists_cons_of_ne_nil d.name_ne_nil
  exact ⟨c, by simp [word, hname], d.isToolChar_name c (hname ▸ List.mem_cons_self)⟩

/-- Whatever the indent is, no plain blank follows the slashes. -/
theorem head?_body_ne (d : Directive) : d.body.head? ≠ some ' ' := by
  obtain ⟨c, hword, hc⟩ := d.head?_word d.rest
  cases hindent : d.indent with
  | nil =>
    rw [body, hindent, List.nil_append, hword]
    intro heq
    rw [Option.some.inj heq] at hc
    revert hc
    decide
  | cons b bs =>
    have hhead := d.indent_head
    rw [hindent] at hhead
    rw [body, hindent]
    exact hhead

/-- There is no indent where no blank follows the slashes. -/
theorem indent_eq_nil {c : Char} (h : d.body.head? = some c) (hc : isBlank c = false) :
    d.indent = [] := by
  cases hindent : d.indent with
  | nil => rfl
  | cons b bs =>
    rw [body, hindent, List.cons_append, List.head?_cons, Option.some.injEq] at h
    rw [← h, d.indent_blank b (hindent ▸ List.mem_cons_self)] at hc
    cases hc

/-- The words behind the slashes begin with that of the directive. -/
theorem words_body (d : Directive) : words d.body = d.word :: words d.rest := by
  rw [words, body, wordsBy_append_left d.indent_blank,
    wordsBy_append_of_word d.word_ne_nil d.word_chars d.rest_head]
  rfl

end Directive

/-! ## 2. Which comments are annotations -/

/-- **An annotation is the word of a directive.** -/
theorem directive?_eq_some_iff {text w : String} :
    directive? text = some w ↔
      ∃ d : Directive, text.toList = d.text ∧ w = String.ofList d.word := by
  unfold directive?
  simp only [Option.bind_eq_bind, Option.bind_eq_some_iff, dropStart?_eq_some_iff, beq_iff_eq]
  constructor
  · rintro ⟨body, hbody, h⟩
    split at h
    · cases h
    · rename_i hhead
      simp only [Option.bind_eq_some_iff, Option.ite_none_right_eq_some, Option.some.injEq,
        Bool.and_eq_true, Bool.not_eq_true', List.isEmpty_eq_false_iff, List.all_eq_true,
        isLowerLetter_iff, isToolChar_iff, cutFirst_singleton_eq_some_iff, Prod.exists] at h
      obtain ⟨word, hword, name, arg, ⟨rfl, -⟩, c, hc, ⟨⟨hname, hchars⟩, hlower⟩, rfl⟩ := h
      obtain ⟨indent, rest, rfl, hindent, -, hblank, hrest⟩ := head?_wordsBy_eq_some_iff.mp hword
      refine ⟨⟨indent, name, arg, rest, hindent, ?_, hname, hchars, ⟨c, hc, hlower⟩,
        fun x hx => hblank x (by simp [hx]), hrest⟩, hbody, rfl⟩
      intro heq
      cases indent with
      | nil => cases heq
      | cons b bs => exact hhead heq
  · rintro ⟨d, htext, rfl⟩
    refine ⟨d.body, htext, ?_⟩
    obtain ⟨c, hc, hlower⟩ := d.arg_head
    have hcut : cutFirst [':'] d.word = some (d.name, d.arg) :=
      cutFirst_singleton_eq_some_iff.mpr ⟨rfl, d.colon_notMem_name⟩
    have hfirst : isLowerLetter c = true := isLowerLetter_iff.mpr hlower
    rw [if_neg d.head?_body_ne, d.words_body]
    simp only [List.head?_cons, Option.bind_some, hcut, Option.mem_def.mp hc]
    rw [if_pos]
    simpa [d.name_ne_nil, hfirst] using d.isToolChar_name

/-! ## 3. Which comments are prose -/

/-- A directive without an indent is recognised. -/
theorem Directive.isToolLine_body {d : Directive} (h : d.indent = []) :
    isToolLine d.body = true := by
  have hcut : cutFirst [':'] d.body = some (d.name, d.arg ++ d.rest) := by
    rw [cutFirst_singleton_eq_some_iff]
    exact ⟨by simp [Directive.body, Directive.word, h], d.colon_notMem_name⟩
  obtain ⟨c, hc, hlower⟩ := d.arg_head
  have hhead : (d.arg ++ d.rest).head? = some c := by
    rw [List.head?_append, Option.mem_def.mp hc]
    rfl
  rw [isToolLine, hcut, Bool.or_eq_true]
  simp only [hhead, Bool.and_eq_true, List.all_eq_true]
  exact .inr ⟨⟨by simpa using d.name_ne_nil, d.isToolChar_name⟩,
    isToolChar_iff.mpr (.inl hlower)⟩

/-- Nothing is recognised behind a blank. -/
theorem isToolLine_cons_blank {b : Char} (hb : isBlank b = true) (cs : List Char) :
    isToolLine (b :: cs) = false := by
  -- None of the fixed words, nor a name before a colon, begins with a blank.
  have hstart : ∀ m : List Char, m.head?.any (!isBlank ·) = true →
      startsWith m (b :: cs) = false := by
    intro m hm
    rw [← Bool.not_eq_true, startsWith_iff]
    rintro ⟨rest, heq⟩
    cases m with
    | nil => cases hm
    | cons c m =>
      obtain ⟨rfl, -⟩ := List.cons.inj heq
      simp [hb] at hm
  have hname : ∀ name arg, cutFirst [':'] (b :: cs) = some (name, arg) →
      (!name.isEmpty && name.all isToolChar) = false := by
    intro name arg h
    cases name with
    | nil => rfl
    | cons x name =>
      obtain ⟨rfl, -⟩ := List.cons.inj (cutFirst_singleton_eq_some_iff.mp h).1
      have hx : isToolChar b = false := by
        rw [← Bool.not_eq_true]
        intro htool
        rw [isBlank_of_isToolChar htool] at hb
        cases hb
      simp [hx]
  rw [isToolLine, hstart _ (by decide), hstart _ (by decide), hstart _ (by decide)]
  simp only [Bool.false_or]
  split
  · rename_i name arg h
    rw [hname name arg h, Bool.false_and]
  · rfl

section ProseLines

variable {c : Comment} {body : List Char}

/-- A directive to a tool is no line of prose. -/
theorem proseLines_of_isToolLine (htext : c.text.toList = '/' :: '/' :: body)
    (hhead : body.head? ≠ some ' ') (h : isToolLine body = true) : c.proseLines = [] := by
  unfold Comment.proseLines
  rw [htext]
  cases body with
  | nil => cases h
  | cons x r =>
    have hx : x ≠ ' ' := fun heq => hhead (heq ▸ rfl)
    simp [h, hx]

/-- Any other line comment is one. -/
theorem words_proseLines (htext : c.text.toList = '/' :: '/' :: body)
    (hhead : body.head? ≠ some ' ') (h : isToolLine body = false) :
    c.proseLines.flatMap words = words body := by
  have htrim : ∀ x : Char, (x == ' ' || x == '\t' || x == '\n' || x == '\r') = true →
      isBlank x = true := by
    intro x hx
    simp only [Bool.or_eq_true, beq_iff_eq] at hx
    rcases hx with ((rfl | rfl) | rfl) | rfl <;> decide
  unfold Comment.proseLines
  rw [htext]
  cases body with
  | nil => rfl
  | cons x r =>
    have hx : x ≠ ' ' := fun heq => hhead (heq ▸ rfl)
    simp [h, hx, words_dropEndWhile htrim]

end ProseLines

/-! ## 4. Groups -/

theorem words_squeeze : ∀ (prevEmpty : Bool) (lines : List (List Char)),
    (squeeze prevEmpty lines).flatMap words = lines.flatMap words
  | _, [] => rfl
  | prevEmpty, l :: lines => by
      rw [squeeze]
      cases l with
      | nil => cases prevEmpty <;> simp [words_squeeze]; rfl
      | cons c l => simp [words_squeeze]

/-- **The words of a group are those of its comments.** -/
theorem words_text (g : CommentGroup) :
    words g.text.toList = g.flatMap fun c => c.proseLines.flatMap words := by
  rw [CommentGroup.text, words_join, ← List.flatMap_assoc,
    ← words_squeeze true (g.flatMap Comment.proseLines)]
  -- All that is left is the empty line behind a last line that is not empty.
  generalize squeeze true (g.flatMap Comment.proseLines) = lines
  cases h : lines.getLast? with
  | none => rw [List.getLast?_eq_none_iff.mp h]
  | some l =>
    cases hl : l.isEmpty with
    | true => simp only [hl, if_true]
    | false => simp [hl, words]

/-- A comment without prose can be left out of its group. -/
theorem text_append_of_proseLines {c : Comment} (h : c.proseLines = [])
    (before after : CommentGroup) :
    CommentGroup.text (before ++ c :: after) = CommentGroup.text (before ++ after) := by
  simp [CommentGroup.text, h]

/-- **A directive is left out of the text of its group unless it is indented.**  It is written
behind two slashes as a word `name:arg`; if it begins right there, the text is that of the group
without it, and if blanks other than the plain one come first, its word is in the text as well. -/
theorem directive_left_out_unless_indented (g : CommentGroup) {c : Comment} {w : String}
    (hc : c ∈ g) (hw : directive? c.text = some w) :
    ∃ d : Directive, c.text.toList = d.text ∧ w.toList = d.word ∧
      (d.indent = [] → ∀ before after, g = before ++ c :: after →
        g.text = CommentGroup.text (before ++ after)) ∧
      (d.indent ≠ [] → w.toList ∈ words g.text.toList) := by
  obtain ⟨d, htext, rfl⟩ := directive?_eq_some_iff.mp hw
  refine ⟨d, htext, String.toList_ofList, fun hbare before after hg => ?_, fun hindent => ?_⟩
  · rw [hg]
    exact text_append_of_proseLines
      (proseLines_of_isToolLine htext d.head?_body_ne (d.isToolLine_body hbare)) before after
  · obtain ⟨b, bs, hb⟩ := List.exists_cons_of_ne_nil hindent
    have hblank : isBlank b = true := d.indent_blank b (hb ▸ List.mem_cons_self)
    have hline : isToolLine d.body = false := by
      rw [Directive.body, hb]
      exact isToolLine_cons_blank hblank _
    rw [words_text, List.mem_flatMap]
    refine ⟨c, hc, ?_⟩
    rw [words_proseLines htext d.head?_body_ne hline, d.words_body, String.toList_ofList]
    exact List.mem_cons_self

/-! ## 5. Two groups -/

/-- A doc comment with a directive in its midst. -/
def generatedGroup : CommentGroup :=
  [⟨⟨0, 1, 1⟩, "// T is a table.", 1⟩, ⟨⟨17, 2, 1⟩, "//go:generate stringer -type T", 2⟩,
    ⟨⟨48, 3, 1⟩, "// It is sorted.", 3⟩]

/-- The directive is left out, and the text is that of the other two lines. -/
theorem directive_left_out_generated :
    directive? "//go:generate stringer -type T" = some "go:generate" ∧
      generatedGroup.text = "T is a table.\nIt is sorted.\n" := by
  have hw : directive? "//go:generate stringer -type T" = some "go:generate" := by decide +kernel
  obtain ⟨d, htext, -, hbare, -⟩ := directive_left_out_unless_indented generatedGroup
    (c := ⟨⟨17, 2, 1⟩, "//go:generate stringer -type T", 2⟩) (by simp [generatedGroup]) hw
  have hhead : ("//go:generate stringer -type T".toList.drop 2).head? = some 'g' := by
    decide +kernel
  have hindent : d.indent = [] := d.indent_eq_nil (htext ▸ hhead) (by decide)
  rw [hbare hindent [_] [_] rfl]
  exact ⟨hw, by decide +kernel⟩

/-- A doc comment of one directive, behind a tabulator. -/
def indentedGroup : CommentGroup := [⟨⟨0, 1, 1⟩, "//\tgo:generate stringer", 1⟩]

/-- The directive is an annotation, and its words are the text. -/
theorem directive_twice_indented :
    docAnnotations indentedGroup = ["go:generate"] ∧
      indentedGroup.text = "\tgo:generate stringer\n" ∧
      words indentedGroup.text.toList = ["go:generate".toList, "stringer".toList] := by
  decide +kernel

end DocAudit.Source
