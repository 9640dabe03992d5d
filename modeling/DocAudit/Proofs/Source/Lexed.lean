import DocAudit.Source.Grammar.Rules
import DocAudit.Proofs.Text.Split
import Mathlib.Data.List.TakeDrop

/-!
# Tokens stand in the text

The text of a file is cut into tokens without a gap: what the lexer says a token takes stands in the
text at the position that it gives the token.

* `StandsAt`: a word stands in a text at a position;
* `scanToken_eq_some`: a token takes the start of the text, and starts with its letters;
* `standsIn_lex`, `standsIn_attach`: the tokens of a file stand in its text;
* `StandsAt.line_le`: the line of a word is one of the lines of the file.
-/

namespace DocAudit.Source

open DocAudit.Text

variable {cs t r : List Char}

/-! ## 1. Positions -/

theorem Pos.after_append (p : Pos) (xs ys : List Char) :
    p.after (xs ++ ys) = (p.after xs).after ys := List.foldl_append

theorem Pos.line_after (p : Pos) : ∀ cs : List Char,
    (p.after cs).line = p.line + cs.count '\n'
  | [] => rfl
  | c :: cs => by
      have ih := (p.step c).line_after cs
      have hstep : (p.step c).line = p.line + if c = '\n' then 1 else 0 := by
        unfold Pos.step
        by_cases hc : c = '\n' <;> simp [hc]
      show ((p.step c).after cs).line = _
      rw [ih, hstep, List.count_cons, Nat.add_assoc]
      by_cases hc : c = '\n'
      · simp [hc, Nat.add_comm]
      · simp [hc]

/-- The line behind a text, counted from one. -/
theorem Pos.line_start_after (cs : List Char) :
    (Pos.start.after cs).line = cs.count '\n' + 1 := by
  rw [Pos.line_after, Nat.add_comm]
  rfl

/-- The text `cs` has `word` at the position `pos`; `start` is the position of the text. -/
def StandsAt (start : Pos) (cs word : List Char) (pos : Pos) : Prop :=
  ∃ before rest, cs = before ++ (word ++ rest) ∧ pos = start.after before

theorem StandsAt.here {start : Pos} {word : List Char} (h : word <+: cs) :
    StandsAt start cs word start := by
  obtain ⟨rest, rfl⟩ := h
  exact ⟨[], rest, rfl, rfl⟩

theorem StandsAt.further {start pos : Pos} {word : List Char}
    (h : StandsAt (start.after t) r word pos) : StandsAt start (t ++ r) word pos := by
  obtain ⟨before, rest, rfl, rfl⟩ := h
  exact ⟨t ++ before, rest, (List.append_assoc _ _ _).symm, (Pos.after_append _ _ _).symm⟩

/-! ## 2. Tokens -/

/-- The letters of a name, keyword, operator or bracket. -/
def Tok.letters : Tok → List Char
  | .ident n => n.text.toList
  | .word w => w.toList
  | .sym s => s.toList
  | _ => []

theorem append_of_scanBlock : ∀ {cs t r : List Char}, scanBlock cs = some (t, r) → cs = t ++ r
  | [], _, _, h => nomatch h
  | c :: cs, t, r, h => by
      unfold scanBlock at h
      split at h
      · cases h
        rfl
      · obtain ⟨⟨t', r'⟩, hscan, heq⟩ := Option.map_eq_some_iff.mp h
        cases heq
        rw [append_of_scanBlock hscan, List.cons_append]

theorem append_of_scanRaw : ∀ {cs t r : List Char}, scanRaw cs = some (t, r) → cs = t ++ r
  | [], _, _, h => nomatch h
  | c :: cs, t, r, h => by
      unfold scanRaw at h
      split at h
      · cases h
        rfl
      · obtain ⟨⟨t', r'⟩, hscan, heq⟩ := Option.map_eq_some_iff.mp h
        cases heq
        rw [append_of_scanRaw hscan, List.cons_append]

/-- Whatever the next state is, the scan goes on behind the character that leads to it. -/
theorem append_of_scanNext {quote c : Char} {next : QuoteState} {cs t r : List Char} {n : Nat}
    (f : Nat → Nat)
    (hrest : ∀ {t r : List Char} {n : Nat}, scanQuoted quote next cs = some (t, n, r) → cs = t ++ r)
    (h : (do
      let (t, n, r) ← scanQuoted quote next cs
      some (c :: t, f n, r)) = some (t, n, r)) : c :: cs = t ++ r := by
  obtain ⟨⟨t', n', r'⟩, hscan, heq⟩ := Option.bind_eq_some_iff.mp h
  cases heq
  rw [hrest hscan, List.cons_append]

theorem append_of_scanQuoted {quote : Char} : ∀ {state : QuoteState} {cs t r : List Char} {n : Nat},
    scanQuoted quote state cs = some (t, n, r) → cs = t ++ r
  | state, [], _, _, _, h => by cases state <;> cases h
  | state, c :: cs, t, r, n, h => by
      have hrest : ∀ {next : QuoteState} {t r : List Char} {n : Nat},
          scanQuoted quote next cs = some (t, n, r) → cs = t ++ r := append_of_scanQuoted
      unfold scanQuoted at h
      cases state with
      | plain =>
        dsimp only at h
        split at h
        · cases h
          rfl
        · split at h
          · cases h
          · exact append_of_scanNext (· + 1) hrest h
      | escape =>
        dsimp only at h
        repeat' split at h
        all_goals first
          | exact append_of_scanNext id hrest h
          | cases h
      | digits left radix most value =>
        obtain ⟨d, -, h⟩ := Option.bind_eq_some_iff.mp h
        dsimp only at h
        repeat' split at h
        all_goals first
          | exact append_of_scanNext id hrest h
          | cases h

theorem append_of_scanSymbol {s : String} : ∀ {syms : List String},
    scanSymbol cs syms = some (s, r) → cs = s.toList ++ r
  | [], h => nomatch h
  | sym :: syms, h => by
      unfold scanSymbol at h
      split at h
      · rename_i hstart
        cases h
        exact dropStart?_eq_some_iff.mp hstart
      · exact append_of_scanSymbol h

theorem append_of_radixOf {radix : Radix} {mark rest : List Char}
    (h : radixOf cs = (radix, mark, rest)) : cs = mark ++ rest := by
  unfold radixOf at h
  repeat' split at h
  all_goals
    cases h
    rfl

theorem append_of_span {p : Char → Bool} (h : cs.span p = (t, r)) : cs = t ++ r := by
  rw [List.span_eq_takeWhile_dropWhile] at h
  cases h
  exact List.takeWhile_append_dropWhile.symm

theorem append_of_scanExponent {radix : Radix} {isFloat : Bool}
    (h : scanExponent radix isFloat cs = some (t, r)) : cs = t ++ r := by
  unfold scanExponent at h
  split at h
  · rename_i e rest
    split at h
    · extract_lets isP fits at h
      split at h
      split at h
      rename_i sign after hsign _ ds rest' hdigits
      have hrest : rest = sign ++ after := by
        split at hsign
        · split at hsign <;> cases hsign <;> rfl
        · cases hsign
          rfl
      obtain ⟨-, heq⟩ := Option.ite_none_right_eq_some.mp h
      cases heq
      rw [hrest, append_of_span hdigits]
      simp
    · split at h <;> cases h
      rfl
  · split at h <;> cases h
    rfl

/-- A guard that does not refuse. -/
theorem of_guard {α : Type} {c : Prop} [Decidable c] {x : Unit → Option α} {a : α}
    (h : (if c then none >>= x else x ()) = some a) : x () = some a := by
  split at h
  · cases h
  · exact h

theorem append_of_scanNumber {kind : LitKind} (h : scanNumber cs = some (kind, t, r)) :
    cs = t ++ r := by
  unfold scanNumber at h
  split at h
  split at h
  split at h
  rename_i radix mark r₀ hradix _ whole r₁ hwhole _ frac r₂ hfrac
  have hfraction : r₁ = frac ++ r₂ := by
    split at hfrac
    · split at hfrac
      rename_i hspan
      cases hfrac
      rw [append_of_span hspan, List.cons_append]
    · cases hfrac
      rfl
  obtain ⟨x, hexpo, htail⟩ := Option.bind_eq_some_iff.mp (of_guard (of_guard h))
  split at htail
  split at htail
  rename_i expo r₃ _ imag r₄ himag
  have himaginary : r₃ = imag ++ r₄ := by
    split at himag <;> cases himag <;> rfl
  cases of_guard (of_guard htail)
  rw [append_of_radixOf hradix, append_of_span hwhole, hfraction, append_of_scanExponent hexpo,
    himaginary]
  simp only [List.append_assoc]

theorem scanToken_eq_some {tok : Tok} (h : scanToken cs = some (tok, t, r)) :
    cs = t ++ r ∧ tok.letters <+: t := by
  unfold scanToken at h
  split at h
  · cases h
  · split at h
    rename_i hspan
    cases h
    exact ⟨congrArg ('/' :: '/' :: ·) (append_of_span hspan), List.nil_prefix⟩
  · obtain ⟨⟨t', r'⟩, hscan, heq⟩ := Option.bind_eq_some_iff.mp h
    cases heq
    exact ⟨congrArg ('/' :: '*' :: ·) (append_of_scanBlock hscan), List.nil_prefix⟩
  · obtain ⟨⟨t', n, r'⟩, hscan, heq⟩ := Option.bind_eq_some_iff.mp h
    cases heq
    exact ⟨congrArg ('"' :: ·) (append_of_scanQuoted hscan), List.nil_prefix⟩
  · obtain ⟨⟨t', n, r'⟩, hscan, heq⟩ := Option.bind_eq_some_iff.mp h
    obtain ⟨-, heq⟩ := Option.ite_none_right_eq_some.mp heq
    cases heq
    exact ⟨congrArg ('\'' :: ·) (append_of_scanQuoted hscan), List.nil_prefix⟩
  · obtain ⟨⟨t', r'⟩, hscan, heq⟩ := Option.bind_eq_some_iff.mp h
    cases heq
    exact ⟨congrArg ('\x60' :: ·) (append_of_scanRaw hscan), List.nil_prefix⟩
  · cases h
    exact ⟨rfl, List.nil_prefix⟩
  · rename_i c rest _ _ _ _ _ _
    split at h
    · rename_i hstart
      cases h
      have htaken : rest = rest.takeWhile isNamePart ++ rest.dropWhile isNamePart :=
        List.takeWhile_append_dropWhile.symm
      refine ⟨congrArg (c :: ·) htaken, ?_⟩
      have hletters : (Ident.scan c rest hstart).text.toList = c :: rest.takeWhile isNamePart :=
        String.toList_ofList
      split
      · exact hletters ▸ List.prefix_rfl
      · exact hletters ▸ List.prefix_rfl
    · split at h
      · obtain ⟨⟨k, t', r'⟩, hscan, heq⟩ := Option.bind_eq_some_iff.mp h
        cases heq
        exact ⟨append_of_scanNumber hscan, List.nil_prefix⟩
      · obtain ⟨⟨s, r'⟩, hscan, heq⟩ := Option.bind_eq_some_iff.mp h
        cases heq
        exact ⟨append_of_scanSymbol hscan, List.prefix_rfl⟩

/-! ## 3. Texts -/

/-- The text has the letters of the token where the token stands. -/
def Lexeme.StandsIn (start : Pos) (cs : List Char) (x : Lexeme) : Prop :=
  StandsAt start cs x.tok.letters x.pos

theorem StandsIn.behind {start : Pos} {xs : List Lexeme}
    (h : ∀ x ∈ xs, Lexeme.StandsIn (start.after t) r x) : ∀ x ∈ xs, x.StandsIn start (t ++ r) :=
  fun x hx => (h x hx).further

theorem standsIn_lexFrom {ending : Bool} {start : Pos} {xs : List Lexeme}
    (h : lexFrom ending start cs = some xs) : ∀ x ∈ xs, x.StandsIn start cs := by
  fun_induction lexFrom ending start cs generalizing xs with
  | case1 ending start =>
    have hend : ∀ tok : Tok, tok.letters = [] → Lexeme.StandsIn start [] ⟨tok, start⟩ :=
      fun tok hletters => .here (hletters ▸ List.nil_prefix)
    cases h
    split
    · exact List.forall_mem_cons.mpr ⟨hend _ rfl, List.forall_mem_singleton.mpr (hend _ rfl)⟩
    · exact List.forall_mem_singleton.mpr (hend _ rfl)
  | case2 ending start c rest hgap ih => exact StandsIn.behind (t := [c]) (ih h)
  | case3 ending start c rest hgap hline ih =>
    obtain ⟨more, hmore, heq⟩ := Option.bind_eq_some_iff.mp h
    cases heq
    exact List.forall_mem_cons.mpr ⟨.here List.nil_prefix, StandsIn.behind (t := [c]) (ih hmore)⟩
  | case4 => cases h
  | case5 ending start c rest _ _ taken rest' _ text _ htok ih =>
    obtain ⟨more, hmore, heq⟩ := Option.bind_eq_some_iff.mp h
    cases heq
    obtain ⟨hsplit, hletters⟩ := scanToken_eq_some htok
    rw [hsplit]
    refine List.forall_mem_cons.mpr ⟨.here List.nil_prefix, List.forall_mem_cons.mpr ⟨?_, ?_⟩⟩
    · refine ⟨taken.takeWhile (· != '\n'), taken.dropWhile (· != '\n') ++ rest', ?_, rfl⟩
      show taken ++ rest' = taken.takeWhile _ ++ (taken.dropWhile _ ++ rest')
      rw [← List.append_assoc, List.takeWhile_append_dropWhile]
    · exact StandsIn.behind (ih hmore)
  | case6 ending start c rest _ _ taken rest' _ text _ htok ih =>
    obtain ⟨more, hmore, heq⟩ := Option.bind_eq_some_iff.mp h
    cases heq
    obtain ⟨hsplit, hletters⟩ := scanToken_eq_some htok
    rw [hsplit]
    exact List.forall_mem_cons.mpr ⟨.here List.nil_prefix, StandsIn.behind (ih hmore)⟩
  | case7 ending start c rest _ _ tok taken rest' htok _ _ ih =>
    obtain ⟨more, hmore, heq⟩ := Option.bind_eq_some_iff.mp h
    cases heq
    obtain ⟨hsplit, hletters⟩ := scanToken_eq_some htok
    rw [hsplit]
    refine List.forall_mem_cons.mpr ⟨.here ?_, StandsIn.behind (ih hmore)⟩
    exact hletters.trans (List.prefix_append _ _)
  | case8 => cases h

/-- The tokens of a file have their letters where they stand. -/
theorem standsIn_lex {text : String} {xs : List Lexeme} (h : lex text = some xs) :
    ∀ x ∈ xs, x.StandsIn Pos.start text.toList := by
  have hbody : ∀ {pos : Pos} {body : List Char}, (if body.any (fun c =>
      c == Char.ofNat 0xFEFF || c == '\x00') then none else lexFrom false pos body) = some xs →
      ∀ x ∈ xs, x.StandsIn pos body :=
    fun hlex => standsIn_lexFrom (Option.ite_none_left_eq_some.mp hlex).2
  unfold lex at h
  cases htext : text.toList with
  | nil =>
    rw [htext] at h
    exact hbody h
  | cons c cs =>
    rw [htext] at h
    dsimp only at h
    -- A byte order mark is passed over.
    by_cases hmark : (c == Char.ofNat 0xFEFF) = true
    · rw [if_pos hmark] at h
      exact StandsIn.behind (t := [c]) (hbody h)
    · rw [if_neg hmark] at h
      exact hbody h

theorem exists_mem_of_mem_attachFrom {i : Item} : ∀ {xs : List Lexeme} {prevLine : Nat}
    {run : List Comment}, i ∈ attachFrom prevLine run xs → ∃ x ∈ xs, i.tok = x.tok ∧ i.pos = x.pos
  | [], _, _, h => nomatch h
  | x :: xs, prevLine, run, h => by
      have hmore : ∀ {prevLine : Nat} {run : List Comment}, i ∈ attachFrom prevLine run xs →
          ∃ y ∈ x :: xs, i.tok = y.tok ∧ i.pos = y.pos := by
        intro prevLine run hi
        obtain ⟨y, hy, heq⟩ := exists_mem_of_mem_attachFrom hi
        exact ⟨y, List.mem_cons_of_mem x hy, heq⟩
      unfold attachFrom at h
      split at h
      · exact hmore h
      · rcases List.mem_cons.mp h with rfl | hi
        · exact ⟨x, List.mem_cons_self, rfl, rfl⟩
        · exact hmore hi

/-- The text has the letters of the item where the item stands. -/
def Item.StandsIn (text : String) (i : Item) : Prop :=
  StandsAt Pos.start text.toList i.tok.letters i.pos

/-- **The tokens of a file stand in its text.** -/
theorem standsIn_attach {text : String} {xs : List Lexeme} (h : lex text = some xs) :
    ∀ i ∈ attach xs, i.StandsIn text := by
  intro i hi
  obtain ⟨x, hx, htok, hpos⟩ := exists_mem_of_mem_attachFrom hi
  unfold Item.StandsIn
  rw [htok, hpos]
  exact standsIn_lex h x hx

/-! ## 4. Lines -/

theorem lineCount_pos : ∀ cs : List Char, 1 ≤ lineCount cs
  | [] => Nat.le_refl 1
  | [_] => Nat.le_refl 1
  | _ :: d :: cs => Nat.le_trans (lineCount_pos (d :: cs)) (Nat.le_add_right _ _)

theorem lineCount_append (hr : r ≠ []) : ∀ cs : List Char,
    lineCount (cs ++ r) = cs.count '\n' + lineCount r
  | [] => by simp
  | [c] => by
      obtain ⟨d, r', rfl⟩ := List.exists_cons_of_ne_nil hr
      simp only [List.cons_append, List.nil_append, lineCount, List.count_cons, List.count_nil]
      omega
  | c :: d :: cs => by
      have ih := lineCount_append hr (d :: cs)
      rw [List.cons_append] at ih
      simp only [List.cons_append, lineCount, ih, List.count_cons]
      omega

/-- What a text has letters for stands on one of its lines. -/
theorem StandsAt.line_le {word : List Char} {pos : Pos}
    (h : StandsAt Pos.start cs word pos) (hword : word ≠ []) :
    1 ≤ pos.line ∧ pos.line ≤ lineCount cs := by
  obtain ⟨before, rest, rfl, rfl⟩ := h
  rw [Pos.line_start_after, lineCount_append (by simp [hword])]
  have hrest := lineCount_pos (word ++ rest)
  omega

end DocAudit.Source
