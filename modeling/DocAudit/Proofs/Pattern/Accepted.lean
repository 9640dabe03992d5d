import DocAudit.Proofs.Pattern.Unmarked
import DocAudit.Proofs.Pattern.Whole

/-!
# Which patterns are accepted

A pattern is accepted if its anchored text is an expression, and this is not the same as being an
expression by itself.

* `parse_anchored_iff`: a pattern that is an expression is refused if it ends in an open quotation,
  or if there is no room left for its anchors;
* `error_of_parse_anchored`: one that is none is accepted only if it closes a group that it has not
  opened, and then this is the group of its anchored text;
* `compile_eq_error_iff`: a list of patterns is refused at the first that is not accepted;
* `compile_accepts_exactly`: what the acceptance of a list says about its patterns.
-/

namespace DocAudit.Pattern

variable {whole whole' before after t rest : List Char} {st st' st₁ end_ : ParseState}
  {k : Construct} {e : ParseError}

/-! ## 1. Groups that stay open -/

theorem outer_ne_nil_of_takes (h : Takes st before k st') (hk : k.Stays) (hst : st.outer ≠ []) :
    st'.outer ≠ [] := by
  cases h with
  | opening counted inner => exact List.cons_ne_nil _ _
  | closing hstack hbody hregex => exact hk.elim
  | _ => exact hst

/-- What is left of the closing mark without its bracket closes no group. -/
theorem outer_ne_nil_of_run_suffix (hrest : rest <:+ ['$']) (hst : st.outer ≠ [])
    (h : st.run whole rest = .ok end_) : end_.outer ≠ [] := by
  rcases eq_of_suffix_dollar hrest with rfl | rfl
  · have hread : readConstruct st.flags ['$'] =
        .ok (.pieces [.anchor (if st.flags.lines then .lineEnd else .textEnd)], []) := rfl
    rw [run_eq_of_step st hread (.pieces _) (by decide), ParseState.run] at h
    cases h
    exact hst
  · rw [ParseState.run] at h
    cases h
    exact hst

theorem exists_step_of_run {c : Char} (h : st.run whole (c :: t) = .ok end_) :
    ∃ st₁ rest, st.step whole (c :: t) = .ok (st₁, rest) ∧ rest.length < (c :: t).length ∧
      st₁.run whole rest = .ok end_ := by
  rw [ParseState.run] at h
  split at h
  · cases h
  · rename_i st₁ rest hstep
    split at h
    · rename_i hlt
      exact ⟨st₁, rest, hstep, hlt, h⟩
    · cases h

/-- The first construct of a text inside a group that is closed in the end. -/
theorem step_of_run_inside (f : Frame) {c : Char} {cs : List Char}
    (h : (st.inside f).run whole' (c :: cs ++ closingMark) = .ok end_) (hend : end_.outer = []) :
    ∃ k rest st₁, readConstruct st.flags (c :: cs) = .ok (k, rest) ∧
      rest.length < (c :: cs).length ∧
      Takes (st.inside f) (c :: cs ++ closingMark) k st₁ := by
  obtain ⟨st₁, rest', hstep, hlt, hrun⟩ := exists_step_of_run h
  obtain ⟨k, hread, htake⟩ := step_eq_ok_iff.mp hstep
  rcases (readConstruct_reflects st.flags c cs).of_ok hread with ⟨hk, hrest⟩ | ⟨rest, hx, rfl⟩
  · have houter : st₁.outer ≠ [] := outer_ne_nil_of_takes htake hk (by simp [ParseState.inside])
    exact absurd hend (outer_ne_nil_of_run_suffix hrest houter hrun)
  · have hlt' : (rest ++ closingMark).length < (c :: cs ++ closingMark).length := hlt
    rw [List.length_append, List.length_append] at hlt'
    exact ⟨k, rest, st₁, hx, Nat.lt_of_add_lt_add_right hlt', htake⟩

/-! ## 2. Patterns that are no expressions -/

/-- **A group lets a construct do no more than it can do at the start of a text**, but end the
group. -/
theorem error_of_takes_inside {f : Frame} (h : Takes (st.inside f) t k st₁)
    (herror : st.take whole before after k = .error e) :
    e = ⟨.unexpectedParen, String.ofList whole⟩ := by
  have hno : ∀ st', ¬ Takes st before k st' := by
    intro st' htake
    rw [take_eq_ok_iff.mpr htake] at herror
    cases herror
  cases h with
  | pieces rs => exact absurd (.pieces rs) (hno _)
  | flags new => exact absurd (.flags new) (hno _)
  | opening counted inner => exact absurd (.opening counted inner) (hno _)
  | bar hfits => exact absurd (.bar hfits) (hno _)
  | repetition hlast hp hfits hrepeat =>
    have hlast' : st.lastRepeat = none := Option.map_eq_none_iff.mp hlast
    exact absurd (.repetition hlast' hp hfits hrepeat) (hno _)
  | closing hstack hbody hregex =>
    cases houter : st.outer with
    | cons g gs => exact absurd (.closing houter hbody hregex) (hno _)
    | nil =>
      have hlimits : withinLimits whole st.top.body = .ok st.top.body :=
        withinLimits_eq_ok_iff.mpr ⟨hbody, rfl⟩
      simp only [ParseState.take, ParseState.closeGroup, houter] at herror
      rw [hlimits] at herror
      cases herror
      rfl

/-- **A text that cannot be read, but can inside a group, ends a group that it has not opened.** -/
theorem error_of_run_inside (f : Frame) (h : st.run whole t = .error e)
    (h' : (st.inside f).run whole' (t ++ closingMark) = .ok end_) (hend : end_.outer = []) :
    e = ⟨.unexpectedParen, String.ofList whole⟩ := by
  fun_induction ParseState.run whole st t with
  | case1 st => cases h
  | case2 st c cs e' hstep =>
    cases h
    obtain ⟨k, rest, st₁, hread, -, htake⟩ := step_of_run_inside f h' hend
    cases htake' : st.take whole (c :: cs) rest k with
    | ok st' =>
      rw [step_eq_ok_iff.mpr ⟨k, hread, take_eq_ok_iff.mp htake'⟩] at hstep
      cases hstep
    | error e' =>
      have hsame : st.step whole (c :: cs) = .error e' := by
        unfold ParseState.step
        rw [hread]
        simp only [bind, Except.bind, htake']
      rw [hsame] at hstep
      cases hstep
      exact error_of_takes_inside htake htake'
  | case3 st c cs st₁ rest hstep hlt ih =>
    by_cases hopen : OpenQuotation (c :: cs)
    · obtain ⟨open_, hopen', hne⟩ := run_openQuotation f hopen
      rw [hopen'] at h'
      cases h'
      exact absurd hend hne
    · rw [run_inside_of_step f hopen hstep hlt] at h'
      exact ih h h'
  | case4 st c cs st₁ rest hstep hlt =>
    obtain ⟨k, rest', st₂, hread, hlt', -⟩ := step_of_run_inside f h' hend
    obtain ⟨k', hread', -⟩ := step_eq_ok_iff.mp hstep
    rw [hread] at hread'
    cases hread'
    exact absurd hlt' hlt

/-- A group that the closing mark ends holds a whole expression. -/
theorem outer_eq_nil_of_run_closing {f : Frame}
    (h : (st.inside f).run whole closingMark = .ok end_) (hend : end_.outer = []) :
    st.outer = [] ∧ st.top.body.Fits := by
  obtain ⟨st₁, rest, hstep, -, hrun⟩ := exists_step_of_run h
  obtain ⟨k, hread, htake⟩ := step_eq_ok_iff.mp hstep
  cases hread
  cases htake with
  | @closing g gs hstack hbody hregex =>
    refine ⟨?_, hbody⟩
    cases houter : st.outer with
    | nil => rfl
    | cons g' gs' =>
      have hgs : gs ≠ [] := by
        rw [ParseState.inside, houter] at hstack
        cases hstack
        simp
      exact absurd hend (outer_ne_nil_of_run_suffix (List.suffix_refl _) hgs hrun)

/-- **A pattern that is no expression, but is accepted, ends a group that it has not opened.** -/
theorem error_of_parse_anchored {p : String} {r : Regex} (h : Regex.parse p = .error e)
    (h' : Regex.parse (anchored p) = .ok r) : e = ⟨.unexpectedParen, p⟩ := by
  obtain ⟨end_, hrun', hend, -, -⟩ := parse_eq_ok_iff.mp h'
  rw [run_anchored] at hrun'
  cases hrun : ParseState.start.run p.toList p.toList with
  | error e' =>
    have hsame : Regex.parse p = .error e' := by
      simp only [Regex.parse, hrun, bind, Except.bind]
    rw [hsame] at h
    cases h
    rw [error_of_run_inside opened hrun hrun' hend, String.ofList_toList]
  | ok st =>
    -- All of the pattern is read, so only its end can be at fault, as it is inside the anchors.
    rcases run_inside (anchored p).toList opened hrun with
      ⟨-, hinside⟩ | ⟨-, open_, hopen, hne⟩
    · rw [hinside] at hrun'
      obtain ⟨houter, hfits⟩ := outer_eq_nil_of_run_closing hrun' hend
      rw [parse_eq_ok_iff.mpr ⟨st, hrun, houter, hfits, rfl⟩] at h
      cases h
    · rw [hopen] at hrun'
      cases hrun'
      exact absurd hend hne

/-! ## 3. Patterns that are expressions -/

/-- **An expression is accepted as a pattern** unless it ends in an open quotation, or reaches a
limit with its anchors. -/
theorem parse_anchored_iff {p : String} {r : Regex} (h : Regex.parse p = .ok r) :
    (∃ r', Regex.parse (anchored p) = .ok r') ↔
      ¬ EndsQuoted .start p.toList ∧
        (Regex.seq (.anchor .textStart) (.seq r (.anchor .textEnd))).Fits := by
  obtain ⟨st, hrun, houter, hfits, rfl⟩ := parse_eq_ok_iff.mp h
  have hinside := run_inside (anchored p).toList opened hrun
  constructor
  · rintro ⟨r', h'⟩
    obtain ⟨end_, hrun', hend, hfits', hbody⟩ := parse_eq_ok_iff.mp h'
    rw [run_anchored] at hrun'
    rcases hinside with ⟨hquoted, -⟩ | ⟨-, open_, hopen, hne⟩
    · rw [parse_anchored h h'] at hbody
      exact ⟨hquoted, hbody ▸ hfits'⟩
    · rw [hopen] at hrun'
      cases hrun'
      exact absurd hend hne
  · rintro ⟨hquoted, hfits'⟩
    rcases hinside with ⟨-, hrun'⟩ | ⟨hquoted', -⟩
    · rw [run_closing houter hfits (ground_of_run hrun), ← run_anchored] at hrun'
      exact ⟨_, parse_eq_ok_iff.mpr ⟨_, hrun', rfl, hfits', rfl⟩⟩
    · exact absurd hquoted' hquoted

/-! ## 4. Lists of patterns -/

/-- A pattern is accepted. -/
def Accepted (p : String) : Prop := ∃ r, compileAnchored p = .ok r

theorem accepted_iff {p : String} : Accepted p ↔ ∃ r, Regex.parse (anchored p) = .ok r := by
  simp only [Accepted, compileAnchored_eq_ok_iff]

/-- A pattern that is not accepted is reported with its own error, if it has one. -/
theorem compileAnchored_error {p : String} {e e' : ParseError} (h : Regex.parse p = .error e)
    (h' : compileAnchored p = .error e') : e' = e := by
  unfold compileAnchored at h'
  rw [h] at h'
  split at h'
  · cases h'
  · cases h'
    rfl

theorem exists_compileFrom_iff : ∀ {ps : List String} {i : Nat},
    (∃ es, PatternSet.compileFrom i ps = .ok es) ↔ ∀ p ∈ ps, Accepted p
  | [], i => by simp [PatternSet.compileFrom]
  | p :: ps, i => by
      have ih : (∃ es, PatternSet.compileFrom (i + 1) ps = .ok es) ↔ ∀ p ∈ ps, Accepted p :=
        exists_compileFrom_iff
      rw [List.forall_mem_cons, ← ih, PatternSet.compileFrom, Accepted]
      cases compileAnchored p with
      | error e => simp
      | ok r => cases PatternSet.compileFrom (i + 1) ps <;> simp

theorem exists_compile_iff {ps : List String} :
    (∃ set, PatternSet.compile ps = .ok set) ↔ ∀ p ∈ ps, Accepted p := by
  rw [← exists_compileFrom_iff (i := 0)]
  constructor
  · rintro ⟨set, h⟩
    exact ⟨_, compile_eq_ok_iff.mp h⟩
  · rintro ⟨es, h⟩
    exact ⟨⟨es⟩, compile_eq_ok_iff.mpr h⟩

/-- The pattern of `e` is the first of the list `ps`, from the place `i` on, that is refused. -/
def FirstRefused (i : Nat) (ps : List String) (e : PatternError) : Prop :=
  ∃ before after, ps = before ++ e.pattern :: after ∧ e.index = i + before.length ∧
    (∀ p ∈ before, Accepted p) ∧ compileAnchored e.pattern = .error e.cause

theorem firstRefused_cons_iff {p : String} {ps : List String} {i : Nat} {e : PatternError} :
    FirstRefused i (p :: ps) e ↔
      (e.pattern = p ∧ e.index = i ∧ compileAnchored p = .error e.cause) ∨
      (Accepted p ∧ FirstRefused (i + 1) ps e) := by
  constructor
  · rintro ⟨before, after, hps, hindex, hbefore, hcause⟩
    cases before with
    | nil =>
      cases hps
      exact .inl ⟨rfl, hindex, hcause⟩
    | cons q before =>
      cases hps
      rw [List.forall_mem_cons] at hbefore
      refine .inr ⟨hbefore.1, before, after, rfl, ?_, hbefore.2, hcause⟩
      rw [hindex, List.length_cons]
      omega
  · rintro (⟨rfl, hindex, hcause⟩ | ⟨hp, before, after, rfl, hindex, hbefore, hcause⟩)
    · exact ⟨[], ps, rfl, hindex, List.forall_mem_nil _, hcause⟩
    · refine ⟨p :: before, after, rfl, ?_, List.forall_mem_cons.mpr ⟨hp, hbefore⟩, hcause⟩
      rw [hindex, List.length_cons]
      omega

theorem compileFrom_eq_error_iff : ∀ {ps : List String} {i : Nat} {e : PatternError},
    PatternSet.compileFrom i ps = .error e ↔ FirstRefused i ps e
  | [], i, e => by simp [PatternSet.compileFrom, FirstRefused]
  | p :: ps, i, e => by
      rw [firstRefused_cons_iff, ← compileFrom_eq_error_iff, PatternSet.compileFrom]
      cases hp : compileAnchored p with
      | error cause =>
        have hrefused : ¬ Accepted p := by
          rintro ⟨r, hr⟩
          rw [hp] at hr
          cases hr
        constructor
        · rintro ⟨⟩
          exact .inl ⟨rfl, rfl, rfl⟩
        · rintro (⟨rfl, rfl, hcause⟩ | ⟨hp', -⟩)
          · cases hcause
            rfl
          · exact absurd hp' hrefused
      | ok r =>
        have haccepted : Accepted p := ⟨r, hp⟩
        cases PatternSet.compileFrom (i + 1) ps <;> simp [haccepted]

/-- **A list of patterns is refused at the first that is not accepted.** -/
theorem compile_eq_error_iff {ps : List String} {e : PatternError} :
    PatternSet.compile ps = .error e ↔ FirstRefused 0 ps e := by
  rw [← compileFrom_eq_error_iff, PatternSet.compile]
  cases PatternSet.compileFrom 0 ps <;> simp [Except.map]

/-- **A list compiles if all its patterns are accepted, and is refused at the first that is not.**
An expression is refused if it ends in an open quotation, or has no room for its anchors; a pattern
that is no expression is accepted only if it ends a group that it has not opened. -/
theorem compile_accepts_exactly (ps : List String) :
    ((∃ set, PatternSet.compile ps = .ok set) ↔ ∀ p ∈ ps, Accepted p) ∧
    (∀ e, PatternSet.compile ps = .error e ↔ FirstRefused 0 ps e) ∧
    ∀ p ∈ ps,
      (∀ r, Regex.parse p = .ok r →
        (Accepted p ↔ ¬ EndsQuoted .start p.toList ∧
          (Regex.seq (.anchor .textStart) (.seq r (.anchor .textEnd))).Fits)) ∧
      ∀ own, Regex.parse p = .error own →
        (Accepted p → own = ⟨.unexpectedParen, p⟩) ∧
          ∀ e, compileAnchored p = .error e → e = own := by
  refine ⟨exists_compile_iff, fun e => compile_eq_error_iff, fun p _ => ⟨?_, ?_⟩⟩
  · intro r h
    rw [accepted_iff, parse_anchored_iff h]
  · intro own h
    refine ⟨fun haccepted => ?_, fun e h' => compileAnchored_error h h'⟩
    obtain ⟨r, h'⟩ := accepted_iff.mp haccepted
    exact error_of_parse_anchored h h'

/-- The quotation of an expression is closed by nothing, and a group of a text by its anchors. -/
theorem compile_accepts_exactly_marks :
    (∃ r, Regex.parse "\\Qab" = .ok r) ∧ ¬ Accepted "\\Qab" ∧
    (∃ own, Regex.parse "a)|(b" = .error own ∧ own = ⟨.unexpectedParen, "a)|(b"⟩) ∧
    Accepted "a)|(b" := by
  obtain ⟨r, hquoted, -⟩ : ∃ r, Regex.parse "\\Qab" = .ok r ∧ r.found "ab" = true :=
    exists_eq_ok_of_any (by decide +kernel)
  have haccepted : Accepted "a)|(b" := by
    obtain ⟨r', h, -⟩ : ∃ r', compileAnchored "a)|(b" = .ok r' ∧ r'.found "axx" = true :=
      exists_eq_ok_of_any (by decide +kernel)
    exact ⟨r', h⟩
  obtain ⟨own, hown⟩ : ∃ own, Regex.parse "a)|(b" = .error own :=
    ⟨⟨.unexpectedParen, "a)|(b"⟩, eq_error_of_decide (by decide +kernel)⟩
  have hexact := (compile_accepts_exactly ["\\Qab", "a)|(b"]).2.2
  refine ⟨⟨r, hquoted⟩, fun h => ?_, ⟨own, hown, ?_⟩, haccepted⟩
  · have hopen : OpenQuotation "\\Qab".toList := ⟨['a', 'b'], rfl, rfl⟩
    exact (((hexact "\\Qab" (by simp)).1 r hquoted).mp h).1 (.here hopen)
  · exact ((hexact "a)|(b" (by simp)).2 own hown).1 haccepted

/-- A text with an unopened group compiles and is not matched as a whole, and a quotation without
end is refused, although it is an expression. -/
theorem compile_accepts_unbalanced :
    (∃ set, PatternSet.compile ["a)|(b"] = .ok set ∧ set.matches_ "axx" = true) ∧
    Regex.parse "a)|(b" = .error ⟨.unexpectedParen, "a)|(b"⟩ ∧
    PatternSet.compile ["\\Qab"] =
      .error ⟨"\\Qab", 0, ⟨.missingParen, "^(?:\\Qab)$"⟩⟩ ∧
    ∃ r, Regex.parse "\\Qab" = .ok r ∧ r.found "ab" = true :=
  ⟨exists_eq_ok_of_any (by decide +kernel), eq_error_of_decide (by decide +kernel),
    eq_error_of_decide (by decide +kernel), exists_eq_ok_of_any (by decide +kernel)⟩

end DocAudit.Pattern
