import DocAudit.Proofs.Pattern.Constructs
import DocAudit.Proofs.Pattern.Reading

/-!
# Reading anchored patterns

The anchored text of a pattern is read with the pattern as a group of its own: nothing in the
pattern reaches out of the group, neither a branch nor a flag.

* `takes_inside`: a construct does inside a group what it does at the start of a text;
* `run_inside`: so a pattern is read inside its anchors as it is by itself, unless it ends in an
  open quotation (`EndsQuoted`), which takes the closing mark in;
* `parse_anchored`: what the anchored text writes.
-/

namespace DocAudit.Pattern

variable {whole whole' before t rest : List Char} {st st' : ParseState} {k : Construct}

/-! ## 1. Steps -/

theorem step_eq_ok_iff :
    st.step whole t = .ok (st', rest) ↔
      ∃ k, readConstruct st.flags t = .ok (k, rest) ∧ Takes st t k st' := by
  unfold ParseState.step
  rw [bind_eq_ok_iff]
  constructor
  · rintro ⟨⟨k, rest'⟩, hread, h⟩
    obtain ⟨st₁, htake, ⟨⟩⟩ := bind_eq_ok_iff.mp h
    exact ⟨k, hread, take_eq_ok_iff.mp htake⟩
  · rintro ⟨k, hread, htake⟩
    exact ⟨_, hread, bind_eq_ok_iff.mpr ⟨_, take_eq_ok_iff.mpr htake, rfl⟩⟩

/-- One construct of a run. -/
theorem run_eq_of_step (st : ParseState) (hread : readConstruct st.flags t = .ok (k, rest))
    (htake : Takes st t k st') (hlt : rest.length < t.length) :
    st.run whole t = st'.run whole rest := by
  cases t with
  | nil => cases hlt
  | cons c t =>
    rw [ParseState.run, step_eq_ok_iff.mpr ⟨k, hread, htake⟩]
    simp only [hlt, dite_true]

/-! ## 2. Texts that end in a quotation -/

/-- From the state `st` on, the reader of `t` comes to a quotation that `t` does not end. -/
inductive EndsQuoted : ParseState → List Char → Prop where
  | here {st : ParseState} {t : List Char} : OpenQuotation t → EndsQuoted st t
  | later {st st' : ParseState} {t rest : List Char} {k : Construct} :
      readConstruct st.flags t = .ok (k, rest) → Takes st t k st' → EndsQuoted st' rest →
        EndsQuoted st t

theorem not_endsQuoted_nil (st : ParseState) : ¬ EndsQuoted st [] := by
  intro h
  generalize ht : ([] : List Char) = t at h
  induction h with
  | here hopen =>
    obtain ⟨q, rfl, -⟩ := hopen
    cases ht
  | later hread _ _ ih =>
    subst ht
    cases hread
    exact ih rfl

theorem endsQuoted_iff_of_step (hopen : ¬ OpenQuotation t)
    (hstep : st.step whole t = .ok (st', rest)) : EndsQuoted st t ↔ EndsQuoted st' rest := by
  obtain ⟨k, hread, htake⟩ := step_eq_ok_iff.mp hstep
  constructor
  · intro h
    cases h with
    | here h => exact absurd h hopen
    | later hread' htake' h =>
      have hsame : st.step whole t = .ok (_, _) := step_eq_ok_iff.mpr ⟨_, hread', htake'⟩
      rw [hstep] at hsame
      cases hsame
      exact h
  · exact .later hread htake

/-! ## 3. Inside a group -/

/-- The state `st` inside a group that stands in the frame `f`, in front of the closing mark. -/
def ParseState.inside (f : Frame) (st : ParseState) : ParseState :=
  { st with outer := st.outer ++ [f], lastRepeat := st.lastRepeat.map (· ++ closingMark) }

/-- **A construct does inside a group what it does at the start of a text.** -/
theorem takes_inside (f : Frame) (h : Takes st before k st') :
    Takes (st.inside f) (before ++ closingMark) k (st'.inside f) := by
  cases h with
  | pieces rs => exact .pieces rs
  | flags new => exact .flags new
  | opening counted inner => exact .opening counted inner
  | bar hfits => exact .bar hfits
  | @closing g gs hstack hbody hregex =>
    have hstack' : (st.inside f).outer = g :: (gs ++ [f]) := by
      rw [ParseState.inside, hstack, List.cons_append]
    exact .closing hstack' hbody hregex
  | repetition hlast hp hfits hrepeat =>
    have hlast' : (st.inside f).lastRepeat = none := by
      rw [ParseState.inside, hlast, Option.map_none]
    exact .repetition hlast' hp hfits hrepeat

/-- An open quotation inside a group leaves the group open. -/
theorem run_openQuotation (f : Frame) (hopen : OpenQuotation t) :
    ∃ open_, (st.inside f).run whole (t ++ closingMark) = .ok open_ ∧ open_.outer ≠ [] := by
  obtain ⟨-, rs, hread⟩ := readConstruct_openQuotation st.flags hopen
  obtain ⟨q, rfl, -⟩ := hopen
  rw [run_eq_of_step (st.inside f) hread (.pieces rs) (by simp), ParseState.run]
  refine ⟨_, rfl, ?_⟩
  simp [ParseState.inside]

theorem run_inside_of_step (f : Frame) {c : Char} {cs : List Char}
    (hopen : ¬ OpenQuotation (c :: cs)) (hstep : st.step whole (c :: cs) = .ok (st', rest))
    (hlt : rest.length < (c :: cs).length) :
    (st.inside f).run whole' (c :: cs ++ closingMark) =
      (st'.inside f).run whole' (rest ++ closingMark) := by
  obtain ⟨k, hread, htake⟩ := step_eq_ok_iff.mp hstep
  have hlt' : (rest ++ closingMark).length < (c :: cs ++ closingMark).length := by
    simp only [List.length_append]
    exact Nat.add_lt_add_right hlt _
  exact run_eq_of_step (st.inside f) ((readConstruct_append _ hopen).eq_ok hread)
    (takes_inside f htake) hlt'

/-- **A text is read inside a group as it is by itself**, up to the closing mark.  A quotation that
it does not end takes the mark in, and the group stays open. -/
theorem run_inside (whole' : List Char) (f : Frame) (h : st.run whole t = .ok st') :
    (¬ EndsQuoted st t ∧
      (st.inside f).run whole' (t ++ closingMark) = (st'.inside f).run whole' closingMark) ∨
    (EndsQuoted st t ∧
      ∃ open_, (st.inside f).run whole' (t ++ closingMark) = .ok open_ ∧ open_.outer ≠ []) := by
  fun_induction ParseState.run whole st t with
  | case1 st =>
    cases h
    exact .inl ⟨not_endsQuoted_nil _, rfl⟩
  | case2 st c cs e he => cases h
  | case3 st c cs st₁ rest hs hlt ih =>
    by_cases hopen : OpenQuotation (c :: cs)
    · exact .inr ⟨.here hopen, run_openQuotation f hopen⟩
    · rw [endsQuoted_iff_of_step hopen hs, run_inside_of_step f hopen hs hlt]
      exact ih h
  | case4 st c cs st₁ rest hs hlt => cases h

/-! ## 4. Between the anchors -/

/-- The flags at the start of a text. -/
def noFlags : Flags := ⟨false, false, false⟩

/-- The frame around a pattern: what stands in front of it is read. -/
def opened : Frame := ⟨[], [.anchor .textStart], noFlags, false⟩

theorem run_opening (t : List Char) :
    ParseState.start.run whole ('^' :: '(' :: '?' :: ':' :: t) =
      (ParseState.start.inside opened).run whole t := by
  have hstart : readConstruct noFlags ('^' :: '(' :: '?' :: ':' :: t) =
      .ok (.pieces [.anchor .textStart], '(' :: '?' :: ':' :: t) := rfl
  have hgroup : readConstruct noFlags ('(' :: '?' :: ':' :: t) =
      .ok (.opening false noFlags, t) := rfl
  rw [run_eq_of_step .start hstart (.pieces _) (by simp),
    run_eq_of_step _ hgroup (.opening _ _) (by simp only [List.length_cons]; omega)]
  rfl

/-- The anchored text is read as the pattern inside a group, in front of the closing mark. -/
theorem run_anchored (p : String) :
    ParseState.start.run whole (anchored p).toList =
      (ParseState.start.inside opened).run whole (p.toList ++ closingMark) := by
  have htext : (anchored p).toList = '^' :: '(' :: '?' :: ':' :: (p.toList ++ closingMark) := by
    simp [anchored, closingMark]
  rw [htext, run_opening]

/-- The closing mark ends the group and asks for the end of the text. -/
theorem run_closing (houter : st.outer = []) (hfits : st.top.body.Fits)
    (hmarks : st.marks.getLast? = some (noFlags, false)) :
    (st.inside opened).run whole closingMark =
      .ok ⟨noFlags, ⟨[], [.anchor .textEnd, st.top.body, .anchor .textStart], noFlags, false⟩, [],
        none⟩ := by
  obtain ⟨hsaved, hcounted⟩ : st.top.saved = noFlags ∧ st.top.counted = false := by
    simpa [ParseState.marks, houter] using hmarks
  have hregex : st.top.regex = st.top.body := by
    rw [Frame.regex, hcounted]
    rfl
  have hend : readConstruct noFlags ['$'] = .ok (.pieces [.anchor .textEnd], []) := rfl
  have hclosing : Takes (st.inside opened) closingMark .closing
      ⟨noFlags, ⟨[], [st.top.body, .anchor .textStart], noFlags, false⟩, [], none⟩ := by
    have hstack : (st.inside opened).outer = opened :: [] := by
      rw [ParseState.inside, houter, List.nil_append]
    have htake : Takes (st.inside opened) closingMark .closing _ :=
      .closing hstack hfits (hregex.symm ▸ hfits)
    rw [ParseState.inside, hregex, hsaved] at htake
    exact htake
  have hread : readConstruct st.flags closingMark = .ok (.closing, ['$']) := rfl
  rw [run_eq_of_step (st.inside opened) hread hclosing (by decide),
    run_eq_of_step _ hend (.pieces _) (by decide), ParseState.run]
  rfl

/-- **What the anchored text of a pattern writes**: the start of the text, the pattern, the end. -/
theorem parse_anchored {p : String} {r r' : Regex} (h : Regex.parse p = .ok r)
    (h' : Regex.parse (anchored p) = .ok r') :
    r' = .seq (.anchor .textStart) (.seq r (.anchor .textEnd)) := by
  obtain ⟨st, hrun, houter, hfits, rfl⟩ := parse_eq_ok_iff.mp h
  obtain ⟨st', hrun', houter', -, rfl⟩ := parse_eq_ok_iff.mp h'
  rw [run_anchored] at hrun'
  rcases run_inside _ opened hrun with ⟨-, hinside⟩ | ⟨-, open_, hopen, hne⟩
  · rw [hinside, run_closing houter hfits (ground_of_run hrun)] at hrun'
    cases hrun'
    rfl
  · rw [hopen] at hrun'
    cases hrun'
    exact absurd houter' hne

end DocAudit.Pattern
