import DocAudit.Pattern.Reader
import DocAudit.Proofs.Except
import DocAudit.Proofs.Pattern.Match

/-!
# What reading an expression keeps

The reader takes one construct after the other into a stack of frames.

* `take_counted`: no construct brings in a repetition that asks for more than it allows, so the
  expression that is read has none (`counted_of_parse`);
* `take_ground`: the lowest frame stays the one that reading starts with, in all but what it holds.
-/

namespace DocAudit.Pattern

variable {whole before after t : List Char} {st st' : ParseState} {k : Construct}

/-! ## 1. Constructs -/

/-- What a construct brings in keeps the counts of repetitions in order. -/
def Construct.Counted : Construct → Prop
  | .pieces rs => ∀ r ∈ rs, r.Counted
  | .repetition op => ∀ r : Regex, r.Counted → (op r).Counted
  | _ => True

/-- What is read, if something is, keeps the counts of repetitions in order. -/
structure Counts (x : Parsed (Construct × List Char)) : Prop where
  counted : ∀ {k rest}, x = .ok (k, rest) → k.Counted

namespace Counts

variable {x y : Parsed (Construct × List Char)}

theorem ok {rest : List Char} (hk : k.Counted) : Counts (.ok (k, rest)) := by
  refine ⟨fun h => ?_⟩
  cases h
  exact hk

theorem piece {r : Regex} {rest : List Char} (hr : r.Counted) : Counts (.ok (.pieces [r], rest)) :=
  ok (by simpa [Construct.Counted] using hr)

theorem error (e : ParseError) : Counts (.error e) := by
  refine ⟨fun h => ?_⟩
  cases h

theorem failAt (fault : ParseFault) (s t : List Char) : Counts (Pattern.failAt fault s t) := error _

theorem ite {p : Prop} [Decidable p] (hx : Counts x) (hy : Counts y) :
    Counts (if p then x else y) := by
  split
  · exact hx
  · exact hy

theorem bind {α : Type} {x : Parsed α} {f : α → Parsed (Construct × List Char)}
    (hf : ∀ a, Counts (f a)) : Counts (x >>= f) := by
  refine ⟨fun h => ?_⟩
  obtain ⟨a, -, h⟩ := bind_eq_ok_iff.mp h
  exact (hf a).counted h

end Counts

theorem readFlags_counts (s : List Char) (flags : Flags) (minus sawFlag : Bool) (t : List Char) :
    Counts (readFlags s flags minus sawFlag t) := by
  induction t generalizing flags minus sawFlag with
  | nil => exact .failAt _ _ _
  | cons c t ih =>
    unfold readFlags
    refine .ite (ih _ _ _) (.ite (ih _ _ _) (.ite (ih _ _ _) (.ite (ih _ _ _) (.ite (ih _ _ _)
      (.ite (.ok ?_) (.failAt _ _ _))))))
    split <;> trivial

theorem readSpecialGroup_counts (flags : Flags) (s : List Char) :
    Counts (readSpecialGroup flags s) := by
  unfold readSpecialGroup readNamedGroup
  split
  · split
    · exact .error _
    · exact .ite (.ok trivial) (.failAt _ _ _)
  · exact readFlags_counts _ _ _ _ _

theorem readBraces_counts (fold : Bool) (t : List Char) : Counts (readBraces fold t) := by
  unfold readBraces
  split
  · exact .piece trivial
  · rename_i min max _ after _
    split
    · exact .failAt _ _ _
    · rename_i hfits
      refine .ok (fun r hr => ⟨fun m hm => ?_, hr⟩)
      cases hm
      simp at hfits
      omega
  · refine .ite (.failAt _ _ _) (.ok fun r hr => ⟨fun m hm => ?_, hr⟩)
    cases hm
  · exact .failAt _ _ _

theorem readBackslash_counts (fold : Bool) (t : List Char) : Counts (readBackslash fold t) := by
  unfold readBackslash
  split
  · rename_i b c t
    refine .ite (.piece trivial) (.ite (.piece trivial) (.ite (.piece trivial)
      (.ite (.failAt _ _ _) (.ite (.piece trivial) (.ite (.ok ?_)
      (.ite (.bind fun _ => .piece trivial) ?_))))))
    · intro r hr
      obtain ⟨c, -, rfl⟩ := List.mem_map.mp hr
      trivial
    · split
      · exact .piece trivial
      · exact .bind fun _ => .piece trivial
  · exact .error _

theorem readConstruct_counts (flags : Flags) (t : List Char) : Counts (readConstruct flags t) := by
  unfold readConstruct
  split
  · exact .ok (List.forall_mem_nil _)
  · exact readSpecialGroup_counts _ _
  · exact .ok trivial
  · exact .ok trivial
  · exact .ok trivial
  · exact .piece trivial
  · exact .piece trivial
  · exact .piece trivial
  · exact .bind fun _ => .piece trivial
  · exact .ok (fun r hr => hr)
  · exact .ok (fun r hr => hr)
  · exact .ok (fun r hr => hr)
  · exact readBraces_counts _ _
  · exact readBackslash_counts _ _
  · exact .piece trivial

/-! ## 2. States -/

/-- Everything that a frame holds keeps the counts of repetitions in order. -/
structure Frame.Counted (f : Frame) : Prop where
  branches : ∀ r ∈ f.branches, r.Counted
  pieces : ∀ r ∈ f.pieces, r.Counted

/-- So does everything that a state holds. -/
structure ParseState.Counted (st : ParseState) : Prop where
  top : st.top.Counted
  outer : ∀ f ∈ st.outer, f.Counted

theorem counted_sequence {rs : List Regex} (h : ∀ r ∈ rs, r.Counted) : (sequence rs).Counted := by
  have hfold : ∀ (rs : List Regex) (r : Regex), r.Counted → (∀ q ∈ rs, q.Counted) →
      (rs.foldl (fun acc p => .seq p acc) r).Counted := by
    intro rs
    induction rs with
    | nil => exact fun r hr _ => hr
    | cons p rs ih =>
      intro r hr hrs
      rw [List.forall_mem_cons] at hrs
      exact ih _ ⟨hrs.1, hr⟩ hrs.2
  cases rs with
  | nil => trivial
  | cons r rs =>
    rw [List.forall_mem_cons] at h
    exact hfold rs r h.1 h.2

theorem counted_choice {branches : List Regex} {last : Regex} (h : ∀ r ∈ branches, r.Counted)
    (hlast : last.Counted) : (choice branches last).Counted := by
  induction branches with
  | nil => exact hlast
  | cons r branches ih =>
    rw [List.forall_mem_cons] at h
    exact ⟨h.1, ih h.2⟩

theorem Frame.Counted.body {f : Frame} (hf : f.Counted) : f.body.Counted :=
  counted_choice hf.branches (counted_sequence hf.pieces)

/-- An expression keeps the limits. -/
def Regex.Fits (r : Regex) : Prop := r.cost ≤ maxCost ∧ r.height ≤ maxHeight

theorem withinLimits_eq_ok_iff {r r' : Regex} :
    withinLimits whole r = .ok r' ↔ r.Fits ∧ r = r' := by
  unfold withinLimits Regex.Fits
  split
  · simp only [reduceCtorEq, false_iff]
    omega
  · split
    · simp only [reduceCtorEq, false_iff]
      omega
    · simp only [Except.ok.injEq]
      exact ⟨fun h => ⟨⟨by omega, by omega⟩, h⟩, fun h => h.2⟩

/-- What a construct makes of a state, apart from the errors. -/
inductive Takes (st : ParseState) (before : List Char) : Construct → ParseState → Prop where
  | pieces (rs : List Regex) : Takes st before (.pieces rs)
      { st with top := { st.top with pieces := rs.reverse ++ st.top.pieces }, lastRepeat := none }
  | flags (new : Flags) : Takes st before (.flags new) { st with flags := new, lastRepeat := none }
  | opening (counted : Bool) (inner : Flags) : Takes st before (.opening counted inner)
      ⟨inner, Frame.fresh st.flags counted, st.top :: st.outer, none⟩
  | bar : (sequence st.top.pieces).Fits → Takes st before .bar
      { st with
        top := { st.top with
          branches := st.top.branches ++ [sequence st.top.pieces]
          pieces := [] }
        lastRepeat := none }
  | closing {f : Frame} {fs : List Frame} :
      st.outer = f :: fs → st.top.body.Fits → st.top.regex.Fits → Takes st before .closing
        { st with
          flags := st.top.saved
          top := { f with pieces := st.top.regex :: f.pieces }
          outer := fs
          lastRepeat := none }
  | repetition {op : Regex → Regex} {p : Regex} {ps : List Regex} :
      st.lastRepeat = none → st.top.pieces = p :: ps → (op p).Fits → (op p).repeatable = true →
        Takes st before (.repetition op)
          { st with top := { st.top with pieces := op p :: ps }, lastRepeat := some before }

theorem foldl_push (rs : List Regex) (st : ParseState) :
    rs.foldl ParseState.push st =
      { st with top := { st.top with pieces := rs.reverse ++ st.top.pieces } } := by
  induction rs generalizing st with
  | nil => rfl
  | cons r rs ih => simp [ih, ParseState.push]

theorem takes_closing_iff :
    { st with lastRepeat := none }.closeGroup whole = .ok st' ↔ Takes st before .closing st' := by
  simp only [ParseState.closeGroup, bind_eq_ok_iff, withinLimits_eq_ok_iff]
  constructor
  · rintro ⟨body, ⟨hbody, rfl⟩, h⟩
    split at h
    · cases h
    · rename_i f fs houter
      simp only [bind_eq_ok_iff, withinLimits_eq_ok_iff] at h
      obtain ⟨r, ⟨hregex, rfl⟩, ⟨⟩⟩ := h
      exact .closing houter hbody hregex
  · intro h
    cases h with
    | closing houter hbody hregex =>
      refine ⟨_, ⟨hbody, rfl⟩, ?_⟩
      simp only [houter, bind_eq_ok_iff, withinLimits_eq_ok_iff]
      exact ⟨_, ⟨hregex, rfl⟩, rfl⟩

theorem takes_repetition_iff (op : Regex → Regex) :
    st.repeatLast whole op before after = .ok st' ↔ Takes st before (.repetition op) st' := by
  unfold ParseState.repeatLast
  constructor
  · intro h
    split at h
    · cases h
    · rename_i hlast
      split at h
      · cases h
      · rename_i p ps hp
        simp only [bind_eq_ok_iff, withinLimits_eq_ok_iff] at h
        obtain ⟨r, ⟨hfits, rfl⟩, h⟩ := h
        split at h
        · rename_i hrepeat
          cases h
          exact .repetition hlast hp hfits hrepeat
        · cases h
  · intro h
    cases h with
    | repetition hlast hp hfits hrepeat =>
      simp only [hlast, hp, bind_eq_ok_iff, withinLimits_eq_ok_iff]
      refine ⟨_, ⟨hfits, rfl⟩, ?_⟩
      rw [if_pos hrepeat]
      rfl

/-- **What a construct makes of a state does not depend on the text around it.** -/
theorem take_eq_ok_iff : st.take whole before after k = .ok st' ↔ Takes st before k st' := by
  cases k with
  | pieces rs =>
    rw [ParseState.take, foldl_push]
    constructor
    · rintro ⟨⟩
      exact .pieces rs
    · rintro ⟨⟩
      rfl
  | flags new =>
    constructor
    · rintro ⟨⟩
      exact .flags new
    · rintro ⟨⟩
      rfl
  | opening counted inner =>
    constructor
    · rintro ⟨⟩
      exact .opening counted inner
    · rintro ⟨⟩
      rfl
  | bar =>
    simp only [ParseState.take, bind_eq_ok_iff, withinLimits_eq_ok_iff]
    constructor
    · rintro ⟨r, ⟨hfits, rfl⟩, ⟨⟩⟩
      exact .bar hfits
    · intro h
      cases h with
      | bar hfits => exact ⟨_, ⟨hfits, rfl⟩, rfl⟩
  | closing => exact takes_closing_iff
  | repetition op => exact takes_repetition_iff op

/-! ## 3. What a construct keeps -/

theorem Frame.Counted.regex {f : Frame} (hf : f.Counted) : f.regex.Counted := by
  unfold Frame.regex
  split
  · exact hf.body
  · exact hf.body

theorem take_counted (h : Takes st before k st') (hst : st.Counted) (hk : k.Counted) :
    st'.Counted := by
  obtain ⟨⟨hbranches, hpieces⟩, houter⟩ := hst
  cases h with
  | pieces rs =>
    refine ⟨⟨hbranches, fun r hr => ?_⟩, houter⟩
    rcases List.mem_append.mp hr with hr | hr
    · exact hk r (List.mem_reverse.mp hr)
    · exact hpieces r hr
  | flags new => exact ⟨⟨hbranches, hpieces⟩, houter⟩
  | opening counted inner =>
    refine ⟨⟨List.forall_mem_nil _, List.forall_mem_nil _⟩, ?_⟩
    rw [List.forall_mem_cons]
    exact ⟨⟨hbranches, hpieces⟩, houter⟩
  | bar hfits =>
    refine ⟨⟨fun r hr => ?_, List.forall_mem_nil _⟩, houter⟩
    rcases List.mem_append.mp hr with hr | hr
    · exact hbranches r hr
    · obtain rfl := List.mem_singleton.mp hr
      exact counted_sequence hpieces
  | closing hstack hbody hregex =>
    rw [hstack, List.forall_mem_cons] at houter
    refine ⟨⟨houter.1.branches, ?_⟩, houter.2⟩
    rw [List.forall_mem_cons]
    exact ⟨Frame.Counted.regex ⟨hbranches, hpieces⟩, houter.1.pieces⟩
  | repetition hlast hp hfits hrepeat =>
    rw [hp, List.forall_mem_cons] at hpieces
    refine ⟨⟨hbranches, ?_⟩, houter⟩
    rw [List.forall_mem_cons]
    exact ⟨hk _ hpieces.1, hpieces.2⟩

/-- What the frames of a state keep of the texts around their groups, the lowest frame last. -/
def ParseState.marks (st : ParseState) : List (Flags × Bool) :=
  (st.top :: st.outer).map fun f => (f.saved, f.counted)

/-- The lowest frame is the same in all but what it holds. -/
theorem take_ground (h : Takes st before k st') : st'.marks.getLast? = st.marks.getLast? := by
  cases h with
  | closing hstack hbody hregex =>
    simp [ParseState.marks, hstack]
  | opening counted inner => simp [ParseState.marks]
  | _ => rfl

/-- **Reading keeps what every construct keeps.** -/
theorem run_induction {P : ParseState → Prop}
    (hstep : ∀ {st t k rest before st'}, P st → readConstruct st.flags t = .ok (k, rest) →
      Takes st before k st' → P st') {st st' : ParseState} {t : List Char} (hst : P st)
    (h : st.run whole t = .ok st') : P st' := by
  fun_induction ParseState.run whole st t with
  | case1 st =>
    cases h
    exact hst
  | case2 st c cs e he => cases h
  | case3 st c cs st₁ rest hs hlt ih =>
    obtain ⟨⟨k, rest'⟩, hread, hs⟩ := bind_eq_ok_iff.mp hs
    obtain ⟨st₂, htake, ⟨⟩⟩ := bind_eq_ok_iff.mp hs
    exact ih (hstep hst hread (take_eq_ok_iff.mp htake)) h
  | case4 st c cs st₁ rest hs hlt => cases h

theorem finish_eq_ok_iff {r : Regex} :
    st.finish whole = .ok r ↔ st.outer = [] ∧ st.top.body.Fits ∧ st.top.body = r := by
  unfold ParseState.finish
  simp only [bind_eq_ok_iff, withinLimits_eq_ok_iff]
  constructor
  · rintro ⟨body, ⟨hfits, rfl⟩, h⟩
    split at h
    · rename_i houter
      cases h
      exact ⟨List.isEmpty_iff.mp houter, hfits, rfl⟩
    · cases h
  · rintro ⟨houter, hfits, rfl⟩
    refine ⟨_, ⟨hfits, rfl⟩, ?_⟩
    rw [houter]
    rfl

/-- What is read of a whole text. -/
theorem parse_eq_ok_iff {p : String} {r : Regex} :
    Regex.parse p = .ok r ↔ ∃ st, ParseState.start.run p.toList p.toList = .ok st ∧
      st.outer = [] ∧ st.top.body.Fits ∧ st.top.body = r := by
  simp only [Regex.parse, bind_eq_ok_iff, finish_eq_ok_iff]

theorem counted_of_run {st : ParseState} (h : ParseState.start.run whole t = .ok st) :
    st.Counted :=
  run_induction
    (fun hst hread htake => take_counted htake hst ((readConstruct_counts _ _).counted hread))
    ⟨⟨List.forall_mem_nil _, List.forall_mem_nil _⟩, List.forall_mem_nil _⟩ h

/-- **No repetition of an expression that is read asks for more than it allows.** -/
theorem counted_of_parse {p : String} {r : Regex} (h : Regex.parse p = .ok r) : r.Counted := by
  obtain ⟨st, hrun, -, -, rfl⟩ := parse_eq_ok_iff.mp h
  exact (counted_of_run hrun).top.body

theorem ground_of_run {st : ParseState} (h : ParseState.start.run whole t = .ok st) :
    st.marks.getLast? = ParseState.start.marks.getLast? :=
  run_induction (P := fun s => s.marks.getLast? = ParseState.start.marks.getLast?)
    (fun hst _ htake => (take_ground htake).trans hst) rfl h

end DocAudit.Pattern
