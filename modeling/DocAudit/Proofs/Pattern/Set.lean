import DocAudit.Pattern.Set

/-!
# Compiled sets

A list of patterns compiles exactly if each of its patterns does, and then the set holds the list.

* `PatternSet.Holds`: a set holds a list of patterns;
* `matches_iff_exists`: such a set matches what one of the patterns matches by itself.
-/

namespace DocAudit.Pattern

/-- The expression of a pattern is what its anchored text writes. -/
theorem compileAnchored_eq_ok_iff {p : String} {r : Regex} :
    compileAnchored p = .ok r ↔ Regex.parse (anchored p) = .ok r := by
  unfold compileAnchored
  cases Regex.parse (anchored p) with
  | ok r' => rfl
  | error e => cases Regex.parse p <;> simp

theorem compile_singleton (p : String) :
    PatternSet.compile [p] =
      match compileAnchored p with
      | .ok r => .ok ⟨[⟨p, r⟩]⟩
      | .error e => .error ⟨p, 0, e⟩ := by
  unfold PatternSet.compile PatternSet.compileFrom PatternSet.compileFrom
  cases compileAnchored p <;> rfl

/-- A set holds a list of patterns: in their order, each with the expression that it writes.  So the
set of a list with patterns, which is a condition, is never the empty set, which is none. -/
structure PatternSet.Holds (s : PatternSet) (ps : List String) : Prop where
  sources_eq : s.sources = ps
  regex_of : ∀ e ∈ s.entries, compileAnchored e.source = .ok e.regex
  isEmpty_iff : s.isEmpty = true ↔ ps = []

theorem entries_of_compileFrom : ∀ {ps : List String} {i : Nat} {es : List Compiled},
    PatternSet.compileFrom i ps = .ok es →
      es.map (·.source) = ps ∧ ∀ e ∈ es, compileAnchored e.source = .ok e.regex
  | [], _, _, h => by
      cases h
      exact ⟨rfl, List.forall_mem_nil _⟩
  | p :: ps, i, es, h => by
      unfold PatternSet.compileFrom at h
      split at h
      · cases h
      · rename_i r hr
        split at h
        · cases h
        · rename_i rest hrest
          cases h
          obtain ⟨hs, hall⟩ := entries_of_compileFrom hrest
          refine ⟨congrArg (p :: ·) hs, ?_⟩
          rw [List.forall_mem_cons]
          exact ⟨hr, hall⟩

/-- Compiling a list is compiling its patterns, each at its place. -/
theorem compile_eq_ok_iff {ps : List String} {s : PatternSet} :
    PatternSet.compile ps = .ok s ↔ PatternSet.compileFrom 0 ps = .ok s.entries := by
  unfold PatternSet.compile
  cases PatternSet.compileFrom 0 ps with
  | error e => simp [Except.map]
  | ok es =>
    cases s
    simp [Except.map]

theorem holds_of_compile {ps : List String} {s : PatternSet} (h : PatternSet.compile ps = .ok s) :
    s.Holds ps := by
  obtain ⟨hs, hall⟩ := entries_of_compileFrom (compile_eq_ok_iff.mp h)
  refine ⟨hs, hall, ?_⟩
  rw [← hs]
  simp [PatternSet.isEmpty]

theorem compile_singleton_of_holds {ps : List String} {s : PatternSet} (hs : s.Holds ps)
    {e : Compiled} (he : e ∈ s.entries) : PatternSet.compile [e.source] = .ok ⟨[e]⟩ := by
  rw [compile_singleton, hs.regex_of e he]

/-- **A set matches what one of its patterns matches.** -/
theorem matches_iff_exists {ps : List String} {s : PatternSet} (hs : s.Holds ps) (value : String) :
    s.matches_ value = true ↔
      ∃ p ∈ ps, ∃ one, PatternSet.compile [p] = .ok one ∧ one.matches_ value = true := by
  have hone : ∀ e : Compiled, (PatternSet.mk [e]).matches_ value = e.regex.found value := by
    simp [PatternSet.matches_]
  unfold PatternSet.matches_ at hone ⊢
  rw [List.any_eq_true, ← hs.sources_eq]
  constructor
  · rintro ⟨e, he, hfound⟩
    refine ⟨e.source, List.mem_map_of_mem he, _, compile_singleton_of_holds hs he, ?_⟩
    rw [hone, hfound]
  · rintro ⟨p, hp, one, hcompile, hfound⟩
    obtain ⟨e, he, rfl⟩ := List.mem_map.mp hp
    rw [compile_singleton_of_holds hs he] at hcompile
    cases hcompile
    exact ⟨e, he, (hone e).symm.trans hfound⟩

end DocAudit.Pattern
