import DocAudit.Proofs.Pattern.Anchored
import DocAudit.Proofs.Pattern.Set

/-!
# Patterns match whole texts

A set matches a text exactly if one of its patterns, read by itself, leads from the start of the
text to its end.

* `found_between_anchors`: between its anchors, an expression is found where it spans the text;
* `matches_iff_spans`: what a set of patterns matches.
-/

namespace DocAudit.Pattern

theorem found_between_anchors {r : Regex} (hr : r.Counted) (text : String) :
    (Regex.seq (.anchor .textStart) (.seq r (.anchor .textEnd))).found text = true ↔
      r.Leads text.toList.toArray 0 text.toList.length := by
  have hcounted : (Regex.seq (.anchor .textStart) (.seq r (.anchor .textEnd))).Counted :=
    ⟨trivial, hr, trivial⟩
  rw [found_iff hcounted]
  simp only [leads_seq_iff, leads_anchor_iff, Anchor.holds, beq_iff_eq, List.size_toArray]
  constructor
  · rintro ⟨i, -, k, j, ⟨rfl, rfl⟩, l, hr, rfl, rfl⟩
    exact hr
  · intro hr
    exact ⟨0, Nat.zero_le _, _, 0, ⟨rfl, rfl⟩, _, hr, rfl, rfl⟩

/-- The expression that a set holds for a pattern, which is `r` when it is read by itself. -/
theorem compile_singleton_eq_ok {p : String} {r : Regex} {set : PatternSet}
    (hp : Regex.parse p = .ok r) (hset : PatternSet.compile [p] = .ok set) :
    set = ⟨[⟨p, .seq (.anchor .textStart) (.seq r (.anchor .textEnd))⟩]⟩ := by
  rw [compile_singleton] at hset
  cases hc : compileAnchored p with
  | error e =>
    rw [hc] at hset
    cases hset
  | ok r' =>
    rw [hc] at hset
    cases hset
    rw [parse_anchored hp (compileAnchored_eq_ok_iff.mp hc)]

/-- **A pattern matches the texts that it spans, and a list of patterns what one of them matches.**
Whatever stands in the pattern is read as it would be by itself. -/
theorem matches_iff_spans (value : String) :
    (∀ p r set, Regex.parse p = .ok r → PatternSet.compile [p] = .ok set →
      (set.matches_ value = true ↔ r.Leads value.toList.toArray 0 value.toList.length)) ∧
    ∀ ps set, PatternSet.compile ps = .ok set →
      (set.matches_ value = true ↔
        ∃ p ∈ ps, ∃ one, PatternSet.compile [p] = .ok one ∧ one.matches_ value = true) := by
  refine ⟨fun p r set hp hset => ?_, fun ps set hset => ?_⟩
  · rw [compile_singleton_eq_ok hp hset, ← found_between_anchors (counted_of_parse hp) value]
    simp [PatternSet.matches_]
  · exact matches_iff_exists (holds_of_compile hset) value

/-- A choice with flags of its own, on a text with a newline. -/
theorem matches_iff_spans_choice : ∃ r set,
    Regex.parse "(?i)x|^(b\x7b1,2\x7d(?s).)$" = .ok r ∧
    PatternSet.compile ["(?i)x|^(b\x7b1,2\x7d(?s).)$"] = .ok set ∧
    set.matches_ "Bb\n" = true ∧ r.Leads "Bb\n".toList.toArray 0 3 := by
  have hparse : (Regex.parse "(?i)x|^(b\x7b1,2\x7d(?s).)$").toOption.any
      (fun _ => decide True) = true := by
    decide +kernel
  have hcompile : (PatternSet.compile ["(?i)x|^(b\x7b1,2\x7d(?s).)$"]).toOption.any
      (fun set => decide (set.matches_ "Bb\n" = true)) = true := by
    decide +kernel
  obtain ⟨r, hr, -⟩ := exists_eq_ok_of_any hparse
  obtain ⟨set, hset, hmatch⟩ := exists_eq_ok_of_any hcompile
  exact ⟨r, set, hr, hset, hmatch, ((matches_iff_spans "Bb\n").1 _ r set hr hset).mp hmatch⟩

end DocAudit.Pattern
