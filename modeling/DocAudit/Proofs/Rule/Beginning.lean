import DocAudit.Proofs.Rule.Articles
import DocAudit.Proofs.Text.Blank

/-!
# The beginning of a doc comment

A doc comment is cut into words, and the first word compared with the name.  That comes to reading
the comment from its first character that is no white space on: the name stands there, and ends
there.

* `head?_words_eq_some_iff`: the first word is what the text begins with behind its white space;
* `isNameChar_of_isBlank`: the white space behind the first word ends a name as well;
* `startsWithName_iff_dropWhile`: whether a doc text begins with a name, without its words.
-/

namespace DocAudit.Rule.DocNamePrefix

open DocAudit.Text

/-- **The first word** is what the text begins with behind its white space, as far as the next
white space. -/
theorem head?_words_eq_some_iff {cs word : List Char} : (words cs).head? = some word ↔
    ∃ rest, cs.dropWhile isBlank = word ++ rest ∧ word ≠ [] ∧ (∀ c ∈ word, isBlank c = false) ∧
      ∀ c ∈ rest.head?, isBlank c = true := by
  rw [words, head?_wordsBy_eq_some_iff]
  constructor
  · rintro ⟨seps, rest, rfl, hseps, hne, hword, hrest⟩
    refine ⟨rest, ?_, hne, hword, hrest⟩
    rw [List.dropWhile_append_of_pos hseps]
    cases word with
    | nil => exact absurd rfl hne
    | cons c word =>
      have hc : ¬ isBlank c = true := by simp [hword c List.mem_cons_self]
      rw [List.cons_append, List.dropWhile_cons_of_neg hc]
  · rintro ⟨rest, hdrop, hne, hword, hrest⟩
    refine ⟨cs.takeWhile isBlank, rest, ?_, fun c => List.mem_takeWhile_imp, hne, hword, hrest⟩
    rw [← hdrop, List.takeWhile_append_dropWhile]

theorem isNameChar_eq_false_iff {c : Char} :
    isNameChar c = false ↔ isLetter c = false ∧ isDecimalDigit c = false ∧ c ≠ '_' := by
  rw [isNameChar, Bool.or_eq_false_iff, Bool.or_eq_false_iff, beq_eq_false_iff_ne, and_assoc]

/-- **White space ends a name.** -/
theorem isNameChar_of_isBlank {c : Char} (hc : isBlank c = true) : isNameChar c = false := by
  refine isNameChar_eq_false_iff.mpr ⟨isLetter_of_isBlank hc, isDecimalDigit_of_isBlank hc, ?_⟩
  rintro rfl
  revert hc
  decide

/-- Without articles it is the first word that is compared with the name. -/
theorem startsWithName_iff_head? {doc name : String} : startsWithName doc name false = true ↔
    ∃ word, (words doc.toList).head? = some word ∧ isNameWord name.toList word = true := by
  unfold startsWithName
  rcases words doc.toList with _ | ⟨w, _ | ⟨v, ws⟩⟩ <;> simp [fromName]

/-- **A doc text begins with a name** if the name stands behind the white space at the start, and
the character after it is no letter, no digit and no underscore. -/
theorem startsWithName_iff_dropWhile {doc name : String} (hne : name ≠ "")
    (hname : ∀ c ∈ name.toList, isBlank c = false) :
    startsWithName doc name false = true ↔
      ∃ rest, doc.toList.dropWhile isBlank = name.toList ++ rest ∧
        ∀ c ∈ rest.head?, isLetter c = false ∧ isDecimalDigit c = false ∧ c ≠ '_' := by
  simp only [startsWithName_iff_head?, head?_words_eq_some_iff, isNameWord_iff,
    ← isNameChar_eq_false_iff]
  constructor
  · rintro ⟨-, ⟨rest, hdrop, -, -, hrest⟩, tail, rfl, htail⟩
    refine ⟨tail ++ rest, by rw [hdrop, List.append_assoc], ?_⟩
    -- What follows the name is in its word, or it is the white space after the word.
    cases tail with
    | nil => exact fun c hc => isNameChar_of_isBlank (hrest c hc)
    | cons d tail => exact htail
  · rintro ⟨rest, hdrop, hend⟩
    -- The word goes on to the next white space.
    obtain ⟨tail, after, rfl, htail, hafter⟩ := exists_append_word (p := isBlank) rest
    have hword : name.toList ++ tail ≠ [] := by
      simpa only [ne_eq, List.append_eq_nil_iff, String.toList_eq_nil_iff, not_and_or] using
        Or.inl hne
    refine ⟨name.toList ++ tail, ⟨after, by rw [hdrop, List.append_assoc], hword, ?_, hafter⟩,
      tail, rfl, ?_⟩
    · exact List.forall_mem_append.mpr ⟨hname, htail⟩
    · cases tail with
      | nil => exact nofun
      | cons d tail => exact hend

/-- White space of many bytes before and behind a name, and the plural of the name. -/
theorem startsWithName_iff_dropWhile_ideographic :
    "Größe" ≠ "" ∧ (∀ c ∈ "Größe".toList, isBlank c = false) ∧
      startsWithName "\u00a0\u3000Größe\u3000counted.\n" "Größe" false = true ∧
      startsWithName "\u00a0\u3000Größen counted.\n" "Größe" false = false := by
  have hne : "Größe" ≠ "" := by decide
  have hletters : "Größe".toList.all (fun c => !isBlank c) = true := by decide +kernel
  have hname : ∀ c ∈ "Größe".toList, isBlank c = false := by simpa using hletters
  refine ⟨hne, hname, ?_, ?_⟩
  · refine (startsWithName_iff_dropWhile hne hname).mpr ⟨"\u3000counted.\n".toList, ?_, ?_⟩
    · decide +kernel
    · have hhead : "\u3000counted.\n".toList.head? = some '\u3000' := by decide +kernel
      rw [hhead]
      rintro _ ⟨⟩
      exact isNameChar_eq_false_iff.mp (isNameChar_of_isBlank (by decide))
  · rw [← Bool.not_eq_true, startsWithName_iff_dropWhile hne hname]
    rintro ⟨rest, hdrop, hend⟩
    have hdoc : "\u00a0\u3000Größen counted.\n".toList.dropWhile isBlank =
        "Größe".toList ++ "n counted.\n".toList := by decide +kernel
    obtain rfl := List.append_cancel_left (hdoc.symm.trans hdrop)
    have hnext : 'n' ∈ "n counted.\n".toList.head? ∧ isLetter 'n' = true := by decide +kernel
    rw [(hend 'n' hnext.1).1] at hnext
    cases hnext.2

end DocAudit.Rule.DocNamePrefix
