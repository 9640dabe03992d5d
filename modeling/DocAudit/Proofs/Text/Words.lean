import DocAudit.Proofs.Text.Split
import DocAudit.Text.Blank

/-!
# The words of a text

Words are what stands between separators.

* `wordsBy_append_cons`: a separator ends the words before it and starts those after it;
* `head?_wordsBy_eq_some_iff`: the first word is what stands between the separators at the start and
  the next separator;
* `words_join`: lines have the same words apart as joined.
-/

namespace DocAudit.Text

/-! ## 1. Between separators -/

section WordsBy

variable {α : Type} {p : α → Bool} {w rest : List α}

@[simp] theorem wordsBy_nil : wordsBy p [] = [] := rfl

/-- **A separator ends the words before it and starts those after it.** -/
theorem wordsBy_append_cons {c : α} (hc : p c = true) (a b : List α) :
    wordsBy p (a ++ c :: b) = wordsBy p a ++ wordsBy p b := by
  rw [wordsBy, splitBy_append_cons hc, List.filter_append]
  rfl

theorem wordsBy_cons_sep {c : α} (hc : p c = true) (cs : List α) :
    wordsBy p (c :: cs) = wordsBy p cs :=
  wordsBy_append_cons hc [] cs

/-- Separators at the start do not count. -/
theorem wordsBy_append_left : ∀ {seps : List α}, (∀ c ∈ seps, p c = true) → ∀ cs : List α,
    wordsBy p (seps ++ cs) = wordsBy p cs
  | [], _, _ => rfl
  | _ :: _, h, cs => by
      rw [List.cons_append, wordsBy_cons_sep (h _ List.mem_cons_self)]
      exact wordsBy_append_left (fun x hx => h x (List.mem_cons_of_mem _ hx)) cs

/-- Separators at the end do not count. -/
theorem wordsBy_append_right {seps : List α} (h : ∀ c ∈ seps, p c = true) (cs : List α) :
    wordsBy p (cs ++ seps) = wordsBy p cs := by
  cases seps with
  | nil => rw [List.append_nil]
  | cons c seps =>
    have hseps := wordsBy_append_left (fun x hx => h x (List.mem_cons_of_mem c hx)) []
    rw [List.append_nil] at hseps
    rw [wordsBy_append_cons (h c List.mem_cons_self), hseps, wordsBy_nil, List.append_nil]

theorem wordsBy_of_forall_not (hne : w ≠ []) (h : ∀ c ∈ w, p c = false) :
    wordsBy p w = [w] := by
  rw [wordsBy, splitBy_of_forall_not h]
  simpa using hne

/-- What stands before the first separator is the first word. -/
theorem wordsBy_append_of_word (hne : w ≠ []) (h : ∀ c ∈ w, p c = false)
    (hrest : ∀ c ∈ rest.head?, p c = true) : wordsBy p (w ++ rest) = w :: wordsBy p rest := by
  cases rest with
  | nil => rw [List.append_nil, wordsBy_of_forall_not hne h, wordsBy_nil]
  | cons c rest =>
    have hc : p c = true := hrest c rfl
    rw [wordsBy_append_cons hc, wordsBy_of_forall_not hne h, wordsBy_cons_sep hc]
    rfl

/-- **The first word** is what stands between the separators at the start and the next one. -/
theorem head?_wordsBy_eq_some_iff {cs : List α} :
    (wordsBy p cs).head? = some w ↔ ∃ seps rest, cs = seps ++ (w ++ rest) ∧
      (∀ c ∈ seps, p c = true) ∧ w ≠ [] ∧ (∀ c ∈ w, p c = false) ∧
      ∀ c ∈ rest.head?, p c = true := by
  constructor
  · intro h
    induction cs with
    | nil => cases h
    | cons c cs ih =>
      cases hc : p c with
      | true =>
        rw [wordsBy_cons_sep hc] at h
        obtain ⟨seps, rest, rfl, hseps, hword⟩ := ih h
        exact ⟨c :: seps, rest, rfl, List.forall_mem_cons.mpr ⟨hc, hseps⟩, hword⟩
      | false =>
        obtain ⟨v, rest, hcs, hword, hrest⟩ := exists_append_word (p := p) (c :: cs)
        have hne : v ≠ [] := by
          rintro rfl
          rw [List.nil_append] at hcs
          subst hcs
          rw [hrest c rfl] at hc
          cases hc
        rw [hcs, wordsBy_append_of_word hne hword hrest, List.head?_cons, Option.some.injEq] at h
        subst h
        exact ⟨[], rest, hcs, by simp, hne, hword, hrest⟩
  · rintro ⟨seps, rest, rfl, hseps, hne, hword, hrest⟩
    rw [wordsBy_append_left hseps, wordsBy_append_of_word hne hword hrest, List.head?_cons]

end WordsBy

/-! ## 2. Lines -/

/-- Blanks at the end of a line do not count. -/
theorem words_dropEndWhile {p : Char → Bool} (hp : ∀ c, p c = true → isBlank c = true)
    (cs : List Char) : words (dropEndWhile p cs) = words cs := by
  have hcs : cs = dropEndWhile p cs ++ (cs.reverse.takeWhile p).reverse := by
    rw [dropEndWhile, ← List.reverse_append, List.takeWhile_append_dropWhile, List.reverse_reverse]
  have hend : ∀ c ∈ (cs.reverse.takeWhile p).reverse, isBlank c = true := fun c hc =>
    hp c (List.mem_takeWhile_imp (List.mem_reverse.mp hc))
  conv_rhs => rw [hcs]
  exact (wordsBy_append_right hend _).symm

/-- Blanks at the two ends of a text do not count. -/
theorem words_trimBy (cs : List Char) : words (trimBy isBlank cs) = words cs := by
  rw [trimBy, words_dropEndWhile fun _ => id]
  conv_rhs => rw [← List.takeWhile_append_dropWhile (p := isBlank) (l := cs)]
  exact (wordsBy_append_left (fun c => List.mem_takeWhile_imp) _).symm

/-- A text of blanks has no words. -/
theorem words_eq_nil_of_trim {s : String} (h : trim s = "") : words s.toList = [] := by
  have hnil : trimBy isBlank s.toList = [] := by
    rw [← String.toList_ofList (l := trimBy isBlank s.toList)]
    exact congrArg String.toList h
  rw [← words_trimBy, hnil]
  rfl

/-- **Lines have the same words apart as joined.** -/
theorem words_join : ∀ lines : List (List Char),
    words (join "\n" (lines.map String.ofList)).toList = lines.flatMap words
  | [] => rfl
  | [l] => by simp [join]
  | l :: m :: lines => by
      have hjoin : (join "\n" ((l :: m :: lines).map String.ofList)).toList =
          l ++ '\n' :: (join "\n" ((m :: lines).map String.ofList)).toList := by
        simp [join]
      rw [hjoin, words, wordsBy_append_cons (by decide), List.flatMap_cons,
        ← words_join (m :: lines)]
      rfl

end DocAudit.Text
