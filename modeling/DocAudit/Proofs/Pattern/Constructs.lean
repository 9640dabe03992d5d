import DocAudit.Pattern.Set
import DocAudit.Proofs.Except
import DocAudit.Proofs.Text.Split
import Mathlib.Data.List.TakeDrop

/-!
# Constructs in front of the closing mark

A pattern is read in front of the closing mark `)$`.  Each construct of the pattern is then read as
it is without the mark, with one exception: an open quotation takes the mark in as well.

* `Extends`: one reading becomes another, with the closing mark left over as well;
* `readConstruct_append`: what the reader makes of the next construct;
* `readConstruct_openQuotation`: what it makes of an open quotation;
* `readClass_append`: in a class, only a hyphen that ends the text could reach into the mark, and
  then the class is open without it (`readClassItems_hyphen`).
-/

namespace DocAudit.Pattern

open DocAudit.Text

/-- What follows a pattern in its anchored text. -/
def closingMark : List Char := [')', '$']

variable {α β : Type}

/-- What is read in `x`, if something is, is read in `y`, where the closing mark is left over
behind all else. -/
structure Extends (x y : Parsed (α × List Char)) : Prop where
  eq_ok : ∀ {a rest}, x = .ok (a, rest) → y = .ok (a, rest ++ closingMark)

namespace Extends

variable {x x' y y' : Parsed (α × List Char)}

theorem ok (a : α) (rest : List Char) : Extends (.ok (a, rest)) (.ok (a, rest ++ closingMark)) := by
  refine ⟨fun h => ?_⟩
  cases h
  rfl

theorem error (e : ParseError) (y : Parsed (α × List Char)) : Extends (.error e) y := by
  refine ⟨fun h => ?_⟩
  cases h

theorem failAt (fault : ParseFault) (s t : List Char) (y : Parsed (α × List Char)) :
    Extends (Pattern.failAt fault s t) y := error _ y

theorem ite {p : Prop} [Decidable p] (hx : Extends x x') (hy : Extends y y') :
    Extends (if p then x else y) (if p then x' else y') := by
  split
  · exact hx
  · exact hy

theorem bind {f g : α × List Char → Parsed (β × List Char)} (hxy : Extends x y)
    (hfg : ∀ a rest, Extends (f (a, rest)) (g (a, rest ++ closingMark))) :
    Extends (x >>= f) (y >>= g) := by
  refine ⟨fun h => ?_⟩
  obtain ⟨⟨a, mid⟩, hx, hf⟩ := bind_eq_ok_iff.mp h
  exact bind_eq_ok_iff.mpr ⟨_, hxy.eq_ok hx, (hfg a mid).eq_ok hf⟩

end Extends

/-! ## 1. Escapes -/

theorem readHexBraces_append (zs : List Char) {v n c : Nat} {s rest : List Char}
    (h : readHexBraces v n s = .ok (c, rest)) :
    readHexBraces v n (s ++ zs) = .ok (c, rest ++ zs) := by
  fun_induction readHexBraces v n s with
  | case1 v n => cases h
  | case2 v n c t hc hn => cases h
  | case3 v n c t hc hn =>
    cases h
    simp [readHexBraces, hc, hn]
  | case4 v n c t hc hd => cases h
  | case5 v n c t hc d hd hbig => cases h
  | case6 v n c t hc d hd hbig ih => simp [readHexBraces, hc, hd, hbig, ih h]

theorem readOctal_append (left v : Nat) (s : List Char) :
    readOctal left v (s ++ closingMark) =
      ((readOctal left v s).1, (readOctal left v s).2 ++ closingMark) := by
  fun_induction readOctal left v s with
  | case1 v t => simp [readOctal]
  | case2 n v =>
    have hmark : octal? ')' = none := by decide
    simp [readOctal, closingMark, hmark]
  | case3 n v c t d hd ih => simp [readOctal, hd, ih]
  | case4 n v c t hd => simp [readOctal, hd]

theorem readEscape_append (s : List Char) :
    Extends (readEscape s) (readEscape (s ++ closingMark)) := by
  match s with
  | [] => exact .error _ _
  | [_] => exact .error _ _
  | b :: c :: t =>
    simp only [List.cons_append, readEscape]
    refine .ite ?_ (.ite ?_ (.ite ?_ ?_))
    · rw [readOctal_append]
      exact .ok _ _
    · cases t with
      | nil => exact .failAt _ _ _ _
      | cons d t =>
        simp only [List.cons_append, List.head?_cons]
        split
        · rw [← List.cons_append, readOctal_append]
          exact .ok _ _
        · exact .failAt _ _ _ _
    · split
      · exact .failAt _ _ _ _
      · rename_i t
        simp only [List.cons_append]
        split
        · rename_i r hr
          rw [readHexBraces_append closingMark hr]
          exact .ok _ _
        · exact .failAt _ _ _ _
      · rename_i h t hbrace
        cases t with
        | nil => exact .failAt _ _ _ _
        | cons l t =>
          simp only [List.cons_append]
          split
          · exact .ok _ _
          · exact .failAt _ _ _ _
    · repeat' first | exact .ok _ _ | exact .failAt _ _ _ _ | apply Extends.ite

theorem readProperty_append (s : List Char) :
    Extends (readProperty s) (readProperty (s ++ closingMark)) := by
  have hname : ∀ (negated : Bool) (shown shown' name rest : List Char),
      Extends ((namedProperty negated shown name).map (·, rest))
        ((namedProperty negated shown' name).map (·, rest ++ closingMark)) := by
    intro negated shown shown' name rest
    unfold namedProperty
    simp only
    cases propertySet? _ with
    | none => exact .error _ _
    | some set => exact .ok _ _
  unfold readProperty
  split
  · rename_i b p t
    simp only [List.cons_append]
    cases hcut : cutFirst ['}'] t with
    | none => exact .error _ _
    | some parts =>
      rw [cutFirst_append closingMark hcut]
      exact hname _ _ _ _ _
  · rename_i b p c t hbrace
    simp only [List.cons_append]
    exact hname _ _ _ _ _
  · exact .error _ _

/-! ## 2. Classes -/

theorem readClassChar_append (whole whole' s : List Char) :
    Extends (readClassChar whole s) (readClassChar whole' (s ++ closingMark)) := by
  unfold readClassChar
  split
  · exact .error _ _
  · exact readEscape_append _
  · rename_i c t hslash
    simp only [List.cons_append]
    exact .ok _ _

theorem readBracketSet_append {s : List Char} {found : Option (NamedSet × List Char)}
    (h : readBracketSet s = .ok found) :
    readBracketSet (s ++ closingMark) = .ok (found.map fun p => (p.1, p.2 ++ closingMark)) := by
  unfold readBracketSet at h
  split at h
  · rename_i t
    simp only [List.cons_append, readBracketSet]
    cases hcut : cutFirst [':', ']'] t with
    | none =>
      have hmark : ∀ c ∈ [':', ']'], c ∉ closingMark := by simp [closingMark]
      rw [hcut] at h
      rw [cutFirst_append_eq_none hmark (List.cons_ne_nil _ _) hcut]
      cases h
      rfl
    | some parts =>
      rw [hcut] at h
      rw [cutFirst_append closingMark hcut]
      simp only at h ⊢
      split at h
      · cases h
      · cases h
        rfl
  · rename_i hno
    cases h
    have hno' : ∀ t, s ++ closingMark ≠ '[' :: ':' :: t := by
      intro t heq
      match s with
      | [] => cases heq
      | [_] => cases heq
      | a :: b :: s =>
        cases heq
        exact hno s rfl
    unfold readBracketSet
    split
    · rename_i t heq
      exact absurd heq (hno' t)
    · rfl

/-- A character or a range is read as it is without the closing mark, unless a hyphen ends the
text, which could be the middle of a range. -/
theorem range_append (whole whole' : List Char) {s rest : List Char} {item : ClassItem}
    (hrest : rest ≠ ['-']) (h : readClassItem.range whole s = .ok (item, rest)) :
    readClassItem.range whole' (s ++ closingMark) = .ok (item, rest ++ closingMark) := by
  unfold readClassItem.range at h ⊢
  obtain ⟨⟨lo, t⟩, hlo, h⟩ := bind_eq_ok_iff.mp h
  refine bind_eq_ok_iff.mpr ⟨_, (readClassChar_append whole whole' s).eq_ok hlo, ?_⟩
  simp only at h ⊢
  split at h
  · rename_i d t
    simp only [List.cons_append]
    split at h
    · rename_i hd
      cases h
      simp [hd]
      rfl
    · rename_i hd
      simp only [hd]
      obtain ⟨⟨hi, t⟩, hhi, h⟩ := bind_eq_ok_iff.mp h
      refine bind_eq_ok_iff.mpr ⟨_, (readClassChar_append whole whole' _).eq_ok hhi, ?_⟩
      simp only at h ⊢
      split at h
      · cases h
      · rename_i hlt
        cases h
        rw [if_neg hlt]
        rfl
  · rename_i hno
    cases h
    split
    · rename_i d t heq
      match rest with
      | [] => cases heq
      | [_] =>
        cases heq
        exact absurd rfl hrest
      | a :: b :: rest =>
        cases heq
        exact absurd rfl (hno _ _)
    · rfl

theorem readClassItem_append (whole whole' : List Char) {s rest : List Char} {item : ClassItem}
    (hrest : rest ≠ ['-']) (h : readClassItem whole s = .ok (item, rest)) :
    readClassItem whole' (s ++ closingMark) = .ok (item, rest ++ closingMark) := by
  unfold readClassItem at h ⊢
  rw [bind_eq_ok_iff] at h ⊢
  obtain ⟨found, hset, h⟩ := h
  refine ⟨_, readBracketSet_append hset, ?_⟩
  cases found with
  | some p =>
    cases h
    rfl
  | none =>
    simp only [Option.map_none] at h ⊢
    split at h
    · rename_i c t
      simp only [List.cons_append]
      split at h
      · rename_i hp
        rw [if_pos hp]
        have hprop := (readProperty_append ('\\' :: c :: t)).bind
          (f := fun p => pure (ClassItem.named p.1, p.2))
          (g := fun p => pure (ClassItem.named p.1, p.2)) fun _ _ => .ok _ _
        exact hprop.eq_ok h
      · rename_i hp
        rw [if_neg hp]
        cases hl : letterSet? c with
        | some set =>
          rw [hl] at h
          cases h
          rfl
        | none =>
          rw [hl] at h
          exact range_append whole whole' hrest h
    · rename_i hno
      split
      · rename_i c t heq
        match s with
        | [] => cases heq
        | [_] =>
          cases heq
          cases h
        | _ :: _ :: _ =>
          cases heq
          exact absurd rfl (hno _ _)
      · exact range_append whole whole' hrest h

/-- A class that goes on with a hyphen at the end of the text is open. -/
theorem readClassItems_hyphen (whole : List Char) (items : List ClassItem)
    (r : List ClassItem × List Char) : readClassItems whole false items ['-'] ≠ .ok r := by
  have hitem : readClassItem whole ['-'] = .ok (.range '-'.toNat '-'.toNat, []) := rfl
  have hend : readClassItem whole [] = .error ⟨.missingBracket, String.ofList whole⟩ := rfl
  unfold readClassItems
  simp only [hitem]
  unfold readClassItems
  simp [hend]

theorem head?_append_closingMark (s : List Char) :
    ((s ++ closingMark).head? == some ']') = (s.head? == some ']') := by
  cases s <;> rfl

theorem readClassItems_append (whole whole' : List Char) {first : Bool}
    {items out : List ClassItem} {s rest : List Char}
    (h : readClassItems whole first items s = .ok (out, rest)) :
    readClassItems whole' first items (s ++ closingMark) = .ok (out, rest ++ closingMark) := by
  fun_induction readClassItems whole first items s with
  | case1 first items s hclose =>
    cases h
    cases s with
    | nil => simp at hclose
    | cons c s =>
      unfold readClassItems
      rw [head?_append_closingMark, if_pos hclose]
      rfl
  | case2 first items s hclose e he => cases h
  | case3 first items s hclose item t hitem hlt ih =>
    have hne : t ≠ ['-'] := by
      rintro rfl
      exact readClassItems_hyphen whole _ _ h
    have hlt' : (t ++ closingMark).length < (s ++ closingMark).length := by
      simpa using hlt
    unfold readClassItems
    rw [head?_append_closingMark, if_neg hclose, readClassItem_append whole whole' hne hitem]
    simp only [hlt', dite_true]
    exact ih h
  | case4 first items s hclose item t hitem hlt => cases h

theorem readClass_append (fold : Bool) (b : Char) (s : List Char) :
    Extends (readClass fold (b :: s)) (readClass fold (b :: s ++ closingMark)) := by
  have hitems : ∀ t : List Char, Extends (readClassItems (b :: s) true [] t)
      (readClassItems (b :: s ++ closingMark) true [] (t ++ closingMark)) := fun _ =>
    ⟨readClassItems_append _ _⟩
  unfold readClass
  simp only [List.cons_append, List.drop_succ_cons, List.drop_zero]
  match s with
  | [] => exact (hitems []).bind fun _ _ => .ok _ _
  | c :: t =>
    simp only [List.cons_append] at hitems ⊢
    by_cases hneg : c = '^'
    · subst hneg
      exact (hitems t).bind fun _ _ => .ok _ _
    · have hmark : ∀ t t' : List Char, c :: t ≠ '^' :: t' := by
        rintro t t' ⟨⟩
        exact hneg rfl
      split
      · rename_i heq
        exact absurd heq (hmark _ _)
      · split
        · rename_i heq
          exact absurd heq (hmark _ _)
        · exact (hitems (c :: t)).bind fun _ _ => .ok _ _

/-! ## 3. Groups -/

theorem readFlags_append (s s' : List Char) {flags : Flags} {minus sawFlag : Bool} {t : List Char} :
    Extends (readFlags s flags minus sawFlag t)
      (readFlags s' flags minus sawFlag (t ++ closingMark)) := by
  induction t generalizing flags minus sawFlag with
  | nil => exact .failAt _ _ _ _
  | cons c t ih =>
    simp only [List.cons_append, readFlags]
    exact .ite ih (.ite ih (.ite ih (.ite ih (.ite ih (.ite (.ok _ _) (.failAt _ _ _ _))))))

theorem readNamedGroup_append (flags : Flags) (skip : Nat) (s : List Char) :
    Extends (readNamedGroup flags skip s) (readNamedGroup flags skip (s ++ closingMark)) := by
  unfold readNamedGroup
  cases hcut : cutFirst ['>'] s with
  | none => exact .error _ _
  | some parts =>
    rw [cutFirst_append closingMark hcut]
    exact .ite (.ok _ _) (.failAt _ _ _ _)

/-- Flags do not start as the mark of a name does. -/
theorem nameMark?_append {s t : List Char} {flags : Flags} {r : Construct × List Char}
    (h : readFlags s flags false false t = .ok r) :
    nameMark? (t ++ closingMark) = none := by
  cases t with
  | nil => rfl
  | cons c t =>
    have hP : c ≠ 'P' := by
      rintro rfl
      cases h
    have hless : c ≠ '<' := by
      rintro rfl
      cases h
    unfold nameMark?
    split <;> simp_all

theorem nameMark?_append_of_some {t : List Char} {skip : Nat} (h : nameMark? t = some skip) :
    nameMark? (t ++ closingMark) = some skip := by
  unfold nameMark? at h ⊢
  split at h <;> simp_all

theorem readSpecialGroup_append (flags : Flags) (a b : Char) (t : List Char) :
    Extends (readSpecialGroup flags (a :: b :: t))
      (readSpecialGroup flags (a :: b :: t ++ closingMark)) := by
  unfold readSpecialGroup
  simp only [List.cons_append, List.drop_succ_cons, List.drop_zero]
  cases hname : nameMark? t with
  | some skip =>
    rw [nameMark?_append_of_some hname]
    exact readNamedGroup_append flags skip _
  | none =>
    refine ⟨fun h => ?_⟩
    rw [nameMark?_append h]
    exact (readFlags_append _ _).eq_ok h

/-! ## 4. Repetition -/

theorem span_append {p : Char → Bool} (hp : p ')' = false) (s : List Char) :
    (s ++ closingMark).span p = ((s.span p).1, (s.span p).2 ++ closingMark) := by
  simp only [List.span_eq_takeWhile_dropWhile]
  induction s with
  | nil => simp [closingMark, hp]
  | cons c s ih =>
    by_cases hc : p c = true
    · simpa [hc] using ih
    · simp [hc]

/-- A text still starts with a character, if the closing mark does not start with it. -/
theorem append_eq_cons {c : Char} {s t : List Char} (hc : c ≠ ')') (h : s ++ closingMark = c :: t) :
    ∃ t', s = c :: t' ∧ t = t' ++ closingMark := by
  cases s with
  | nil =>
    cases h
    exact absurd rfl hc
  | cons d s =>
    cases h
    exact ⟨s, rfl, rfl⟩

theorem readCount_append (s : List Char) :
    readCount (s ++ closingMark) = (readCount s).map fun r => (r.1, r.2 ++ closingMark) := by
  unfold readCount
  rw [span_append rfl]
  simp only
  split <;> rfl

theorem readCounts_append (s : List Char) :
    readCounts (s ++ closingMark) =
      (readCounts s).map fun r => (r.1, r.2.1, r.2.2.1, r.2.2.2 ++ closingMark) := by
  unfold readCounts
  rw [readCount_append]
  cases readCount s with
  | none => rfl
  | some r =>
    obtain ⟨min, t⟩ := r
    simp only [Option.map_some, Option.bind_eq_bind, Option.bind_some]
    split
    · rename_i rest heq
      obtain ⟨t', rfl, rfl⟩ := append_eq_cons (c := '}') (by decide) heq
      rfl
    · rename_i rest heq
      obtain ⟨t', rfl, htail⟩ := append_eq_cons (c := ',') (by decide) heq
      obtain ⟨t', rfl, rfl⟩ := append_eq_cons (c := '}') (by decide) htail.symm
      rfl
    · rename_i rest hno heq
      obtain ⟨t', rfl, rfl⟩ := append_eq_cons (c := ',') (by decide) heq
      rw [readCount_append]
      split
      · rename_i u hu
        cases hu
      · rename_i u hu
        cases hu
        exact absurd rfl (hno _)
      · rename_i u _ hu
        cases hu
        cases readCount t' with
        | none => rfl
        | some r =>
          obtain ⟨max, t⟩ := r
          simp only [Option.map_some, Option.bind_some]
          split
          · rename_i rest heq
            obtain ⟨t', rfl, rfl⟩ := append_eq_cons (c := '}') (by decide) heq
            rfl
          · rename_i hno
            split
            · exact absurd rfl (hno _)
            · rfl
      · rename_i hcomma
        exact absurd rfl (hcomma t')
    · rename_i hbrace hopen hcomma
      split
      · exact absurd rfl (hbrace _)
      · exact absurd rfl (hopen _)
      · exact absurd rfl (hcomma _)
      · rfl

theorem repetition_append (op : Regex → Regex) (after : List Char) :
    repetition op (after ++ closingMark) =
      ((repetition op after).1, (repetition op after).2 ++ closingMark) := by
  unfold repetition
  split
  · rename_i t heq
    obtain ⟨t, rfl, rfl⟩ := append_eq_cons (c := '?') (by decide) heq
    rfl
  · rename_i hno
    split
    · exact absurd rfl (hno _)
    · rfl

theorem readBraces_append (fold : Bool) (b : Char) (t : List Char) :
    Extends (readBraces fold (b :: t)) (readBraces fold (b :: t ++ closingMark)) := by
  unfold readBraces
  simp only [List.cons_append, List.drop_succ_cons, List.drop_zero, readCounts_append]
  split
  · rename_i h
    simp only [h]
    exact .ok _ _
  · rename_i min max open_ after h
    simp only [h, Option.map_some, repetition_append]
    exact .ite (.failAt _ _ _ _) (.ok _ _)
  · rename_i min after h
    simp only [h, Option.map_some, repetition_append]
    exact .ite (.failAt _ _ _ _) (.ok _ _)
  · exact .failAt _ _ _ _

/-! ## 5. The reader -/

/-- The text starts with a quotation that it does not end. -/
def OpenQuotation (t : List Char) : Prop :=
  ∃ q, t = '\\' :: 'Q' :: q ∧ cutFirst ['\\', 'E'] q = none

theorem readQuotation_append (fold : Bool) {t : List Char}
    (hopen : ¬ OpenQuotation ('\\' :: 'Q' :: t)) :
    readQuotation fold (t ++ closingMark) =
      ((readQuotation fold t).1, (readQuotation fold t).2 ++ closingMark) := by
  unfold readQuotation
  cases hcut : cutFirst ['\\', 'E'] t with
  | some parts =>
    rw [cutFirst_append closingMark hcut]
    rfl
  | none => exact absurd ⟨t, rfl, hcut⟩ hopen

theorem readBackslash_append (fold : Bool) {t : List Char} (hopen : ¬ OpenQuotation ('\\' :: t)) :
    Extends (readBackslash fold ('\\' :: t)) (readBackslash fold ('\\' :: t ++ closingMark)) := by
  cases t with
  | nil => exact .error _ _
  | cons c t =>
    have hproperty := (readProperty_append ('\\' :: c :: t)).bind
      (f := fun p => .ok (Construct.pieces [.cls ⟨false, fold, [.named p.1]⟩], p.2))
      (g := fun p => .ok (Construct.pieces [.cls ⟨false, fold, [.named p.1]⟩], p.2))
      fun _ _ => .ok _ _
    have hescape := (readEscape_append ('\\' :: c :: t)).bind
      (f := fun p => .ok (Construct.pieces [.char p.1 fold], p.2))
      (g := fun p => .ok (Construct.pieces [.char p.1 fold], p.2)) fun _ _ => .ok _ _
    have hquotation : c = 'Q' → Extends (.ok (readQuotation fold t))
        (.ok (readQuotation fold (t ++ closingMark))) := by
      rintro rfl
      rw [readQuotation_append fold hopen]
      exact .ok _ _
    simp only [List.cons_append, readBackslash]
    refine .ite (.ok _ _) (.ite (.ok _ _) (.ite (.ok _ _) (.ite (.failAt _ _ _ _)
      (.ite (.ok _ _) ?_))))
    by_cases hQ : c = 'Q'
    · rw [if_pos (beq_iff_eq.mpr hQ), if_pos (beq_iff_eq.mpr hQ)]
      exact hquotation hQ
    · rw [if_neg (mt beq_iff_eq.mp hQ), if_neg (mt beq_iff_eq.mp hQ)]
      refine .ite hproperty ?_
      split
      · exact .ok _ _
      · exact hescape

/-- The characters that do not stand for themselves. -/
def isSpecial (c : Char) : Bool :=
  ['(', '|', ')', '^', '$', '.', '[', '*', '+', '?', '{', '\\'].contains c

theorem readConstruct_plain {c : Char} (hc : isSpecial c = false) (flags : Flags) (t : List Char) :
    readConstruct flags (c :: t) = .ok (.pieces [.char c.toNat flags.fold], t) := by
  unfold readConstruct
  split
  case h_15 heq =>
    cases heq
    rfl
  all_goals
    rename_i heq
    cases heq <;> cases hc

theorem readConstruct_opening {d : Char} (hd : d ≠ '?') (flags : Flags) (t : List Char) :
    readConstruct flags ('(' :: d :: t) = .ok (.opening true flags, d :: t) := by
  unfold readConstruct
  simp [hd]

/-- **A construct is read in front of the closing mark as it is without it**, unless it is an open
quotation. -/
theorem readConstruct_append (flags : Flags) {c : Char} {t : List Char}
    (hopen : ¬ OpenQuotation (c :: t)) :
    Extends (readConstruct flags (c :: t)) (readConstruct flags (c :: t ++ closingMark)) := by
  cases hc : isSpecial c with
  | false =>
    rw [List.cons_append, readConstruct_plain hc, readConstruct_plain hc]
    exact .ok _ _
  | true =>
    have hrepetition : ∀ op,
        Extends (.ok (repetition op t)) (.ok (repetition op (t ++ closingMark))) := by
      intro op
      rw [repetition_append]
      exact .ok _ _
    have hclass := (readClass_append flags.fold '[' t).bind
      (f := fun p => .ok (Construct.pieces [.cls p.1], p.2))
      (g := fun p => .ok (Construct.pieces [.cls p.1], p.2)) fun _ _ => .ok _ _
    simp only [isSpecial, List.contains_eq_mem, List.mem_cons, List.not_mem_nil, or_false,
      decide_eq_true_eq] at hc
    obtain rfl | rfl | rfl | rfl | rfl | rfl | rfl | rfl | rfl | rfl | rfl | rfl := hc
    · match t with
      | [] => exact .ok _ _
      | d :: t =>
        by_cases hd : d = '?'
        · subst hd
          exact readSpecialGroup_append flags '(' '?' t
        · rw [List.cons_append, List.cons_append, readConstruct_opening hd,
            readConstruct_opening hd, ← List.cons_append]
          exact .ok _ _
    · exact .ok _ _
    · exact .ok _ _
    · exact .ok _ _
    · exact .ok _ _
    · exact .ok _ _
    · exact hclass
    · exact hrepetition .star
    · exact hrepetition .plus
    · exact hrepetition .opt
    · exact readBraces_append flags.fold '{' t
    · exact readBackslash_append flags.fold hopen

/-- An open quotation goes on to the end of the text, and takes the closing mark in. -/
theorem readConstruct_openQuotation (flags : Flags) {t : List Char} (hopen : OpenQuotation t) :
    (∃ rs, readConstruct flags t = .ok (.pieces rs, [])) ∧
      ∃ rs, readConstruct flags (t ++ closingMark) = .ok (.pieces rs, []) := by
  obtain ⟨q, rfl, hcut⟩ := hopen
  have hread : ∀ {q : List Char}, cutFirst ['\\', 'E'] q = none →
      ∃ rs, readConstruct flags ('\\' :: 'Q' :: q) = .ok (.pieces rs, []) := by
    intro q hq
    have hquotation : readConstruct flags ('\\' :: 'Q' :: q) =
        .ok (readQuotation flags.fold q) := rfl
    rw [hquotation, readQuotation, hq]
    exact ⟨_, rfl⟩
  have hmark : ∀ c ∈ ['\\', 'E'], c ∉ closingMark := by simp [closingMark]
  exact ⟨hread hcut, hread (cutFirst_append_eq_none hmark (List.cons_ne_nil _ _) hcut)⟩

end DocAudit.Pattern
