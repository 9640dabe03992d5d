import DocAudit.Proofs.Pattern.Constructs

/-!
# Constructs without the closing mark

What is read in front of the closing mark `)$` is read without it as well, unless the bracket of the
mark is taken in: an escape at the end of a pattern takes it as its character, a range of a class as
its end, and a group of flags as its closing bracket.

* `Reflects`: one reading says what another one can be;
* `readConstruct_reflects`: a construct that takes the bracket in does not close a group with it;
* `readClassItems_reflects`: in a class that takes the bracket in, the class stays open.
-/

namespace DocAudit.Pattern

open DocAudit.Text

variable {α β : Type}

/-- What is read in `y` is read in `x` as well, where the closing mark is left over behind all else;
or it has the property `P`, and the bracket of the mark is taken in. -/
structure Reflects (P : α → Prop) (x y : Parsed (α × List Char)) : Prop where
  of_ok : ∀ {a rest}, y = .ok (a, rest) →
    (P a ∧ rest <:+ ['$']) ∨ ∃ t, x = .ok (a, t) ∧ rest = t ++ closingMark

namespace Reflects

variable {P : α → Prop} {Q : β → Prop} {x x' y y' : Parsed (α × List Char)}

theorem ok (a : α) (t : List Char) : Reflects P (.ok (a, t)) (.ok (a, t ++ closingMark)) := by
  refine ⟨fun h => ?_⟩
  cases h
  exact .inr ⟨t, rfl, rfl⟩

theorem error (x : Parsed (α × List Char)) (e : ParseError) : Reflects P x (.error e) := by
  refine ⟨fun h => ?_⟩
  cases h

theorem failAt (x : Parsed (α × List Char)) (fault : ParseFault) (s t : List Char) :
    Reflects P x (Pattern.failAt fault s t) := error x _

theorem takenIn (x : Parsed (α × List Char)) {a : α} {rest : List Char} (ha : P a)
    (hrest : rest <:+ ['$']) : Reflects P x (.ok (a, rest)) := by
  refine ⟨fun h => ?_⟩
  cases h
  exact .inl ⟨ha, hrest⟩

theorem ite {p : Prop} [Decidable p] (hx : Reflects P x x') (hy : Reflects P y y') :
    Reflects P (if p then x else y) (if p then x' else y') := by
  split
  · exact hx
  · exact hy

theorem bind {f g : α × List Char → Parsed (β × List Char)} (hxy : Reflects P x y)
    (hfg : ∀ a t, Reflects Q (f (a, t)) (g (a, t ++ closingMark)))
    (hg : ∀ {a rest b rest'}, P a → rest <:+ ['$'] → g (a, rest) = .ok (b, rest') →
      Q b ∧ rest' <:+ ['$']) :
    Reflects Q (x >>= f) (y >>= g) := by
  refine ⟨fun h => ?_⟩
  obtain ⟨⟨a, mid⟩, hy, hga⟩ := bind_eq_ok_iff.mp h
  rcases hxy.of_ok hy with ⟨ha, hmid⟩ | ⟨t, hx, rfl⟩
  · exact .inl (hg ha hmid hga)
  · refine ((hfg a t).of_ok hga).imp_right ?_
    rintro ⟨t', hf, rfl⟩
    exact ⟨t', bind_eq_ok_iff.mpr ⟨_, hx, hf⟩, rfl⟩

/-- What is made of the value that has been read. -/
theorem map (F : α → β) (hF : ∀ a, Q (F a)) (hxy : Reflects P x y) :
    Reflects Q (x >>= fun p => .ok (F p.1, p.2)) (y >>= fun p => .ok (F p.1, p.2)) := by
  refine hxy.bind (fun a t => .ok _ _) ?_
  intro a rest b rest' _ hrest h
  cases h
  exact ⟨hF a, hrest⟩

end Reflects

theorem eq_of_suffix_dollar {rest : List Char} (h : rest <:+ ['$']) : rest = ['$'] ∨ rest = [] := by
  rcases List.suffix_cons_iff.mp h with h | h
  · exact .inl h
  · exact .inr (List.suffix_nil.mp h)

/-- Any value that is read. -/
abbrev Anything : α → Prop := fun _ => True

/-! ## 1. Escapes -/

theorem readHexBraces_reflects {v n c : Nat} {s rest : List Char}
    (h : readHexBraces v n (s ++ closingMark) = .ok (c, rest)) :
    ∃ t, readHexBraces v n s = .ok (c, t) ∧ rest = t ++ closingMark := by
  fun_induction readHexBraces v n s with
  | case1 v n => cases h
  | case2 v n c' t hc hn => simp [readHexBraces, hc, hn] at h
  | case3 v n c' t hc hn =>
    simp only [List.cons_append, readHexBraces, hc, hn] at h
    cases h
    exact ⟨t, rfl, rfl⟩
  | case4 v n c' t hc hd => simp [readHexBraces, hc, hd] at h
  | case5 v n c' t hc d hd hbig => simp [readHexBraces, hc, hd, hbig] at h
  | case6 v n c' t hc d hd hbig ih =>
    simp only [List.cons_append, readHexBraces, hc, hd, hbig] at h
    exact ih h

theorem readEscape_reflects (b : Char) (s : List Char) :
    Reflects Anything (readEscape (b :: s)) (readEscape (b :: s ++ closingMark)) := by
  match s with
  | [] => exact .takenIn _ trivial (List.suffix_refl _)
  | c :: t =>
    simp only [List.cons_append, readEscape]
    refine .ite ?_ (.ite ?_ (.ite ?_ ?_))
    · rw [readOctal_append]
      exact .ok _ _
    · cases t with
      | nil => exact .failAt _ _ _ _
      | cons d t =>
        simp only [List.cons_append, List.head?_cons]
        split
        · rw [← List.cons_append, readOctal_append]
          exact .ok _ _
        · exact .failAt _ _ _ _
    · split
      · exact .failAt _ _ _ _
      · rename_i t
        simp only [List.cons_append]
        cases hbraces : readHexBraces 0 0 (t ++ closingMark) with
        | error rest => exact .failAt _ _ _ _
        | ok r =>
          obtain ⟨t', hx, hrest⟩ := readHexBraces_reflects hbraces
          rw [hx, ← Prod.eta r, hrest]
          exact .ok _ _
      · rename_i h t hbrace
        cases t with
        | nil =>
          have hmark : hexDigit? ')' = none := by decide
          simp only [List.cons_append, closingMark, List.nil_append, hmark]
          cases hexDigit? h <;> exact .failAt _ _ _ _
        | cons l t =>
          simp only [List.cons_append]
          split
          · exact .ok _ _
          · exact .failAt _ _ _ _
    · repeat' first | exact .ok _ _ | exact .failAt _ _ _ _ | apply Reflects.ite

theorem readProperty_reflects (b p : Char) (s : List Char) :
    Reflects Anything (readProperty (b :: p :: s)) (readProperty (b :: p :: s ++ closingMark)) := by
  have hname : ∀ (negated : Bool) (shown shown' name rest : List Char),
      Reflects Anything ((namedProperty negated shown name).map (·, rest))
        ((namedProperty negated shown' name).map (·, rest ++ closingMark)) := by
    intro negated shown shown' name rest
    unfold namedProperty
    simp only
    cases propertySet? _ with
    | none => exact .error _ _
    | some set => exact .ok _ _
  match s with
  | [] =>
    show Reflects Anything _ ((namedProperty (p == 'P') [b, p, ')'] [')']).map (·, ['$']))
    cases namedProperty (p == 'P') [b, p, ')'] [')'] with
    | error e => exact .error _ _
    | ok set => exact .takenIn _ trivial (List.suffix_refl _)
  | c :: t =>
    by_cases hc : c = '{'
    · subst hc
      simp only [List.cons_append, readProperty]
      cases hcut : cutFirst ['}'] t with
      | none =>
        have hmark : ∀ c ∈ ['}'], c ∉ closingMark := by simp [closingMark]
        rw [cutFirst_append_eq_none hmark (List.cons_ne_nil _ _) hcut]
        exact .error _ _
      | some parts =>
        rw [cutFirst_append closingMark hcut]
        exact hname _ _ _ _ _
    · simp only [List.cons_append, readProperty]
      exact hname _ _ _ _ _

/-! ## 2. Classes -/

theorem readClassChar_reflects (whole whole' s : List Char) :
    Reflects Anything (readClassChar whole s) (readClassChar whole' (s ++ closingMark)) := by
  unfold readClassChar
  split
  · exact .takenIn _ trivial (List.suffix_refl _)
  · exact readEscape_reflects _ _
  · rename_i c t hslash
    simp only [List.cons_append]
    exact .ok _ _

theorem readBracketSet_reflects {s : List Char} {found : Option (NamedSet × List Char)}
    (h : readBracketSet (s ++ closingMark) = .ok found) :
    ∃ found', readBracketSet s = .ok found' ∧
      found = found'.map fun p => (p.1, p.2 ++ closingMark) := by
  cases hs : readBracketSet s with
  | ok found' =>
    rw [readBracketSet_append hs] at h
    cases h
    exact ⟨found', rfl, rfl⟩
  | error e =>
    -- Only an unknown class between the brackets is refused, and it is the same class there.
    exfalso
    unfold readBracketSet at hs
    split at hs
    · rename_i t
      cases hcut : cutFirst [':', ']'] t with
      | none =>
        rw [hcut] at hs
        cases hs
      | some parts =>
        rw [hcut] at hs
        simp only [List.cons_append, readBracketSet, cutFirst_append closingMark hcut] at h hs
        split at hs
        · rename_i hnone
          rw [hnone] at h
          cases h
        · cases hs
    · cases hs

/-- The end of a range, from its hyphen on. -/
theorem rangeEnd_reflects (whole whole' s s' t : List Char) (lo : Nat) :
    Reflects Anything
      (readClassChar whole t >>= fun p =>
        if p.1 < lo then failAt .invalidRange s p.2 else pure (ClassItem.range lo p.1, p.2))
      (readClassChar whole' (t ++ closingMark) >>= fun p =>
        if p.1 < lo then failAt .invalidRange s' p.2 else pure (ClassItem.range lo p.1, p.2)) := by
  refine (readClassChar_reflects whole whole' t).bind
    (fun hi t => .ite (.failAt _ _ _ _) (.ok _ _)) ?_
  intro hi rest item rest' _ hrest h
  dsimp only at h
  split at h
  · cases h
  · cases h
    exact ⟨trivial, hrest⟩

/-- A range that ends the text with its hyphen takes the bracket in as its end. -/
theorem range_reflects (whole whole' s : List Char) :
    Reflects Anything (readClassItem.range whole s)
      (readClassItem.range whole' (s ++ closingMark)) := by
  unfold readClassItem.range
  refine (readClassChar_reflects whole whole' s).bind (fun lo t => ?_) ?_
  · dsimp only
    split
    · rename_i d t
      exact .ite (.ok _ _) (rangeEnd_reflects whole whole' _ _ (d :: t) lo)
    · rename_i hno
      split
      · rename_i d t' heq
        match t with
        | [] => cases heq
        | [_] =>
          cases heq
          refine ⟨fun h => .inl ?_⟩
          rcases (rangeEnd_reflects whole whole' s _ [] lo).of_ok h with hin | ⟨_, hx, -⟩
          · exact hin
          · cases hx
        | _ :: _ :: _ =>
          cases heq
          exact absurd rfl (hno _ _)
      · exact .ok _ _
  · intro lo rest item rest' _ hrest h
    rcases eq_of_suffix_dollar hrest with rfl | rfl <;> cases h <;> exact ⟨trivial, hrest⟩

/-- An item that starts with a backslash and another character. -/
theorem readClassItem_escape (whole : List Char) (c : Char) (t : List Char) :
    readClassItem whole ('\\' :: c :: t) =
      if c == 'p' || c == 'P' then
        readProperty ('\\' :: c :: t) >>= fun p => .ok (.named p.1, p.2)
      else match letterSet? c with
        | some set => .ok (.named set, t)
        | none => readClassItem.range whole ('\\' :: c :: t) := rfl

/-- An item that is a character or a range. -/
theorem readClassItem_range (whole : List Char) {s : List Char}
    (hset : readBracketSet s = .ok none) (hs : ∀ c t, s ≠ '\\' :: c :: t) :
    readClassItem whole s = readClassItem.range whole s := by
  unfold readClassItem
  rw [hset]
  dsimp only [bind, Except.bind]
  split
  · exact absurd rfl (hs _ _)
  · rfl

theorem readClassItem_reflects (whole whole' s : List Char) :
    Reflects Anything (readClassItem whole s) (readClassItem whole' (s ++ closingMark)) := by
  cases hset : readBracketSet s with
  | error e =>
    refine ⟨fun h => ?_⟩
    obtain ⟨found, hset', -⟩ := bind_eq_ok_iff.mp h
    obtain ⟨found', hfound, -⟩ := readBracketSet_reflects hset'
    rw [hset] at hfound
    cases hfound
  | ok found =>
    have hset' := readBracketSet_append hset
    cases found with
    | some p =>
      unfold readClassItem
      rw [hset, hset']
      exact .ok _ _
    | none =>
      match s with
      | [] => exact range_reflects whole whole' []
      | [c] =>
        by_cases hc : c = '\\'
        · subst hc
          exact range_reflects whole whole' ['\\']
        · rw [readClassItem_range whole hset (by simp),
            readClassItem_range whole' hset' (by simp [hc])]
          exact range_reflects whole whole' [c]
      | c :: d :: t =>
        by_cases hc : c = '\\'
        · subst hc
          simp only [List.cons_append, readClassItem_escape]
          refine .ite ?_ ?_
          · exact (readProperty_reflects '\\' d t).map ClassItem.named fun _ => trivial
          · split
            · exact .ok _ _
            · exact range_reflects whole whole' _
        · rw [readClassItem_range whole hset (by simp [hc]),
            readClassItem_range whole' hset' (by simp [hc])]
          exact range_reflects whole whole' _

/-- A class that has taken the bracket in is open. -/
theorem readClassItems_suffix (whole : List Char) (items : List ClassItem) {s : List Char}
    (hs : s <:+ ['$']) (r : List ClassItem × List Char) :
    readClassItems whole false items s ≠ .ok r := by
  have hitem : readClassItem whole ['$'] = .ok (.range '$'.toNat '$'.toNat, []) := rfl
  have hend : ∀ items, readClassItems whole false items [] =
      .error ⟨.missingBracket, String.ofList whole⟩ := by
    intro items
    unfold readClassItems
    rfl
  rcases eq_of_suffix_dollar hs with rfl | rfl
  · unfold readClassItems
    simp [hitem, hend]
  · simp [hend]

theorem readClassItems_reflects (whole whole' : List Char) {first : Bool}
    {items out : List ClassItem} {s rest : List Char}
    (h : readClassItems whole' first items (s ++ closingMark) = .ok (out, rest)) :
    ∃ t, readClassItems whole first items s = .ok (out, t) ∧ rest = t ++ closingMark := by
  -- The item in front: it is read without the mark as well, since else the class would stay open.
  have hitem : ∀ {first : Bool} {items : List ClassItem} {s : List Char},
      ¬ (!first && s.head? == some ']') = true →
      readClassItems whole' first items (s ++ closingMark) = .ok (out, rest) →
      ∃ item t, readClassItem whole s = .ok (item, t) ∧ t.length < s.length ∧
        readClassItems whole' false (item :: items) (t ++ closingMark) = .ok (out, rest) := by
    intro first items s hclose h
    unfold readClassItems at h
    rw [head?_append_closingMark, if_neg hclose] at h
    split at h
    · cases h
    · rename_i item t' hread
      split at h
      · rename_i hlt
        rcases (readClassItem_reflects whole whole' s).of_ok hread with ⟨-, ht⟩ | ⟨t, hx, rfl⟩
        · exact absurd h (readClassItems_suffix _ _ ht _)
        · refine ⟨item, t, hx, ?_, h⟩
          simpa using hlt
      · cases h
  fun_induction readClassItems whole first items s with
  | case1 first items s hclose =>
    cases s with
    | nil => simp at hclose
    | cons c s =>
      unfold readClassItems at h
      rw [head?_append_closingMark, if_pos hclose] at h
      cases h
      exact ⟨s, rfl, rfl⟩
  | case2 first items s hclose e he =>
    obtain ⟨item, t, hx, -, -⟩ := hitem hclose h
    rw [he] at hx
    cases hx
  | case3 first items s hclose item t hx hlt ih =>
    obtain ⟨item', t', hx', -, h'⟩ := hitem hclose h
    rw [hx] at hx'
    cases hx'
    exact ih h'
  | case4 first items s hclose item t hx hlt =>
    obtain ⟨item', t', hx', hlt', -⟩ := hitem hclose h
    rw [hx] at hx'
    cases hx'
    exact absurd hlt' hlt

theorem readClass_plain (fold : Bool) (b : Char) {s : List Char} (hs : ∀ t, s ≠ '^' :: t) :
    readClass fold (b :: s) =
      readClassItems (b :: s) true [] s >>= fun p => .ok (⟨false, fold, p.1⟩, p.2) := by
  unfold readClass
  simp only [List.drop_succ_cons, List.drop_zero]
  rfl

theorem readClass_reflects (fold : Bool) (b : Char) (s : List Char) :
    Reflects Anything (readClass fold (b :: s)) (readClass fold (b :: s ++ closingMark)) := by
  have hitems : ∀ t : List Char, Reflects Anything (readClassItems (b :: s) true [] t)
      (readClassItems (b :: s ++ closingMark) true [] (t ++ closingMark)) := fun _ =>
    ⟨fun h => .inr (readClassItems_reflects _ _ h)⟩
  match s with
  | [] =>
    rw [readClass_plain fold b (by simp), List.cons_append,
      readClass_plain fold b (by simp [closingMark])]
    exact (hitems []).map (fun items => CharClass.mk false fold items) fun _ => trivial
  | c :: t =>
    by_cases hc : c = '^'
    · subst hc
      exact (hitems t).map (fun items => CharClass.mk true fold items) fun _ => trivial
    · rw [readClass_plain fold b (by simp [hc]), List.cons_append,
        readClass_plain fold b (by simp [hc])]
      exact (hitems (c :: t)).map (fun items => CharClass.mk false fold items) fun _ => trivial

/-! ## 3. Constructs -/

/-- A construct that does not end a group. -/
def Construct.Stays : Construct → Prop
  | .closing => False
  | _ => True

theorem readFlags_reflects (s s' : List Char) {flags : Flags} {minus sawFlag : Bool}
    {t : List Char} :
    Reflects Construct.Stays (readFlags s flags minus sawFlag t)
      (readFlags s' flags minus sawFlag (t ++ closingMark)) := by
  induction t generalizing flags minus sawFlag with
  | nil =>
    have hmark : readFlags s' flags minus sawFlag ([] ++ closingMark) =
        if !minus || sawFlag then .ok (.flags flags, ['$']) else failAt .invalidGroup s' ['$'] := by
      cases minus <;> cases sawFlag <;> rfl
    rw [hmark]
    split
    · exact .takenIn _ trivial (List.suffix_refl _)
    · exact .failAt _ _ _ _
  | cons c t ih =>
    simp only [List.cons_append, readFlags]
    exact .ite ih (.ite ih (.ite ih (.ite ih (.ite ih (.ite (.ok _ _) (.failAt _ _ _ _))))))

theorem readNamedGroup_reflects (flags : Flags) (skip : Nat) (s : List Char) :
    Reflects Construct.Stays (readNamedGroup flags skip s)
      (readNamedGroup flags skip (s ++ closingMark)) := by
  unfold readNamedGroup
  cases hcut : cutFirst ['>'] s with
  | none =>
    have hmark : ∀ c ∈ ['>'], c ∉ closingMark := by simp [closingMark]
    rw [cutFirst_append_eq_none hmark (List.cons_ne_nil _ _) hcut]
    exact .error _ _
  | some parts =>
    rw [cutFirst_append closingMark hcut]
    exact .ite (.ok _ _) (.failAt _ _ _ _)

/-- The mark of a name that only the closing mark makes long enough. -/
theorem nameMark?_of_append {t : List Char} {skip : Nat} (h : nameMark? t = none)
    (h' : nameMark? (t ++ closingMark) = some skip) : t = ['P', '<'] ∨ t = ['<'] := by
  match t with
  | [] => cases h'
  | [a] =>
    unfold nameMark? at h'
    split at h' <;> simp_all [closingMark]
  | [a, b] =>
    unfold nameMark? at h h'
    split at h' <;> simp_all
  | a :: b :: c :: t =>
    unfold nameMark? at h h'
    split at h' <;> simp_all

theorem readSpecialGroup_reflects (flags : Flags) (t : List Char) :
    Reflects Construct.Stays (readSpecialGroup flags ('(' :: '?' :: t))
      (readSpecialGroup flags ('(' :: '?' :: t ++ closingMark)) := by
  unfold readSpecialGroup
  simp only [List.cons_append, List.drop_succ_cons, List.drop_zero]
  cases hname' : nameMark? (t ++ closingMark) with
  | none =>
    cases hname : nameMark? t with
    | none => exact readFlags_reflects _ _
    | some skip =>
      rw [nameMark?_append_of_some hname] at hname'
      cases hname'
  | some skip =>
    cases hname : nameMark? t with
    | some skip' =>
      rw [nameMark?_append_of_some hname] at hname'
      cases hname'
      exact readNamedGroup_reflects flags skip _
    | none =>
      -- A name that starts right before the closing mark has no end.
      rcases nameMark?_of_append hname hname' with rfl | rfl
      · exact .error _ _
      · exact .error _ _

theorem readBraces_reflects (fold : Bool) (b : Char) (t : List Char) :
    Reflects Construct.Stays (readBraces fold (b :: t))
      (readBraces fold (b :: t ++ closingMark)) := by
  unfold readBraces
  simp only [List.cons_append, List.drop_succ_cons, List.drop_zero, readCounts_append]
  match readCounts t with
  | none => exact .ok _ _
  | some (some min, some max, open_, after) =>
    simp only [Option.map_some, repetition_append]
    exact .ite (.failAt _ _ _ _) (.ok _ _)
  | some (some min, none, true, after) =>
    simp only [Option.map_some, repetition_append]
    exact .ite (.failAt _ _ _ _) (.ok _ _)
  | some (some min, none, false, after) => exact .failAt _ _ _ _
  | some (none, max, open_, after) => exact .failAt _ _ _ _

theorem readBackslash_reflects (fold : Bool) (t : List Char) :
    Reflects Construct.Stays (readBackslash fold ('\\' :: t))
      (readBackslash fold ('\\' :: t ++ closingMark)) := by
  match t with
  | [] => exact .takenIn _ trivial (List.suffix_refl _)
  | c :: t =>
    have hproperty := (readProperty_reflects '\\' c t).map (Q := Construct.Stays)
      (fun set => Construct.pieces [.cls ⟨false, fold, [.named set]⟩]) fun _ => trivial
    have hescape := (readEscape_reflects '\\' (c :: t)).map (Q := Construct.Stays)
      (fun code => Construct.pieces [.char code fold]) fun _ => trivial
    have hquotation : c = 'Q' → Reflects Construct.Stays (.ok (readQuotation fold t))
        (.ok (readQuotation fold (t ++ closingMark))) := by
      rintro rfl
      by_cases hopen : OpenQuotation ('\\' :: 'Q' :: t)
      · obtain ⟨rs, hread⟩ := (readConstruct_openQuotation ⟨fold, false, false⟩ hopen).2
        have hrest : (Except.ok (readQuotation fold (t ++ closingMark)) : Parsed _) =
            .ok (.pieces rs, []) := hread
        rw [hrest]
        exact .takenIn _ trivial (List.nil_suffix)
      · rw [readQuotation_append fold hopen]
        exact .ok _ _
    simp only [List.cons_append, readBackslash]
    refine .ite (.ok _ _) (.ite (.ok _ _) (.ite (.ok _ _) (.ite (.failAt _ _ _ _)
      (.ite (.ok _ _) ?_))))
    by_cases hQ : c = 'Q'
    · rw [if_pos (beq_iff_eq.mpr hQ), if_pos (beq_iff_eq.mpr hQ)]
      exact hquotation hQ
    · rw [if_neg (mt beq_iff_eq.mp hQ), if_neg (mt beq_iff_eq.mp hQ)]
      refine .ite hproperty ?_
      split
      · exact .ok _ _
      · exact hescape

/-- **A construct in front of the closing mark is read without it as well**, unless it takes the
bracket of the mark in; then it does not end a group. -/
theorem readConstruct_reflects (flags : Flags) (c : Char) (t : List Char) :
    Reflects Construct.Stays (readConstruct flags (c :: t))
      (readConstruct flags (c :: t ++ closingMark)) := by
  cases hc : isSpecial c with
  | false =>
    rw [List.cons_append, readConstruct_plain hc, readConstruct_plain hc]
    exact .ok _ _
  | true =>
    have hrepetition : ∀ op, Reflects Construct.Stays (.ok (repetition op t))
        (.ok (repetition op (t ++ closingMark))) := by
      intro op
      rw [repetition_append]
      exact .ok _ _
    have hclass := (readClass_reflects flags.fold '[' t).map (Q := Construct.Stays)
      (fun k => Construct.pieces [.cls k]) fun _ => trivial
    simp only [isSpecial, List.contains_eq_mem, List.mem_cons, List.not_mem_nil, or_false,
      decide_eq_true_eq] at hc
    obtain rfl | rfl | rfl | rfl | rfl | rfl | rfl | rfl | rfl | rfl | rfl | rfl := hc
    · cases t with
      | nil => exact .ok _ _
      | cons d t =>
        by_cases hd : d = '?'
        · subst hd
          exact readSpecialGroup_reflects flags t
        · rw [List.cons_append, List.cons_append, readConstruct_opening hd,
            readConstruct_opening hd, ← List.cons_append]
          exact .ok _ _
    · exact .ok _ _
    · exact .ok _ _
    · exact .ok _ _
    · exact .ok _ _
    · exact .ok _ _
    · exact hclass
    · exact hrepetition .star
    · exact hrepetition .plus
    · exact hrepetition .opt
    · exact readBraces_reflects flags.fold '{' t
    · exact readBackslash_reflects flags.fold t

end DocAudit.Pattern
