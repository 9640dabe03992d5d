import DocAudit.Files.Path
import DocAudit.Proofs.Text.Split

/-!
# The last element of a path

Cleaning paths, putting them together and going from one to another keep the last element, if it is
a plain name.

* `LastElement.endsWith_iff`: what a text without slashes says about the end of a path, it says about
  the last element;
* `lastElement_joinPath` and `relativePath_cases` follow the last element through the operations.
-/

namespace DocAudit.Files

open DocAudit.Text

/-! ## 1. Last elements -/

/-- **`b` is what stands after the last slash** of a path. -/
structure LastElement (cs b : List Char) : Prop where
  slash_notMem : '/' ∉ b
  cut : cs = b ∨ ∃ before, cs = before ++ '/' :: b

/-- A path element that cleaning keeps as it is. -/
def IsPlainName (b : List Char) : Prop := b ≠ [] ∧ b ≠ ['.'] ∧ b ≠ ['.', '.']

variable {b cs : List Char}

theorem exists_lastElement : ∀ cs : List Char, ∃ b, LastElement cs b
  | [] => ⟨[], by simp, .inl rfl⟩
  | c :: cs => by
      obtain ⟨b, hb, hcut⟩ := exists_lastElement cs
      rcases hcut with rfl | ⟨before, rfl⟩
      · by_cases hc : c = '/'
        · exact ⟨cs, hb, .inr ⟨[], by simp [hc]⟩⟩
        · exact ⟨c :: cs, by simp [Ne.symm hc, hb], .inl rfl⟩
      · exact ⟨b, hb, .inr ⟨c :: before, rfl⟩⟩

theorem LastElement.of_append (h : LastElement cs b) (before : List Char) :
    LastElement (before ++ '/' :: cs) b := by
  refine ⟨h.slash_notMem, .inr ?_⟩
  rcases h.cut with rfl | ⟨more, rfl⟩
  · exact ⟨before, rfl⟩
  · exact ⟨before ++ '/' :: more, by simp⟩

/-- The end of a path is that of its last element, as far as no slash is looked for. -/
theorem LastElement.endsWith_iff (h : LastElement cs b) {m : List Char} (hm : '/' ∉ m) :
    endsWith m cs = true ↔ endsWith m b = true := by
  rw [Text.endsWith_iff, Text.endsWith_iff]
  rcases h.cut with rfl | ⟨before, rfl⟩
  · exact Iff.rfl
  · constructor
    · intro hsuf
      rcases List.suffix_or_suffix_of_suffix hsuf (List.suffix_append before ('/' :: b)) with
        hshort | hlong
      · rcases List.suffix_cons_iff.mp hshort with rfl | hsuf
        · exact absurd List.mem_cons_self hm
        · exact hsuf
      · exact absurd (hlong.subset List.mem_cons_self) hm
    · intro hsuf
      exact hsuf.trans ((List.suffix_cons '/' b).trans (List.suffix_append before _))

theorem LastElement.splitAt_eq (h : LastElement cs b) :
    ∃ ws, splitAt '/' cs = ws ++ [b] := by
  have hb : splitAt '/' b = [b] := by
    refine splitBy_of_forall_not fun c hc => ?_
    have : c ≠ '/' := fun heq => h.slash_notMem (heq ▸ hc)
    simpa using this
  rcases h.cut with rfl | ⟨before, rfl⟩
  · exact ⟨[], hb⟩
  · refine ⟨splitAt '/' before, ?_⟩
    rw [← hb]
    exact splitBy_append_cons (by simp) b before

theorem lastElement_join (hb : '/' ∉ b) : ∀ ws : List String,
    LastElement (join "/" (ws ++ [String.ofList b])).toList b
  | [] => ⟨hb, .inl (by simp [join])⟩
  | [w] => ⟨hb, .inr ⟨w.toList, by simp [join]⟩⟩
  | w :: w' :: ws => by
      have ih := (lastElement_join hb (w' :: ws)).of_append w.toList
      simpa [join] using ih

/-! ## 2. Cleaning and joining -/

theorem resolveElements_append_plain (hb : IsPlainName b) (rooted : Bool) :
    ∀ done ws : List (List Char),
      resolveElements rooted done (ws ++ [b]) = b :: resolveElements rooted done ws := by
  intro done ws
  have hplain : ∀ done, resolveElements rooted done [b] = b :: done := by
    intro done
    simp [resolveElements, hb.1, hb.2.1, hb.2.2]
  fun_induction resolveElements rooted done ws with
  | case1 done => exact hplain done
  | case2 done w ws hw ih => simpa [resolveElements, hw] using ih
  | case3 w ws hw hdots ih => simpa [resolveElements, hw, hdots] using ih
  | case4 w ws hw hdots d ds hd ih => simpa [resolveElements, hw, hdots, hd] using ih
  | case5 w ws hw hdots d ds hd ih => simpa [resolveElements, hw, hdots, hd] using ih
  | case6 done w ws hw hdots ih => simpa [resolveElements, hw, hdots] using ih

theorem lastElement_cleanPath {s : String} (h : LastElement s.toList b) (hb : IsPlainName b) :
    LastElement (cleanPath s).toList b := by
  obtain ⟨ws, hws⟩ := h.splitAt_eq
  have hbody := lastElement_join h.slash_notMem
    ((resolveElements (s.toList.head? == some '/') [] ws).reverse.map String.ofList)
  unfold cleanPath
  simp only [hws, resolveElements_append_plain hb, List.reverse_cons, List.map_append,
    List.map_singleton]
  split
  · simpa using hbody.of_append []
  · split
    · rename_i hempty
      rw [beq_iff_eq.mp hempty] at hbody
      rcases hbody.cut with hnil | ⟨_, hnil⟩
      · exact absurd hnil.symm hb.1
      · simp at hnil
    · exact hbody

theorem lastElement_joinPath {name : String} (dir : String) (h : LastElement name.toList b)
    (hb : IsPlainName b) : LastElement (joinPath [dir, name]).toList b := by
  have hname : name ≠ "" := by
    rintro rfl
    rcases h.cut with hnil | ⟨_, hnil⟩
    · exact hb.1 hnil.symm
    · simp at hnil
  unfold joinPath
  by_cases hdir : dir = ""
  · simpa [hdir, hname, join] using lastElement_cleanPath h hb
  · have hjoin : LastElement (join "/" [dir, name]).toList b := by
      simpa [join] using h.of_append dir.toList
    simpa [hdir, hname] using lastElement_cleanPath hjoin hb

theorem cleanPath_ne_empty (s : String) : cleanPath s ≠ "" := by
  unfold cleanPath
  dsimp only
  split
  · simp
  · split
    · decide
    · rename_i h
      simpa using h

theorem dirName_ne_empty (s : String) : dirName s ≠ "" := cleanPath_ne_empty _

/-! ## 3. Going from one path to another -/

theorem elements_eq_append {s : String} (h : LastElement s.toList b) (hb : IsPlainName b) :
    ∃ es, elements s = es ++ [String.ofList b] := by
  obtain ⟨ws, hws⟩ := h.splitAt_eq
  have hne : String.ofList b ≠ "." := fun heq => hb.2.1 (by simpa using congrArg String.toList heq)
  refine ⟨((ws.filter fun w => !w.isEmpty).map String.ofList).filter (· != "."), ?_⟩
  unfold elements wordsBy
  rw [show splitBy (· == '/') s.toList = ws ++ [b] from hws]
  simp [hb.1, hne]

theorem dropCommon_suffix : ∀ as bs : List String, (dropCommon as bs).2 <:+ bs
  | [], bs => List.suffix_refl bs
  | _ :: _, [] => List.suffix_refl []
  | a :: as, b :: bs => by
      rw [dropCommon]
      split
      · exact (dropCommon_suffix as bs).trans (List.suffix_cons b bs)
      · exact List.suffix_refl _

/-- **The way to a path ends like the path**, or it goes up only. -/
theorem relativePath_cases {goal : String} (start : String) (h : LastElement goal.toList b)
    (hb : IsPlainName b) :
    relativePath start goal = "." ∨ LastElement (relativePath start goal).toList ['.', '.'] ∨
      LastElement (relativePath start goal).toList b := by
  obtain ⟨es, hes⟩ := elements_eq_append (lastElement_cleanPath h hb) hb
  have hsuf := dropCommon_suffix (elements (cleanPath start)) (elements (cleanPath goal))
  unfold relativePath
  generalize dropCommon (elements (cleanPath start)) (elements (cleanPath goal)) = way at hsuf ⊢
  obtain ⟨up, down⟩ := way
  rw [hes] at hsuf
  dsimp only
  split
  · exact .inl rfl
  · rename_i hparts
    rcases List.suffix_concat_iff.mp hsuf with rfl | ⟨down', rfl, -⟩
    · -- Only steps up: the last of them is the last element.
      rcases List.eq_nil_or_concat up with rfl | ⟨up', last, rfl⟩
      · simp at hparts
      · refine .inr (.inl ?_)
        simpa using lastElement_join (b := ['.', '.']) (by decide) (up'.map fun _ => "..")
    · rw [← List.append_assoc]
      exact .inr (.inr (lastElement_join h.slash_notMem _))

end DocAudit.Files
