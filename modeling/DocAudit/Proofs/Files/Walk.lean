import DocAudit.Proofs.Files.Tree
import Mathlib.Tactic.SplitIfs

/-!
# Walks along paths

A walk goes from name to name and follows links on its way, as many as it may.

* `walk_eq` says what one step does, and `walk_induction` is the induction over the steps;
* `walk_append`: a walk along two paths, one after the other, is two walks;
* `walk_of_le`: more links that may be followed change nothing, unless there were too few;
* `at?_of_walk`: a walk ends at what its names lead to;
* `walk_names`: names lead down without following a link.
-/

namespace DocAudit.Files

open DocAudit.Text

/-! ## 1. Steps -/

/-- **A step of a walk**: it ends there, or goes on from another place along another path, with or
without following a link. -/
inductive Step where
  | stop (result : Except PathError Place)
  | go (here path : List String)
  | follow (here path : List String)

/-- The step to an entry of the directory where a walk is. -/
def stepTo (follow : Bool) (here : List String) (e : String) (rest : List String) :
    Option Tree → Step
  | none => .stop (if rest.isEmpty then .ok (.free (e :: here).reverse) else .error .missing)
  | some (.link target) =>
    if rest.isEmpty && !follow then .stop (.ok (.taken ⟨(e :: here).reverse, .link target⟩))
    else .follow (if hasStart target "/" then [] else here) (pathElements target ++ rest)
  | some _ => .go (e :: here) rest

/-- The next step of a walk. -/
def nextStep (top : Tree) (follow : Bool) (here path : List String) : Step :=
  match Tree.at? here.reverse top with
  | none => .stop (.error .missing)
  | some t =>
    match path with
    | [] => .stop (.ok (.taken ⟨here.reverse, t⟩))
    | e :: rest =>
      if !t.isDir then .stop (.error .notDirectory)
      else if e == "" || e == "." then .go here rest
      else if e == ".." then .go here.tail rest
      else stepTo follow here e rest (t.entries.lookup e)

variable {top t : Tree} {follow : Bool} {links : Nat} {here here' p p' q ns : List String}
  {e : String}

/-- **What one step of a walk does.** -/
theorem walk_eq (top : Tree) (follow : Bool) (links : Nat) (here path : List String) :
    walk top follow links here path =
      match nextStep top follow here path with
      | .stop result => result
      | .go here path => walk top follow links here path
      | .follow here path =>
        match links with
        | 0 => .error .tooManyLinks
        | n + 1 => walk top follow n here path := by
  rw [walk, nextStep]
  cases Tree.at? here.reverse top with
  | none => rfl
  | some t =>
    cases path with
    | nil => rfl
    | cons e rest =>
      dsimp only
      by_cases hdir : (!t.isDir) = true
      · rw [if_pos hdir, if_pos hdir]
      by_cases hskip : (e == "" || e == ".") = true
      · rw [if_neg hdir, if_neg hdir, if_pos hskip, if_pos hskip]
      by_cases hup : (e == "..") = true
      · rw [if_neg hdir, if_neg hdir, if_neg hskip, if_neg hskip, if_pos hup, if_pos hup]
      rw [if_neg hdir, if_neg hdir, if_neg hskip, if_neg hskip, if_neg hup, if_neg hup]
      cases t.entries.lookup e with
      | none => rfl
      | some u =>
        cases u with
        | file | dir => rfl
        | link target =>
          dsimp only [stepTo]
          split
          · rfl
          · rfl

/-- A step that follows no link takes an element of the path. -/
theorem length_of_nextStep_go (h : nextStep top follow here p = .go here' p') :
    p'.length < p.length := by
  unfold nextStep stepTo at h
  repeat' split at h
  all_goals cases h
  all_goals simp

/-- **Induction over the steps of a walk.** -/
theorem walk_induction (top : Tree) (follow : Bool) {motive : Nat → List String → List String → Prop}
    (step : ∀ links here p,
      (∀ here' p', nextStep top follow here p = .go here' p' → motive links here' p') →
      (∀ here' p' n, nextStep top follow here p = .follow here' p' → links = n + 1 →
        motive n here' p') → motive links here p) (links : Nat) (here p : List String) :
    motive links here p :=
  step links here p
    (fun here' p' h =>
      have := length_of_nextStep_go h
      walk_induction top follow step links here' p')
    fun here' p' n _ _ => walk_induction top follow step n here' p'
termination_by (links, p.length)

/-! ## 2. Two walks -/

theorem eq_nil_of_taken {f : Found} (h : nextStep top true here p = .stop (.ok (.taken f))) :
    p = [] ∧ here.reverse = f.names := by
  unfold nextStep stepTo at h
  repeat' split at h
  all_goals simp_all
  rw [← h]

/-- **A step before the end of a path does not depend on what comes after it.** -/
theorem nextStep_append (top : Tree) (follow : Bool) (here p : List String) (hq : q ≠ []) :
    match nextStep top true here p with
    | .stop _ => True
    | .go here' p' => nextStep top follow here (p ++ q) = .go here' (p' ++ q)
    | .follow here' p' => nextStep top follow here (p ++ q) = .follow here' (p' ++ q) := by
  unfold nextStep
  cases Tree.at? here.reverse top with
  | none => trivial
  | some t =>
    cases p with
    | nil => trivial
    | cons e rest =>
      dsimp only [List.cons_append]
      split_ifs
      · trivial
      · rfl
      · rfl
      · cases t.entries.lookup e with
        | none => trivial
        | some u =>
          cases u with
          | file | dir => rfl
          | link target =>
            have hmore : (rest ++ q).isEmpty = false := by simp [hq]
            simp [stepTo, hmore]

/-- **A walk along two paths is two walks**, the second with the links that are left. -/
theorem walk_append (hq : q ≠ []) (h : walk top true links here p = .ok (.taken ⟨ns, t⟩)) :
    ∃ links' ≤ links,
      walk top follow links here (p ++ q) = walk top follow links' ns.reverse q := by
  induction links, here, p using walk_induction top true with
  | step links here p hgo hfollow =>
    have hstep := nextStep_append top follow here p hq
    rw [walk_eq] at h
    rw [walk_eq top follow links here (p ++ q)]
    cases hnext : nextStep top true here p with
    | stop result =>
      rw [hnext] at h
      dsimp only at h
      subst h
      obtain ⟨rfl, hhere⟩ := eq_nil_of_taken hnext
      refine ⟨links, le_refl links, ?_⟩
      have hplace : ns.reverse = here := List.reverse_eq_iff.mpr hhere.symm
      rw [List.nil_append, ← walk_eq, hplace]
    | go here' p' =>
      rw [hnext] at h hstep
      rw [hstep]
      exact hgo here' p' hnext h
    | follow here' p' =>
      rw [hnext] at h hstep
      rw [hstep]
      cases links with
      | zero => cases h
      | succ n =>
        obtain ⟨links', hle, heq⟩ := hfollow here' p' n hnext rfl h
        exact ⟨links', Nat.le_succ_of_le hle, heq⟩

/-- **More links that may be followed change nothing**, unless there were too few. -/
theorem walk_of_le {more : Nat} (hle : links ≤ more)
    (h : walk top follow links here p ≠ .error .tooManyLinks) :
    walk top follow more here p = walk top follow links here p := by
  induction links, here, p using walk_induction top follow
    generalizing more with
  | step links here p hgo hfollow =>
    rw [walk_eq] at h
    rw [walk_eq, walk_eq top follow links]
    cases hnext : nextStep top follow here p with
    | stop result => rfl
    | go here' p' =>
      rw [hnext] at h
      exact hgo here' p' hnext hle h
    | follow here' p' =>
      rw [hnext] at h
      cases links with
      | zero => exact absurd rfl h
      | succ n =>
        obtain ⟨m, rfl⟩ : ∃ m, more = m + 1 := ⟨more - 1, by omega⟩
        exact hfollow here' p' n hnext rfl (Nat.le_of_succ_le_succ hle) h

/-! ## 3. Where walks end -/

theorem at?_of_stepTo {f : Found} (hat : Tree.at? here.reverse top = some t)
    (h : stepTo follow here e p (t.entries.lookup e) = .stop (.ok (.taken f))) :
    Tree.at? f.names top = some f.tree := by
  cases hlookup : t.entries.lookup e with
  | none =>
    rw [hlookup, stepTo] at h
    split at h <;> cases h
  | some u =>
    rw [hlookup] at h
    cases u with
    | file | dir => cases h
    | link target =>
      dsimp only [stepTo] at h
      split at h
      · cases h
        rw [List.reverse_cons, Tree.at?_append, hat]
        exact (Tree.at?_singleton e t).trans hlookup
      · cases h

theorem at?_of_nextStep {f : Found} (h : nextStep top follow here p = .stop (.ok (.taken f))) :
    Tree.at? f.names top = some f.tree := by
  unfold nextStep at h
  cases hat : Tree.at? here.reverse top with
  | none => simp [hat] at h
  | some t =>
    rw [hat] at h
    cases p with
    | nil =>
      cases h
      exact hat
    | cons e rest =>
      dsimp only at h
      split at h
      · cases h
      · split at h
        · cases h
        · split at h
          · cases h
          · exact at?_of_stepTo hat h

/-- **A walk ends at what its names lead to.** -/
theorem at?_of_walk {f : Found} (h : walk top follow links here p = .ok (.taken f)) :
    Tree.at? f.names top = some f.tree := by
  induction links, here, p using walk_induction top follow with
  | step links here p hgo hfollow =>
    rw [walk_eq] at h
    cases hnext : nextStep top follow here p with
    | stop result =>
      rw [hnext] at h
      dsimp only at h
      subst h
      exact at?_of_nextStep hnext
    | go here' p' =>
      rw [hnext] at h
      exact hgo here' p' hnext h
    | follow here' p' =>
      rw [hnext] at h
      cases links with
      | zero => cases h
      | succ n => exact hfollow here' p' n hnext rfl h

/-- A step differs only at a link at the end, according to whether such a link is followed. -/
theorem nextStep_false_or (top : Tree) (here p : List String) :
    nextStep top false here p = nextStep top true here p ∨
      ∃ ns target, nextStep top false here p = .stop (.ok (.taken ⟨ns, .link target⟩)) := by
  unfold nextStep
  cases Tree.at? here.reverse top with
  | none => exact .inl rfl
  | some t =>
    cases p with
    | nil => exact .inl rfl
    | cons e rest =>
      dsimp only
      split_ifs
      · exact .inl rfl
      · exact .inl rfl
      · exact .inl rfl
      · cases t.entries.lookup e with
        | none => exact .inl rfl
        | some u =>
          cases u with
          | file | dir => exact .inl rfl
          | link target =>
            cases rest with
            | nil => exact .inr ⟨(e :: here).reverse, target, rfl⟩
            | cons => exact .inl rfl

/-- **Without following a link at the end** a walk ends at the same place, or at the link. -/
theorem walk_false_or (top : Tree) (links : Nat) (here p : List String) :
    walk top false links here p = walk top true links here p ∨
      ∃ ns target, walk top false links here p = .ok (.taken ⟨ns, .link target⟩) := by
  induction links, here, p using walk_induction top false with
  | step links here p hgo hfollow =>
    rw [walk_eq top false, walk_eq top true]
    rcases nextStep_false_or top here p with hsame | ⟨ns, target, hlink⟩
    · rw [← hsame]
      cases hnext : nextStep top false here p with
      | stop result => exact .inl rfl
      | go here' p' => exact hgo here' p' hnext
      | follow here' p' =>
        cases links with
        | zero => exact .inl rfl
        | succ n => exact hfollow here' p' n hnext rfl
    · exact .inr ⟨ns, target, by rw [hlink]⟩

theorem resolve_eq_ok_iff {w : Workspace} {path : String} {f : Found} :
    w.resolve follow path = .ok f ↔ w.locate follow path = .ok (.taken f) := by
  unfold Workspace.resolve
  cases w.locate follow path with
  | error => exact ⟨nofun, nofun⟩
  | ok place =>
    cases place with
    | free => exact ⟨nofun, nofun⟩
    | taken g => exact ⟨fun h => congrArg _ (congrArg _ (Except.ok.inj h)), fun h => by cases h; rfl⟩

/-! ## 4. Names -/

theorem walk_nil (h : Tree.at? here.reverse top = some t) :
    walk top follow links here [] = .ok (.taken ⟨here.reverse, t⟩) := by
  rw [walk_eq, nextStep, h]

/-- What stands in a path for the directory itself is passed over. -/
theorem walk_skip (h : Tree.at? here.reverse top = some t) (hdir : t.isDir = true)
    (he : e = "" ∨ e = ".") : walk top follow links here (e :: p) = walk top follow links here p := by
  rw [walk_eq, nextStep, h]
  rcases he with rfl | rfl <;> simp [hdir]

theorem walk_of_skip {place : Place} (he : e = "" ∨ e = ".")
    (h : walk top follow links here (e :: p) = .ok place) :
    walk top follow links here p = .ok place := by
  cases hat : Tree.at? here.reverse top with
  | none =>
    rw [walk_eq, nextStep, hat] at h
    cases h
  | some t =>
    cases hdir : t.isDir with
    | false =>
      rw [walk_eq, nextStep, hat] at h
      simp [hdir] at h
    | true => rwa [walk_skip hat hdir he] at h

/-- A name leads to the entry that it stands for. -/
theorem nextStep_name {n : String} (hn : IsEntryName n) (h : Tree.at? here.reverse top = some t)
    (hdir : t.isDir = true) :
    nextStep top follow here (n :: p) = stepTo follow here n p (t.entries.lookup n) := by
  rw [nextStep, h]
  simp [hdir, hn.ne_empty, hn.ne_dot, hn.ne_dots]

/-- **Names lead down**, and no link is followed, unless there is one at the end. -/
theorem walk_names (hlink : ∀ target, t ≠ .link target) : ∀ {ns here : List String},
    Tree.at? (here.reverse ++ ns) top = some t → (∀ n ∈ ns, IsEntryName n) →
      walk top follow links here (ns ++ q) = walk top follow links (ns.reverse ++ here) q
  | [], here, _, _ => rfl
  | n :: ns, here, h, hns => by
      obtain ⟨hn, hns⟩ := List.forall_mem_cons.mp hns
      obtain ⟨d, hat, hrest⟩ := Option.bind_eq_some_iff.mp ((Tree.at?_append _ _ _).symm.trans h)
      have hdir := isDir_of_at?_cons hrest
      obtain ⟨u, hlookup, hu⟩ := Option.bind_eq_some_iff.mp hrest
      have hnext : ∀ target, u ≠ .link target := by
        rintro target rfl
        cases ns with
        | nil => exact hlink target (Option.some.inj hu).symm
        | cons => cases hu
      have hstep : nextStep top follow here (n :: ns ++ q) = .go (n :: here) (ns ++ q) := by
        rw [List.cons_append, nextStep_name hn hat hdir, hlookup]
        cases u with
        | file | dir => rfl
        | link target => exact absurd rfl (hnext target)
      have hbelow : Tree.at? ((n :: here).reverse ++ ns) top = some t := by simpa using h
      have ih := walk_names hlink hbelow hns
      rw [walk_eq, hstep]
      dsimp only
      rw [ih, List.reverse_cons, List.append_assoc, List.singleton_append]

/-- Where there are no links, there are not too many. -/
theorem walk_ne_tooManyLinks : ∀ {ns here : List String},
    (∀ ms target, Tree.at? (here.reverse ++ ms) top ≠ some (.link target)) →
      (∀ n ∈ ns, IsEntryName n) → walk top follow links here ns ≠ .error .tooManyLinks
  | [], here, _, _ => by
      rw [walk_eq, nextStep]
      cases Tree.at? here.reverse top <;> nofun
  | n :: ns, here, hfree, hns => by
      obtain ⟨hn, hns⟩ := List.forall_mem_cons.mp hns
      have hbelow : ∀ ms target, Tree.at? ((n :: here).reverse ++ ms) top ≠ some (.link target) := by
        intro ms
        simpa using hfree (n :: ms)
      have ih := walk_ne_tooManyLinks hbelow hns
      cases hat : Tree.at? here.reverse top with
      | none =>
        rw [walk_eq, nextStep, hat]
        nofun
      | some t =>
        cases hdir : t.isDir with
        | false =>
          rw [walk_eq, nextStep, hat]
          simp [hdir]
        | true =>
          rw [walk_eq, nextStep_name hn hat hdir]
          cases hlookup : t.entries.lookup n with
          | none =>
            dsimp only [stepTo]
            split <;> nofun
          | some u =>
            cases u with
            | file | dir => exact ih
            | link target =>
              refine absurd ?_ (hfree [n] target)
              rw [Tree.at?_append, hat]
              exact (Tree.at?_singleton n t).trans hlookup

/-- The current directory. -/
theorem resolve_here {w : Workspace} (h : Tree.at? w.current w.top = some t)
    (hdir : t.isDir = true) : w.resolve follow "." = .ok ⟨w.current, t⟩ := by
  have helems : pathElements "." = ["."] := by decide
  have hrelative : hasStart "." "/" = false := by decide
  have hat : Tree.at? w.current.reverse.reverse w.top = some t := by rwa [List.reverse_reverse]
  rw [resolve_eq_ok_iff, Workspace.locate, helems, hrelative]
  show walk w.top follow maxLinks w.current.reverse ["."] = _
  rw [walk_skip hat hdir (.inr rfl), walk_nil hat, List.reverse_reverse]

end DocAudit.Files
