import DocAudit.Proofs.Files.Path
import Mathlib.Data.List.Induction

/-!
# Clean paths and the paths below a directory

Cleaning leaves steps up, then names.  The paths of what is below a directory are made by putting
one name after the other to the path of the directory, cleaned each time.

* `cleanParts_pathOfParts`: a clean path is read back as the elements that it was made of;
* `cleanParts_below` and `below_concat`: what the path below a directory is made of;
* `relativePath_below`: the way from a directory to what is below it are the names on it;
* `dirName_relPath` and `relPath_inj`: such ways end in their last name, and are told apart by their
  names.
-/

namespace DocAudit.Files

open DocAudit.Text

/-! ## 1. Elements that cleaning leaves -/

/-- **Elements that cleaning leaves**, the last one first: names, and below them steps up, which do
not stand in a path from the top. -/
def StackOk (rooted : Bool) : List (List Char) → Prop
  | [] => True
  | w :: done =>
    w ≠ [] ∧ w ≠ ['.'] ∧ '/' ∉ w ∧
      (w = ['.', '.'] → rooted = false ∧ ∀ d ∈ done, d = ['.', '.']) ∧ StackOk rooted done

variable {rooted : Bool} {w : List Char} {ws done : List (List Char)}

theorem StackOk.tail (h : StackOk rooted (w :: done)) : StackOk rooted done := h.2.2.2.2

theorem StackOk.of_append : ∀ {ws : List (List Char)}, StackOk rooted (ws ++ done) →
    StackOk rooted done
  | [], h => h
  | _ :: _, h => StackOk.of_append h.tail

theorem StackOk.forall_mem : ∀ {ws : List (List Char)}, StackOk rooted ws →
    ∀ w ∈ ws, w ≠ [] ∧ w ≠ ['.'] ∧ '/' ∉ w
  | [], _, w, hw => absurd hw List.not_mem_nil
  | w :: ws, h, v, hv => by
      rcases List.mem_cons.mp hv with rfl | hv
      · exact ⟨h.1, h.2.1, h.2.2.1⟩
      · exact StackOk.forall_mem h.tail v hv

/-- Cleaning leaves such elements. -/
theorem stackOk_resolveElements (hdone : StackOk rooted done) (hws : ∀ w ∈ ws, '/' ∉ w) :
    StackOk rooted (resolveElements rooted done ws) := by
  fun_induction resolveElements rooted done ws with
  | case1 done => exact hdone
  | case2 done w ws hw ih => exact ih hdone fun v hv => hws v (List.mem_cons_of_mem _ hv)
  | case3 w ws hw hdots ih =>
    refine ih ?_ fun v hv => hws v (List.mem_cons_of_mem _ hv)
    cases rooted with
    | true => exact hdone
    | false =>
      rw [beq_iff_eq.mp hdots]
      simp [StackOk]
  | case4 w ws hw hdots d ds hd ih =>
    refine ih ⟨?_, ?_, ?_, fun _ => ?_, hdone⟩ fun v hv => hws v (List.mem_cons_of_mem _ hv)
    · rw [beq_iff_eq.mp hdots]
      decide
    · rw [beq_iff_eq.mp hdots]
      decide
    · exact hws w List.mem_cons_self
    · obtain ⟨hrooted, hds⟩ := hdone.2.2.2.1 (beq_iff_eq.mp hd)
      exact ⟨hrooted, List.forall_mem_cons.mpr ⟨beq_iff_eq.mp hd, hds⟩⟩
  | case5 w ws hw hdots d ds hd ih =>
    exact ih hdone.tail fun v hv => hws v (List.mem_cons_of_mem _ hv)
  | case6 done w ws hw hdots ih =>
    simp only [Bool.or_eq_true, List.isEmpty_iff, beq_iff_eq, not_or] at hw
    refine ih ⟨hw.1, hw.2, hws w List.mem_cons_self, fun heq => ?_, hdone⟩
      fun v hv => hws v (List.mem_cons_of_mem _ hv)
    exact absurd (beq_iff_eq.mpr heq) hdots

/-- Cleaning keeps such elements as they are. -/
theorem resolveElements_of_stackOk : ∀ {ws done : List (List Char)},
    StackOk rooted (ws.reverse ++ done) → resolveElements rooted done ws = ws.reverse ++ done
  | [], done, _ => by rw [resolveElements, List.reverse_nil, List.nil_append]
  | w :: ws, done, h => by
      rw [List.reverse_cons, List.append_assoc, List.singleton_append] at h ⊢
      obtain ⟨hne, hdot, -, hup, -⟩ := StackOk.of_append h
      have ih := resolveElements_of_stackOk h
      have hkept : (w.isEmpty || w == ['.']) = false := by simp [hne, hdot]
      unfold resolveElements
      rw [hkept, if_neg Bool.false_ne_true]
      by_cases hdots : w = ['.', '.']
      · obtain ⟨rfl, hdone⟩ := hup hdots
        rw [if_pos (beq_iff_eq.mpr hdots)]
        cases done with
        | nil => exact ih
        | cons d ds =>
          have hd := hdone d List.mem_cons_self
          exact (if_pos (beq_iff_eq.mpr hd)).trans ih
      · rw [if_neg (mt beq_iff_eq.mp hdots)]
        exact ih

theorem resolveElements_append : ∀ (done ws vs : List (List Char)),
    resolveElements rooted done (ws ++ vs) =
      resolveElements rooted (resolveElements rooted done ws) vs := by
  intro done ws vs
  fun_induction resolveElements rooted done ws with
  | case1 done => rfl
  | case2 done w ws hw ih => simpa [resolveElements, hw] using ih
  | case3 w ws hw hdots ih => simpa [resolveElements, hw, hdots] using ih
  | case4 w ws hw hdots d ds hd ih => simpa [resolveElements, hw, hdots, hd] using ih
  | case5 w ws hw hdots d ds hd ih => simpa [resolveElements, hw, hdots, hd] using ih
  | case6 done w ws hw hdots ih => simpa [resolveElements, hw, hdots] using ih

/-! ## 2. Paths and their elements -/

/-- Whether a path starts at the top. -/
def isRooted (s : String) : Bool := s.toList.head? == some '/'

/-- The elements of a path when it is cleaned. -/
def cleanParts (s : String) : List (List Char) :=
  (resolveElements (isRooted s) [] (splitAt '/' s.toList)).reverse

/-- The path made of some elements. -/
def pathOfParts (rooted : Bool) (ps : List (List Char)) : String :=
  let body := join "/" (ps.map String.ofList)
  if rooted then "/" ++ body else if body == "" then "." else body

theorem cleanPath_eq (s : String) : cleanPath s = pathOfParts (isRooted s) (cleanParts s) := rfl

theorem slash_notMem_of_mem_splitAt {cs w : List Char} (h : w ∈ splitAt '/' cs) : '/' ∉ w :=
  fun hc => absurd (forall_mem_splitBy w h '/' hc) (by decide)

theorem stackOk_cleanParts (s : String) : StackOk (isRooted s) (cleanParts s).reverse := by
  rw [cleanParts, List.reverse_reverse]
  exact stackOk_resolveElements trivial fun _ hw => slash_notMem_of_mem_splitAt hw

theorem splitAt_join : ∀ {ps : List (List Char)}, ps ≠ [] → (∀ p ∈ ps, '/' ∉ p) →
    splitAt '/' (join "/" (ps.map String.ofList)).toList = ps
  | [], h, _ => absurd rfl h
  | [p], _, h => by
      have hp : ∀ c ∈ p, (c == '/') = false := fun c hc =>
        beq_eq_false_iff_ne.mpr fun heq => h p List.mem_cons_self (heq ▸ hc)
      simpa [join, splitAt] using splitBy_of_forall_not hp
  | p :: q :: ps, _, h => by
      have hp : ∀ c ∈ p, (c == '/') = false := fun c hc =>
        beq_eq_false_iff_ne.mpr fun heq => h p List.mem_cons_self (heq ▸ hc)
      have ih : splitAt '/' (join "/" ((q :: ps).map String.ofList)).toList = q :: ps :=
        splitAt_join (List.cons_ne_nil _ _) fun r hr => h r (List.mem_cons_of_mem _ hr)
      have htext : (join "/" ((p :: q :: ps).map String.ofList)).toList =
          p ++ '/' :: (join "/" ((q :: ps).map String.ofList)).toList := by
        simp [join]
      rw [htext, splitAt, splitBy_append_cons (by simp), splitBy_of_forall_not hp]
      exact congrArg (p :: ·) ih

theorem join_eq_empty_iff {ps : List (List Char)} (h : ∀ p ∈ ps, p ≠ []) :
    join "/" (ps.map String.ofList) = "" ↔ ps = [] := by
  constructor
  · intro hjoin
    match ps, h, hjoin with
    | [], _, _ => rfl
    | [p], h, hjoin =>
      have hnil : p = [] := by simpa [join] using hjoin
      exact absurd hnil (h p List.mem_cons_self)
    | p :: q :: ps, _, hjoin => simp [join] at hjoin
  · rintro rfl
    rfl

theorem StackOk.forall_parts {ps : List (List Char)} (h : StackOk rooted ps.reverse) :
    ∀ p ∈ ps, p ≠ [] ∧ p ≠ ['.'] ∧ '/' ∉ p := fun p hp =>
  h.forall_mem p (List.mem_reverse.mpr hp)

/-- The pieces of a clean path. -/
theorem splitAt_pathOfParts {ps : List (List Char)} (hne : ps ≠ [])
    (h : StackOk rooted ps.reverse) :
    splitAt '/' (pathOfParts rooted ps).toList = if rooted then [] :: ps else ps := by
  have hsplit := splitAt_join hne fun p hp => (h.forall_parts p hp).2.2
  cases rooted with
  | true =>
    have htext : (pathOfParts true ps).toList = '/' :: (join "/" (ps.map String.ofList)).toList := by
      simp [pathOfParts]
    rw [htext, splitAt, splitBy_cons_sep (by simp), if_pos rfl]
    exact congrArg _ hsplit
  | false =>
    have hbody : join "/" (ps.map String.ofList) ≠ "" :=
      (join_eq_empty_iff fun p hp => (h.forall_parts p hp).1).not.mpr hne
    have htext : pathOfParts false ps = join "/" (ps.map String.ofList) := by
      simp [pathOfParts, hbody]
    rw [htext, hsplit]
    rfl

/-- Whether a path starts at the top is told by its first piece, if it has another. -/
theorem isRooted_pathOfParts {ps : List (List Char)} (h : StackOk rooted ps.reverse) :
    isRooted (pathOfParts rooted ps) = rooted := by
  cases rooted with
  | true => simp [isRooted, pathOfParts]
  | false =>
    by_cases hne : ps = []
    · subst hne
      decide
    · have hsplit := splitAt_pathOfParts hne h
      rw [isRooted, beq_eq_false_iff_ne]
      intro hhead
      obtain ⟨cs, hcs⟩ := List.head?_eq_some_iff.mp hhead
      rw [hcs, splitAt, splitBy_cons_sep (by simp)] at hsplit
      have hnil : [] ∈ ps := (show [] :: _ = ps from hsplit) ▸ List.mem_cons_self
      exact (h.forall_parts [] hnil).1 rfl

/-- **A clean path is read back as the elements that it was made of.** -/
theorem cleanParts_pathOfParts {ps : List (List Char)} (h : StackOk rooted ps.reverse) :
    cleanParts (pathOfParts rooted ps) = ps := by
  by_cases hne : ps = []
  · subst hne
    cases rooted <;> decide
  · have hkept : resolveElements rooted [] ps = ps.reverse := by
      rw [← List.append_nil ps.reverse] at h ⊢
      exact resolveElements_of_stackOk h
    rw [cleanParts, isRooted_pathOfParts h, splitAt_pathOfParts hne h]
    cases rooted with
    | true => rw [if_pos rfl, resolveElements, if_pos (by rfl), hkept, List.reverse_reverse]
    | false => rw [if_neg Bool.false_ne_true, hkept, List.reverse_reverse]

theorem isRooted_cleanPath (s : String) : isRooted (cleanPath s) = isRooted s :=
  isRooted_pathOfParts (stackOk_cleanParts s)

theorem elements_cleanPath (s : String) :
    elements (cleanPath s) = (cleanParts s).map String.ofList := by
  have hparts := (stackOk_cleanParts s).forall_parts
  -- The words of the path are its elements, and none of them is left out.
  have hwords : (cleanParts s).filter (fun p => !p.isEmpty) = cleanParts s :=
    List.filter_eq_self.mpr fun p hp => by simp [(hparts p hp).1]
  have hkept : ((cleanParts s).map String.ofList).filter (· != ".") =
      (cleanParts s).map String.ofList := by
    rw [List.filter_eq_self]
    intro t ht
    obtain ⟨p, hp, rfl⟩ := List.mem_map.mp ht
    refine bne_iff_ne.mpr fun heq => (hparts p hp).2.1 ?_
    simpa using congrArg String.toList heq
  by_cases hne : cleanParts s = []
  · rw [cleanPath_eq, hne]
    cases isRooted s <;> decide
  · have hsplit := splitAt_pathOfParts hne (stackOk_cleanParts s)
    rw [splitAt] at hsplit
    rw [cleanPath_eq, elements, wordsBy, hsplit]
    cases isRooted s with
    | true => rw [if_pos rfl, List.filter_cons_of_neg (by simp), hwords, hkept]
    | false => rw [if_neg Bool.false_ne_true, hwords, hkept]

/-! ## 3. Names -/

/-- **A name that an entry of a directory can have**: without slashes, and not what stands in a
path for the directory itself or for the one above. -/
structure IsEntryName (name : String) : Prop where
  plain : IsPlainName name.toList
  slash_notMem : '/' ∉ name.toList

instance (name : String) : Decidable (IsEntryName name) :=
  decidable_of_iff ((name.toList ≠ [] ∧ name.toList ≠ ['.'] ∧ name.toList ≠ ['.', '.']) ∧
      '/' ∉ name.toList) ⟨fun ⟨h₁, h₂⟩ => ⟨h₁, h₂⟩, fun h => ⟨h.plain, h.slash_notMem⟩⟩

variable {name p root : String} {ns : List String}

theorem IsEntryName.ne_empty (h : IsEntryName name) : name ≠ "" := by
  rintro rfl
  exact h.plain.1 rfl

theorem IsEntryName.ne_dot (h : IsEntryName name) : name ≠ "." := by
  rintro rfl
  exact h.plain.2.1 rfl

theorem IsEntryName.ne_dots (h : IsEntryName name) : name ≠ ".." := by
  rintro rfl
  exact h.plain.2.2 rfl

/-- Names can be put on elements that cleaning has left. -/
theorem StackOk.names : ∀ {ns : List String} {done : List (List Char)}, StackOk rooted done →
    (∀ n ∈ ns, IsEntryName n) → StackOk rooted ((ns.map String.toList).reverse ++ done)
  | [], _, h, _ => h
  | n :: ns, done, h, hns => by
      have hn := hns n List.mem_cons_self
      have hstep : StackOk rooted (n.toList :: done) :=
        ⟨hn.plain.1, hn.plain.2.1, hn.slash_notMem, fun heq => absurd heq hn.plain.2.2, h⟩
      rw [List.map_cons, List.reverse_cons, List.append_assoc, List.singleton_append]
      exact StackOk.names hstep fun m hm => hns m (List.mem_cons_of_mem _ hm)

theorem stackOk_names (hns : ∀ n ∈ ns, IsEntryName n) :
    StackOk rooted (ns.map String.toList).reverse := by
  have hnone : StackOk rooted [] := trivial
  have hnames := hnone.names hns
  rwa [List.append_nil] at hnames

theorem resolveElements_names (h : StackOk rooted done) (hns : ∀ n ∈ ns, IsEntryName n) :
    resolveElements rooted done (ns.map String.toList) =
      (ns.map String.toList).reverse ++ done :=
  resolveElements_of_stackOk (h.names hns)

theorem map_ofList_toList (ns : List String) : (ns.map String.toList).map String.ofList = ns := by
  simp

theorem splitAt_join_names (hne : ns ≠ []) (hns : ∀ n ∈ ns, IsEntryName n) :
    splitAt '/' (join "/" ns).toList = ns.map String.toList := by
  have hslash : ∀ w ∈ ns.map String.toList, '/' ∉ w := by
    intro w hw
    obtain ⟨n, hn, rfl⟩ := List.mem_map.mp hw
    exact (hns n hn).slash_notMem
  have hsplit := splitAt_join (mt List.map_eq_nil_iff.mp hne) hslash
  rwa [map_ofList_toList] at hsplit

/-! ## 4. What is below a directory -/

theorem join_names_ne_empty (hne : ns ≠ []) (hns : ∀ n ∈ ns, IsEntryName n) :
    join "/" ns ≠ "" := by
  intro hempty
  have hsplit := splitAt_join_names hne hns
  rw [hempty] at hsplit
  obtain ⟨n, ms, rfl⟩ := List.exists_cons_of_ne_nil hne
  exact (hns n List.mem_cons_self).plain.1 (List.cons.inj hsplit).1.symm

/-- The path of what some names lead to, from the directory at a path on. -/
def below (root : String) (ns : List String) : String := ns.foldl (fun p n => joinPath [p, n]) root

/-- The way that some names are, as a path from where they start. -/
def relPath : List String → String
  | [] => "."
  | n :: ns => join "/" (n :: ns)

theorem relPath_of_ne (hne : ns ≠ []) : relPath ns = join "/" ns := by
  cases ns with
  | nil => exact absurd rfl hne
  | cons n ns => rfl

@[simp] theorem below_nil (root : String) : below root [] = root := rfl

theorem below_concat (root : String) (ns : List String) (n : String) :
    below root (ns ++ [n]) = joinPath [below root ns, n] := by
  simp [below]

theorem isRooted_append (hp : p ≠ "") (s : String) : isRooted (p ++ s) = isRooted p := by
  have hne : p.toList ≠ [] := by simpa using hp
  simp [isRooted, List.head?_append_of_ne_nil _ hne]

theorem cleanParts_append_names (hp : p ≠ "") (hne : ns ≠ []) (hns : ∀ n ∈ ns, IsEntryName n) :
    cleanParts (p ++ "/" ++ join "/" ns) = cleanParts p ++ ns.map String.toList := by
  have htext : (p ++ "/" ++ join "/" ns).toList = p.toList ++ '/' :: (join "/" ns).toList := by
    simp
  have hparts := stackOk_cleanParts p
  rw [cleanParts, List.reverse_reverse] at hparts
  have hsplit : splitAt '/' (p.toList ++ '/' :: (join "/" ns).toList) =
      splitAt '/' p.toList ++ ns.map String.toList := by
    rw [← splitAt_join_names hne hns]
    exact splitBy_append_cons (by simp) _ _
  rw [cleanParts, String.append_assoc, isRooted_append hp, ← String.append_assoc, htext, hsplit,
    resolveElements_append, resolveElements_names hparts hns, List.reverse_append,
    List.reverse_reverse]
  rfl

theorem joinPath_join (hp : p ≠ "") (hne : ns ≠ []) (hns : ∀ n ∈ ns, IsEntryName n) :
    joinPath [p, join "/" ns] =
      pathOfParts (isRooted p) (cleanParts p ++ ns.map String.toList) := by
  have hjoin := join_names_ne_empty hne hns
  have htext : joinPath [p, join "/" ns] = cleanPath (p ++ "/" ++ join "/" ns) := by
    simp [joinPath, hp, hjoin, join]
  rw [htext, cleanPath_eq, cleanParts_append_names hp hne hns, String.append_assoc,
    isRooted_append hp]

theorem joinPath_dot (hp : p ≠ "") : joinPath [p, "."] = cleanPath p := by
  have htext : joinPath [p, "."] = cleanPath (p ++ "/" ++ ".") := by
    simp [joinPath, hp, join]
  have hsplit : splitAt '/' (p ++ "/" ++ ".").toList = splitAt '/' p.toList ++ [['.']] := by
    rw [String.toList_append, String.toList_append, List.append_assoc]
    exact splitBy_append_cons (by decide) ['.'] _
  have hrooted : isRooted (p ++ "/" ++ ".") = isRooted p := by
    rw [String.append_assoc, isRooted_append hp]
  have hparts : cleanParts (p ++ "/" ++ ".") = cleanParts p := by
    rw [cleanParts, hrooted, hsplit, resolveElements_append]
    simp [resolveElements, cleanParts]
  rw [htext, cleanPath_eq, hrooted, hparts, cleanPath_eq]

theorem joinPath_name (hp : p ≠ "") (hn : IsEntryName name) :
    joinPath [p, name] = pathOfParts (isRooted p) (cleanParts p ++ [name.toList]) := by
  have hns : ∀ n ∈ [name], IsEntryName n := List.forall_mem_singleton.mpr hn
  exact joinPath_join hp (List.cons_ne_nil _ _) hns

theorem stackOk_names_cleanParts (p : String) (hns : ∀ n ∈ ns, IsEntryName n) :
    StackOk (isRooted p) (cleanParts p ++ ns.map String.toList).reverse := by
  rw [List.reverse_append]
  exact (stackOk_cleanParts p).names hns

theorem joinPath_ne_empty (hp : p ≠ "") (n : String) : joinPath [p, n] ≠ "" := by
  unfold joinPath
  simp [hp, cleanPath_ne_empty]

theorem below_ne_empty (hroot : root ≠ "") (ns : List String) : below root ns ≠ "" := by
  induction ns using List.reverseRecOn with
  | nil => exact hroot
  | append_singleton ns n ih =>
    rw [below_concat]
    exact joinPath_ne_empty ih n

/-- **What the path below a directory is made of.** -/
theorem cleanParts_below (hroot : root ≠ "") (hns : ∀ n ∈ ns, IsEntryName n) :
    isRooted (below root ns) = isRooted root ∧
      cleanParts (below root ns) = cleanParts root ++ ns.map String.toList := by
  induction ns using List.reverseRecOn with
  | nil => simp
  | append_singleton ns n ih =>
    obtain ⟨hfront, hn⟩ := List.forall_mem_append.mp hns
    obtain ⟨hrooted, hparts⟩ := ih hfront
    have hlast : IsEntryName n := hn n (List.mem_singleton.mpr rfl)
    rw [below_concat, joinPath_name (below_ne_empty hroot ns) hlast, hrooted, hparts,
      List.append_assoc, ← List.map_singleton, ← List.map_append]
    have hparts := stackOk_names_cleanParts root hns
    exact ⟨isRooted_pathOfParts hparts, cleanParts_pathOfParts hparts⟩

theorem below_eq (hroot : root ≠ "") (hne : ns ≠ []) (hns : ∀ n ∈ ns, IsEntryName n) :
    below root ns = pathOfParts (isRooted root) (cleanParts root ++ ns.map String.toList) := by
  obtain ⟨front, n, rfl⟩ := (List.eq_nil_or_concat' ns).resolve_left hne
  obtain ⟨hfront, hn⟩ := List.forall_mem_append.mp hns
  obtain ⟨hrooted, hparts⟩ := cleanParts_below hroot hfront
  rw [below_concat, joinPath_name (below_ne_empty hroot front) (hn n (List.mem_singleton.mpr rfl)),
    hrooted, hparts]
  simp

/-- The names from a directory on can be put to its path at once. -/
theorem joinPath_relPath (hroot : root ≠ "") (hne : ns ≠ []) (hns : ∀ n ∈ ns, IsEntryName n) :
    joinPath [root, relPath ns] = below root ns := by
  rw [below_eq hroot hne hns, ← joinPath_join hroot hne hns, relPath_of_ne hne]

/-! ## 5. The way from a directory to what is below it -/

theorem dropCommon_append : ∀ as bs : List String, dropCommon as (as ++ bs) = ([], bs)
  | [], [] => rfl
  | [], _ :: _ => rfl
  | a :: as, bs => by
      rw [List.cons_append, dropCommon, if_pos (by simp)]
      exact dropCommon_append as bs

/-- **The way from a directory to what is below it** are the names on it. -/
theorem relativePath_below (hroot : root ≠ "") (hns : ∀ n ∈ ns, IsEntryName n) :
    relativePath root (below root ns) = relPath ns := by
  unfold relativePath
  rw [elements_cleanPath, elements_cleanPath, (cleanParts_below hroot hns).2, List.map_append,
    map_ofList_toList, dropCommon_append]
  cases ns <;> rfl

end DocAudit.Files
