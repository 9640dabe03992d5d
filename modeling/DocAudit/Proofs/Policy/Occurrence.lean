import DocAudit.Config.Validate
import DocAudit.Policy.Compile
import Mathlib

/-!
# The patterns of a configuration

A configuration holds patterns in lists, which have a path, and in single fields.  An occurrence is
one pattern of it together with its own path; `Config.occurrences` lists them in the order in which
compiling reads them.

* `Apart`: of two paths neither begins with the other, so nothing lies below both;
* `distinctPaths_occurrences`: no two occurrences of a configuration have the same path.
-/

namespace DocAudit

open Pattern

/-! ## 1. Occurrences -/

/-- A pattern of a configuration: its path, its place in its list (zero outside of lists), and its
text. -/
structure Occurrence where
  path : String
  index : Nat
  pattern : String
deriving Repr, DecidableEq

/-- A list of patterns and its path. -/
abbrev PatternList := String × List String

/-- The patterns of a list from the place `i` on, each with its path. -/
def listedFrom (path : String) (i : Nat) (ps : List String) : List Occurrence :=
  (ps.zipIdx i).map fun x => ⟨Config.itemPath path x.2, x.2, x.1⟩

/-- The patterns of a list. -/
def listed (l : PatternList) : List Occurrence := listedFrom l.1 0 l.2

/-- Lists whose paths start at a path. -/
def under (path : String) (ls : List PatternList) : List PatternList :=
  ls.map fun l => (path ++ l.1, l.2)

namespace Config

/-- The lists of patterns of a filter. -/
def Filter.lists (f : Filter) : List PatternList :=
  [(".include", f.includes), (".exclude", f.excludes)]

/-- The lists of patterns of a selector. -/
def Selector.lists (s : Selector) : List PatternList :=
  [(".package_patterns", s.packagePatterns), (".fqn_patterns", s.fqnPatterns),
    (".simple_name_patterns", s.simpleNamePatterns),
    (".signature_patterns", s.signaturePatterns)] ++
    (s.annotations.map fun f => under ".annotations" f.lists).getD []

/-- The lists of patterns of a selector that may be absent. -/
def conditionLists (s : Option Selector) : List PatternList := (s.map Selector.lists).getD []

/-- The lists of patterns that say what is scanned. -/
def Scan.lists (s : Scan) : List PatternList :=
  under ".packages" s.packages.lists ++ under ".types.names" s.types.names.lists ++
    under ".types.annotations" s.types.annotations.lists ++
    under ".members.names" s.members.names.lists ++
    under ".members.annotations" s.members.annotations.lists

/-- The patterns in some lists below a path. -/
def occurrencesIn (path : String) (ls : List PatternList) : List Occurrence :=
  (under path ls).flatMap listed

/-- The patterns of the override at the place `i`. -/
def Override.occurrences (i : Nat) (o : Override) : List Occurrence :=
  occurrencesIn (itemPath "defaults.severity.overrides" i ++ ".match") (conditionLists o.condition)

/-- The pattern of the policy at the place `i`. -/
def Policy.occurrences (i : Nat) (p : Policy) : List Occurrence :=
  [⟨itemPath "defaults.annotation_policies" i ++ ".annotation_pattern", 0, p.annotationPattern⟩]

/-- The patterns of the rule entry at the place `i`. -/
def RuleEntry.occurrences (i : Nat) (r : RuleEntry) : List Occurrence :=
  occurrencesIn (itemPath "rules" i ++ ".when") (conditionLists r.condition)

/-- The patterns of the items of a list from the place `i` on. -/
def occurrencesFrom {α : Type} (one : Nat → α → List Occurrence) (i : Nat) (xs : List α) :
    List Occurrence :=
  (xs.zipIdx i).flatMap fun x => one x.2 x.1

/-- The sections of a configuration that hold patterns, each with its path. -/
def sections (c : Config) : List (String × List Occurrence) := [
  ("scan", occurrencesIn "scan" c.scan.lists),
  ("defaults.severity.overrides",
    occurrencesFrom Override.occurrences 0 c.defaults.severity.overrides),
  ("defaults.annotation_policies", occurrencesFrom Policy.occurrences 0 c.defaults.policies),
  ("rules", occurrencesFrom RuleEntry.occurrences 0 c.rules)]

/-- **The patterns of a configuration**, in the order in which they are read. -/
def occurrences (c : Config) : List Occurrence := c.sections.flatMap Prod.snd

end Config

theorem under_under (p q : String) (ls : List PatternList) :
    under p (under q ls) = under (p ++ q) ls := by
  unfold under
  simp only [List.map_map, Function.comp_def, String.append_assoc]

theorem occurrencesIn_under (p q : String) (ls : List PatternList) :
    Config.occurrencesIn p (under q ls) = Config.occurrencesIn (p ++ q) ls := by
  unfold Config.occurrencesIn
  rw [under_under]

theorem occurrencesIn_append (path : String) (ls ls' : List PatternList) :
    Config.occurrencesIn path (ls ++ ls') =
      Config.occurrencesIn path ls ++ Config.occurrencesIn path ls' := by
  unfold Config.occurrencesIn under
  rw [List.map_append, List.flatMap_append]

theorem itemPath_append (path rest : String) (i : Nat) :
    Config.itemPath path i ++ rest = path ++ "[" ++ toString i ++ ("]" ++ rest) := by
  unfold Config.itemPath
  rw [String.append_assoc]

/-! ## 2. Paths apart -/

/-- Of two paths neither begins with the other. -/
def Apart (a b : String) : Prop := ¬ a.toList <+: b.toList ∧ ¬ b.toList <+: a.toList

instance (a b : String) : Decidable (Apart a b) := inferInstanceAs (Decidable (_ ∧ _))

/-- All the occurrences have paths that begin with `a`. -/
def Below (a : String) (os : List Occurrence) : Prop := ∀ o ∈ os, a.toList <+: o.path.toList

/-- No two of the occurrences have the same path. -/
def DistinctPaths (os : List Occurrence) : Prop := (os.map Occurrence.path).Nodup

theorem apart_append_left (p : String) {a b : String} (h : Apart a b) :
    Apart (p ++ a) (p ++ b) := by
  unfold Apart at h ⊢
  simpa only [String.toList_append, List.prefix_append_right_inj] using h

theorem Below.trans {a b : String} {os : List Occurrence} (h : Below b os)
    (hab : a.toList <+: b.toList) : Below a os := fun o ho => hab.trans (h o ho)

theorem below_flatMap {α : Type} {a : String} {f : α → List Occurrence} {xs : List α}
    (h : ∀ x ∈ xs, Below a (f x)) : Below a (xs.flatMap f) := by
  intro o ho
  obtain ⟨x, hx, ho⟩ := List.mem_flatMap.mp ho
  exact h x hx o ho

/-- Nothing lies below two paths that are apart. -/
theorem path_ne_of_apart {a b : String} (hab : Apart a b) {os os' : List Occurrence}
    (h : Below a os) (h' : Below b os') {o o' : Occurrence} (ho : o ∈ os) (ho' : o' ∈ os') :
    o.path ≠ o'.path := by
  intro heq
  have hb := h' o' ho'
  rw [← heq] at hb
  rcases List.prefix_or_prefix_of_prefix (h o ho) hb with hp | hp
  · exact hab.1 hp
  · exact hab.2 hp

/-- Parts below paths that are pairwise apart have different paths if each of them has. -/
theorem distinctPaths_flatMap {α : Type} (pre : α → String) {f : α → List Occurrence}
    {xs : List α} (hpre : ∀ x ∈ xs, Below (pre x) (f x)) (hd : ∀ x ∈ xs, DistinctPaths (f x))
    (hapart : xs.Pairwise fun x y => Apart (pre x) (pre y)) : DistinctPaths (xs.flatMap f) := by
  unfold DistinctPaths
  rw [List.map_flatMap, List.nodup_flatMap]
  refine ⟨hd, hapart.imp_of_mem ?_⟩
  intro x y hx hy hxy p hp hq
  obtain ⟨o, ho, rfl⟩ := List.mem_map.mp hp
  obtain ⟨o', ho', heq⟩ := List.mem_map.mp hq
  exact path_ne_of_apart hxy (hpre x hx) (hpre y hy) ho ho' heq.symm

/-! ## 3. Items -/

theorem toList_itemPath (path : String) (i : Nat) :
    (Config.itemPath path i).toList = path.toList ++ '[' :: ((toString i).toList ++ [']']) := by
  simp [Config.itemPath]

theorem bracket_notMem_digits (i : Nat) : ']' ∉ (toString i).toList := by
  intro h
  have hd : (']').isDigit = true := by
    refine Nat.isDigit_of_mem_toDigits (b := 10) (n := i) (by decide) (by decide) ?_
    simpa [Nat.repr_eq_ofList_toDigits] using h
  exact absurd hd (by decide)

/-- Items at different places have paths of which neither begins with the other: the digits end at
the closing bracket. -/
theorem apart_itemPath (path : String) {i j : Nat} (hij : i ≠ j) :
    Apart (Config.itemPath path i) (Config.itemPath path j) := by
  have key : ∀ {i j : Nat}, i ≠ j →
      ¬ (Config.itemPath path i).toList <+: (Config.itemPath path j).toList := by
    rintro i j hij ⟨rest, h⟩
    rw [toList_itemPath, toList_itemPath, List.append_assoc, List.append_cancel_left_eq,
      List.cons_append, List.cons.injEq, List.append_assoc] at h
    have hdigits : (toString i).toList = (toString j).toList :=
      ((List.append_cons_inj_of_notMem (bracket_notMem_digits j) List.not_mem_nil).mp
        h.2.symm).1.symm
    exact hij (Nat.repr_injective (String.toList_inj.mp hdigits))
  exact ⟨key hij, key hij.symm⟩

theorem below_listed (l : PatternList) : Below l.1 (listed l) := by
  intro o ho
  obtain ⟨x, -, rfl⟩ := List.mem_map.mp ho
  rw [toList_itemPath]
  exact List.prefix_append _ _

/-- The pairs of a list with their places have different places. -/
theorem pairwise_zipIdx {α : Type} (xs : List α) (i : Nat) :
    (xs.zipIdx i).Pairwise fun x y => x.2 ≠ y.2 := by
  rw [← List.pairwise_map (f := Prod.snd) (R := (· ≠ ·)), List.zipIdx_map_snd]
  exact List.nodup_range'

theorem distinctPaths_listed (l : PatternList) : DistinctPaths (listed l) := by
  unfold DistinctPaths listed listedFrom
  rw [List.map_map, List.Nodup, List.pairwise_map]
  refine (pairwise_zipIdx l.2 0).imp ?_
  intro x y hxy heq
  have hpath : Config.itemPath l.1 x.2 = Config.itemPath l.1 y.2 := heq
  exact (apart_itemPath l.1 hxy).1 (hpath ▸ List.prefix_refl _)

namespace Config

theorem below_occurrencesIn (path : String) (ls : List PatternList) :
    Below path (occurrencesIn path ls) := by
  refine below_flatMap fun l hl => (below_listed l).trans ?_
  obtain ⟨k, -, rfl⟩ := List.mem_map.mp hl
  rw [String.toList_append]
  exact List.prefix_append _ _

/-- Lists at paths that are pairwise apart hold patterns with different paths. -/
theorem distinctPaths_occurrencesIn (path : String) {ls : List PatternList}
    (h : (ls.map Prod.fst).Pairwise Apart) : DistinctPaths (occurrencesIn path ls) := by
  refine distinctPaths_flatMap Prod.fst (fun l _ => below_listed l)
    (fun l _ => distinctPaths_listed l) ?_
  rw [under, List.pairwise_map]
  exact (List.pairwise_map.mp h).imp fun h => apart_append_left path h

/-- Items whose patterns lie below their own paths have different paths if each of them has. -/
theorem distinctPaths_occurrencesFrom {α : Type} {path : String}
    {one : Nat → α → List Occurrence} (hbelow : ∀ i x, Below (itemPath path i) (one i x))
    (hd : ∀ i x, DistinctPaths (one i x)) (xs : List α) (i : Nat) :
    DistinctPaths (occurrencesFrom one i xs) := by
  refine distinctPaths_flatMap (fun x : α × Nat => itemPath path x.2)
    (fun x _ => hbelow x.2 x.1) (fun x _ => hd x.2 x.1) ?_
  exact (pairwise_zipIdx xs i).imp fun h => apart_itemPath path h

theorem below_occurrencesFrom {α : Type} {path : String} {one : Nat → α → List Occurrence}
    (hbelow : ∀ i x, Below (itemPath path i) (one i x)) (xs : List α) (i : Nat) :
    Below path (occurrencesFrom one i xs) := by
  refine below_flatMap fun x _ => (hbelow x.2 x.1).trans ?_
  rw [toList_itemPath]
  exact List.prefix_append _ _

/-! ## 4. The whole -/

theorem pairwise_conditionLists (s : Option Selector) :
    ((conditionLists s).map Prod.fst).Pairwise Apart := by
  rcases s with - | s
  · exact List.Pairwise.nil
  · rcases hs : s.annotations with - | f
    all_goals
      simp only [conditionLists, Selector.lists, under, Filter.lists, hs, Option.map_some,
        Option.map_none, Option.getD_some, Option.getD_none, List.map_append, List.map_cons,
        List.map_nil]
      decide

theorem pairwise_scan_lists (s : Scan) : (s.lists.map Prod.fst).Pairwise Apart := by
  simp only [Scan.lists, under, Filter.lists, List.map_append, List.map_cons, List.map_nil]
  decide

theorem below_override (i : Nat) (o : Override) :
    Below (itemPath "defaults.severity.overrides" i) (o.occurrences i) := by
  refine (below_occurrencesIn _ _).trans ?_
  rw [String.toList_append]
  exact List.prefix_append _ _

theorem below_policy (i : Nat) (p : Policy) :
    Below (itemPath "defaults.annotation_policies" i) (p.occurrences i) := by
  intro o ho
  obtain rfl := List.mem_singleton.mp ho
  rw [String.toList_append]
  exact List.prefix_append _ _

theorem below_rule (i : Nat) (r : RuleEntry) : Below (itemPath "rules" i) (r.occurrences i) := by
  refine (below_occurrencesIn _ _).trans ?_
  rw [String.toList_append]
  exact List.prefix_append _ _

/-- **No two patterns of a configuration have the same path.** -/
theorem distinctPaths_occurrences (c : Config) : DistinctPaths c.occurrences := by
  refine distinctPaths_flatMap Prod.fst ?_ ?_ ?_
  · simp only [sections, List.forall_mem_cons]
    exact ⟨below_occurrencesIn _ _, below_occurrencesFrom below_override _ _,
      below_occurrencesFrom below_policy _ _, below_occurrencesFrom below_rule _ _,
      List.forall_mem_nil _⟩
  · simp only [sections, List.forall_mem_cons]
    exact ⟨distinctPaths_occurrencesIn _ (pairwise_scan_lists c.scan),
      distinctPaths_occurrencesFrom below_override
        (fun _ o => distinctPaths_occurrencesIn _ (pairwise_conditionLists o.condition)) _ _,
      distinctPaths_occurrencesFrom below_policy (fun _ _ => List.nodup_singleton _) _ _,
      distinctPaths_occurrencesFrom below_rule
        (fun _ r => distinctPaths_occurrencesIn _ (pairwise_conditionLists r.condition)) _ _,
      List.forall_mem_nil _⟩
  · have happart : List.Pairwise Apart ["scan", "defaults.severity.overrides",
        "defaults.annotation_policies", "rules"] := by decide
    exact List.pairwise_map.mp happart

end Config

end DocAudit
