import DocAudit.Proofs.Files.Collect
import DocAudit.Proofs.Files.Walk
import DocAudit.Proofs.Group
import DocAudit.Proofs.Text.ByteOrder

/-!
# The source files of a project

What a walk through a project collects, said of the tree below its root.

* `sourcesIn` lists the ways to the source files of a tree, and `files_collectEntries` says that a
  walk collects the files at their ends;
* `mem_sourcesIn_iff` and `pairwise_sourcesIn`: which ways these are, and that they are in order;
* `groupByDir_eq`: grouping leaves the files of a directory as they came;
* `collect_lists_exactly`: so each directory has its own source files, in order, and no other ones.
-/

namespace DocAudit.Files

open DocAudit.Text

/-! ## 1. Names -/

/-- **A name of a source file**: it is no name of a test file and no hidden one. -/
structure IsSource (name : String) : Prop where
  source : ".go".toList <:+ name.toList
  notTest : ¬ "_test.go".toList <:+ name.toList
  notMarked : ¬ "_".toList <+: name.toList
  notHidden : ¬ ".".toList <+: name.toList

/-- **A name of a directory that is left out** wherever it is. -/
def IsLeftOut (name : String) : Prop :=
  name ∈ ["vendor", "testdata", "node_modules"] ∨ "_".toList <+: name.toList ∨
    ".".toList <+: name.toList

variable {name : String} {dirs : List String} {es : List (String × Tree)} {t : Tree}

theorem isSourceName_iff : isSourceName name = true ↔ IsSource name := by
  simp only [isSourceName, hasStart, hasEnd, Bool.and_eq_true, Bool.not_eq_true', ← Bool.not_eq_true,
    endsWith_iff, startsWith_iff]
  constructor
  · rintro ⟨⟨⟨h₁, h₂⟩, h₃⟩, h₄⟩
    exact ⟨h₁, h₂, h₃, h₄⟩
  · exact fun h => ⟨⟨⟨h.source, h.notTest⟩, h.notMarked⟩, h.notHidden⟩

theorem skipsDirectory_iff : skipsDirectory name = true ↔ IsLeftOut name := by
  simp only [skipsDirectory, hasStart, Bool.or_eq_true, beq_iff_eq, startsWith_iff, IsLeftOut,
    List.mem_cons, List.not_mem_nil, or_false]
  grind

instance (name : String) : Decidable (IsSource name) := decidable_of_iff _ isSourceName_iff

instance (name : String) : Decidable (IsLeftOut name) := decidable_of_iff _ skipsDirectory_iff

/-! ## 2. Ways to source files -/

mutual

/-- The ways to the source files below a directory, by the names on them; `stops` tells which ways
end at a directory that is not entered. -/
def sourcesIn (stops : List String → Bool) : List (String × Tree) → List (List String)
  | [] => []
  | (name, t) :: rest =>
    (sourcesAt (fun dirs => stops (name :: dirs)) name t).map (name :: ·) ++ sourcesIn stops rest

/-- The ways to the source files in something with a name. -/
def sourcesAt (stops : List String → Bool) (name : String) : Tree → List (List String)
  | .dir es => if skipsDirectory name || stops [] then [] else sourcesIn stops es
  | .file _ => if isSourceName name then [[]] else []
  | .link _ => if isSourceName name then [[]] else []

end

/-- Whether a way from a directory leads to a directory with a module of its own. -/
def holdsModule (w : Workspace) (root : String) (dirs : List String) : Bool :=
  w.exists_ (below root (dirs ++ ["go.mod"]))

mutual

/-- **A walk collects the files at the ends of the ways.** -/
theorem files_collectEntries (w : Workspace) (dir : String) : ∀ es : List (String × Tree),
    (collectEntries w dir es).files = (sourcesIn (holdsModule w dir) es).map (below dir)
  | [] => rfl
  | (name, t) :: rest => by
      have hfirst := files_collectTree w (joinPath [dir, name]) name t
      have hrest := files_collectEntries w dir rest
      rw [collectEntries, sourcesIn, List.map_append, List.map_map, ← hrest]
      exact congrArg (· ++ (collectEntries w dir rest).files) hfirst

theorem files_collectTree (w : Workspace) (path name : String) : ∀ t : Tree,
    (collectTree w path name t).files = (sourcesAt (holdsModule w path) name t).map (below path)
  | .dir es => by
      have hin := files_collectEntries w path es
      have hmodule : w.exists_ (joinPath [path, "go.mod"]) = holdsModule w path [] := rfl
      rw [collectTree, sourcesAt, hmodule]
      cases skipsDirectory name with
      | true => rfl
      | false =>
        cases holdsModule w path [] with
        | true => rfl
        | false => exact hin
  | .file _ => by
      rw [collectTree, sourcesAt]
      cases isSourceName name <;> rfl
  | .link _ => by
      rw [collectTree, sourcesAt]
      cases isSourceName name <;> rfl

end

theorem sourcesIn_eq_flatMap (stops : List String → Bool) : ∀ es : List (String × Tree),
    sourcesIn stops es = es.flatMap fun x =>
      (sourcesAt (fun dirs => stops (x.1 :: dirs)) x.1 x.2).map (x.1 :: ·)
  | [] => by rw [sourcesIn, List.flatMap_nil]
  | (name, t) :: rest => by rw [sourcesIn, sourcesIn_eq_flatMap stops rest, List.flatMap_cons]

/-! ## 3. Which ways these are -/

/-- **A source file at the end of a way**: it is no directory and has a name of a source file, and
each directory on the way is entered. -/
structure Listed (stops : List String → Bool) (es : List (String × Tree)) (dirs : List String)
    (name : String) : Prop where
  leaf : ∃ t, Tree.at? (dirs ++ [name]) (.dir es) = some t ∧ t.isDir = false
  source : IsSource name
  entered : ∀ n ∈ dirs, ¬ IsLeftOut n
  own : ∀ ds, ds ≠ [] → ds <+: dirs → stops ds = false

variable {stops : List String → Bool}

theorem listed_nil_iff : Listed stops es [] name ↔
    IsSource name ∧ ∃ t, es.lookup name = some t ∧ t.isDir = false := by
  have hleaf : Tree.at? ([] ++ [name]) (.dir es) = es.lookup name := Tree.at?_singleton name _
  constructor
  · rintro ⟨⟨t, hat, hdir⟩, hsource, -, -⟩
    exact ⟨hsource, t, hleaf.symm.trans hat, hdir⟩
  · rintro ⟨hsource, t, hlookup, hdir⟩
    refine ⟨⟨t, hleaf.trans hlookup, hdir⟩, hsource, nofun, fun ds hne hpre => ?_⟩
    exact absurd (List.prefix_nil.mp hpre) hne

theorem listed_cons_iff {n : String} : Listed stops es (n :: dirs) name ↔
    ∃ es', es.lookup n = some (.dir es') ∧ ¬ IsLeftOut n ∧ stops [n] = false ∧
      Listed (fun ds => stops (n :: ds)) es' dirs name := by
  constructor
  · rintro ⟨⟨t, hat, hleaf⟩, hsource, hentered, hown⟩
    obtain ⟨u, hlookup, hu⟩ := Option.bind_eq_some_iff.mp hat
    have hdir : u.isDir = true := by
      cases dirs with
      | nil => exact isDir_of_at?_cons hu
      | cons => exact isDir_of_at?_cons hu
    obtain ⟨es', rfl⟩ := Tree.eq_dir_of_isDir hdir
    obtain ⟨hn, hdirs⟩ := List.forall_mem_cons.mp hentered
    refine ⟨es', hlookup, hn, ?_, ⟨t, hu, hleaf⟩, hsource, hdirs, fun ds _ hpre => ?_⟩
    · exact hown [n] (List.cons_ne_nil _ _) (List.cons_prefix_cons.mpr ⟨rfl, List.nil_prefix⟩)
    · exact hown (n :: ds) (List.cons_ne_nil _ _) (List.cons_prefix_cons.mpr ⟨rfl, hpre⟩)
  · rintro ⟨es', hlookup, hn, hstop, ⟨t, hu, hdir⟩, hsource, hdirs, hown⟩
    have hat : Tree.at? (n :: dirs ++ [name]) (.dir es) = some t := by
      rw [List.cons_append, Tree.at?_cons]
      exact Option.bind_eq_some_iff.mpr ⟨.dir es', hlookup, hu⟩
    refine ⟨⟨t, hat, hdir⟩, hsource, List.forall_mem_cons.mpr ⟨hn, hdirs⟩, fun ds hne hpre => ?_⟩
    obtain ⟨m, ds, rfl⟩ := List.exists_cons_of_ne_nil hne
    obtain ⟨rfl, -⟩ := List.cons_prefix_cons.mp hpre
    by_cases hds : ds = []
    · exact hds ▸ hstop
    · exact hown ds hds (List.cons_prefix_cons.mp hpre).2

theorem mem_sourcesAt_leaf (h : t.isDir = false) {way : List String} :
    way ∈ sourcesAt stops name t ↔ way = [] ∧ IsSource name := by
  cases t with
  | dir es => cases h
  | file | link =>
    rw [sourcesAt, List.mem_ite_nil_right, List.mem_singleton, isSourceName_iff, and_comm]

theorem mem_sourcesAt_dir {way : List String} : way ∈ sourcesAt stops name (.dir es) ↔
    ¬ IsLeftOut name ∧ stops [] = false ∧ way ∈ sourcesIn stops es := by
  rw [sourcesAt, List.mem_ite_nil_left, Bool.or_eq_true, not_or, skipsDirectory_iff, and_assoc,
    Bool.not_eq_true]

theorem nil_notMem_sourcesIn : [] ∉ sourcesIn stops es := by
  rw [sourcesIn_eq_flatMap]
  simp

theorem cons_mem_sourcesIn_iff (h : (Tree.dir es).WellFormed) {n : String} {way : List String} :
    n :: way ∈ sourcesIn stops es ↔
      ∃ u, es.lookup n = some u ∧ way ∈ sourcesAt (fun ds => stops (n :: ds)) n u := by
  rw [sourcesIn_eq_flatMap]
  simp only [List.mem_flatMap, List.mem_map, List.cons.injEq, h.lookup_iff]
  constructor
  · rintro ⟨⟨m, u⟩, hmem, way', hway, rfl, rfl⟩
    exact ⟨u, hmem, hway⟩
  · rintro ⟨u, hmem, hway⟩
    exact ⟨(n, u), hmem, way, hway, rfl, rfl⟩

/-- **The ways that are listed lead to the source files.** -/
theorem mem_sourcesIn_iff (h : t.WellFormed) {way : List String} :
    way ∈ sourcesIn stops t.entries ↔
      ∃ dirs name, way = dirs ++ [name] ∧ Listed stops t.entries dirs name := by
  induction h generalizing stops way with
  | file | link =>
    refine iff_of_false List.not_mem_nil ?_
    rintro ⟨dirs, name, -, ⟨t, hat, -⟩, -⟩
    cases dirs <;> cases hat
  | dir es named sorted below ih =>
    have hes : (Tree.dir es).WellFormed := .dir es named sorted below
    show way ∈ sourcesIn stops es ↔ ∃ dirs name, way = dirs ++ [name] ∧ Listed stops es dirs name
    cases way with
    | nil => exact iff_of_false nil_notMem_sourcesIn (by simp)
    | cons n way =>
      rw [cons_mem_sourcesIn_iff hes]
      constructor
      · rintro ⟨u, hlookup, hway⟩
        cases hu : u.isDir with
        | false =>
          obtain ⟨rfl, hsource⟩ := (mem_sourcesAt_leaf hu).mp hway
          exact ⟨[], n, rfl, listed_nil_iff.mpr ⟨hsource, u, hlookup, hu⟩⟩
        | true =>
          obtain ⟨es', rfl⟩ := Tree.eq_dir_of_isDir hu
          obtain ⟨hn, hstop, hway⟩ := mem_sourcesAt_dir.mp hway
          obtain ⟨dirs, name, rfl, hlisted⟩ := (ih _ (mem_of_lookup_entries hlookup)).mp hway
          exact ⟨n :: dirs, name, rfl, listed_cons_iff.mpr ⟨es', hlookup, hn, hstop, hlisted⟩⟩
      · rintro ⟨dirs, name, heq, hlisted⟩
        cases dirs with
        | nil =>
          obtain ⟨rfl, rfl⟩ := List.cons.inj heq
          obtain ⟨hsource, u, hlookup, hu⟩ := listed_nil_iff.mp hlisted
          exact ⟨u, hlookup, (mem_sourcesAt_leaf hu).mpr ⟨rfl, hsource⟩⟩
        | cons m dirs =>
          obtain ⟨rfl, rfl⟩ := List.cons.inj heq
          obtain ⟨es', hlookup, hn, hstop, hlisted⟩ := listed_cons_iff.mp hlisted
          have hin := (ih _ (mem_of_lookup_entries hlookup)).mpr ⟨dirs, name, rfl, hlisted⟩
          exact ⟨.dir es', hlookup, mem_sourcesAt_dir.mpr ⟨hn, hstop, hin⟩⟩

theorem sourcesAt_of_isDir_eq_false (h : t.isDir = false) :
    sourcesAt stops name t = if isSourceName name then [[]] else [] := by
  cases t with
  | dir es => cases h
  | file | link => rw [sourcesAt]

theorem sourcesIn_congr {stops' : List String → Bool} (h : t.WellFormed)
    (hstops : ∀ dirs, (∀ n ∈ dirs, IsEntryName n) → stops dirs = stops' dirs) :
    sourcesIn stops t.entries = sourcesIn stops' t.entries := by
  induction h generalizing stops stops' with
  | file | link => rfl
  | dir es named sorted below ih =>
    show sourcesIn stops es = sourcesIn stops' es
    rw [sourcesIn_eq_flatMap, sourcesIn_eq_flatMap]
    refine List.flatMap_congr fun x hx => congrArg _ ?_
    have hbelow : ∀ dirs, (∀ n ∈ dirs, IsEntryName n) → stops (x.1 :: dirs) = stops' (x.1 :: dirs) :=
      fun dirs hdirs => hstops _ (List.forall_mem_cons.mpr ⟨named x hx, hdirs⟩)
    cases hu : x.2.isDir with
    | false => rw [sourcesAt_of_isDir_eq_false hu, sourcesAt_of_isDir_eq_false hu]
    | true =>
      obtain ⟨es', hes'⟩ := Tree.eq_dir_of_isDir hu
      have hways := ih x hx hbelow
      rw [hes'] at hways ⊢
      rw [sourcesAt, sourcesAt, hbelow [] nofun]
      exact congrArg _ hways

/-! ## 4. Files by directory -/

/-- A directory with the files of a group. -/
def SourceDir.ofGroup (g : String × List String) : SourceDir := ⟨g.1, g.2⟩

theorem addToDir_map (file : String) : ∀ gs : List (String × List String),
    addToDir file (gs.map .ofGroup) = (groupInto dirName file gs).map .ofGroup
  | [] => rfl
  | (dir, files) :: gs => by
      have ih := addToDir_map file gs
      rw [List.map_cons, addToDir, groupInto]
      by_cases hdir : (dir == dirName file) = true
      · rw [if_pos hdir]
        exact if_pos hdir
      · rw [if_neg hdir, List.map_cons, ← ih]
        exact if_neg hdir

theorem foldl_addToDir (files : List String) : ∀ gs : List (String × List String),
    files.foldl (fun ds f => addToDir f ds) (gs.map .ofGroup) =
      (files.foldl (fun gs f => groupInto dirName f gs) gs).map .ofGroup := by
  induction files with
  | nil => exact fun _ => rfl
  | cons f files ih =>
    intro gs
    rw [List.foldl_cons, List.foldl_cons, addToDir_map, ih]

/-- **Files are grouped under their directories** as they came. -/
theorem groupByDir_eq (files : List String) :
    groupByDir files =
      ((groupsOf dirName files (files.map dirName).eraseDups).map .ofGroup).mergeSort
        fun a b => decide (a.path ≤ b.path) := by
  have hgroups := foldl_addToDir files []
  rw [foldl_groupInto] at hgroups
  exact congrArg (List.mergeSort · _) hgroups

theorem mem_groupByDir_iff {files : List String} {d : SourceDir} :
    d ∈ groupByDir files ↔
      ∃ f ∈ files, d = ⟨dirName f, files.filter (dirName · == dirName f)⟩ := by
  rw [groupByDir_eq, (List.mergeSort_perm _ _).mem_iff, List.mem_map]
  simp only [groupsOf, List.mem_map, List.mem_eraseDups]
  constructor
  · rintro ⟨_, ⟨_, ⟨f, hf, rfl⟩, rfl⟩, rfl⟩
    exact ⟨f, hf, rfl⟩
  · rintro ⟨f, hf, rfl⟩
    exact ⟨_, ⟨_, ⟨f, hf, rfl⟩, rfl⟩, rfl⟩

theorem files_of_mem_groupByDir {files : List String} {d : SourceDir} (h : d ∈ groupByDir files) :
    d.files = files.filter (dirName · == d.path) := by
  obtain ⟨f, -, rfl⟩ := mem_groupByDir_iff.mp h
  rfl

variable {given : List String → String → Prop} {ways : List (List String)}

variable {w : Workspace} {root : String} {names : List String}

theorem ne_empty_of_resolve {follow : Bool} {f : Found} (h : w.resolve follow root = .ok f) :
    root ≠ "" := by
  rintro rfl
  cases h

theorem isEntryName_of_mem_sourcesIn (hwf : (Tree.dir es).WellFormed) {way : List String}
    (h : way ∈ sourcesIn stops es) : ∀ n ∈ way, IsEntryName n := by
  obtain ⟨dirs, name, rfl, ⟨t, hat, -⟩, -⟩ := (mem_sourcesIn_iff hwf).mp h
  exact (hwf.at? hat).2

/-- What a walk through a directory collects, as ways from the directory. -/
theorem collect_eq (hwf : (Tree.dir es).WellFormed)
    (hroot : w.resolve false root = .ok ⟨names, .dir es⟩) :
    (collect w root).1 = groupByDir ((sourcesIn (holdsModule w root) es).map relPath) := by
  have hfiles : (collectRoot w root (.dir es)).files =
      (sourcesIn (holdsModule w root) es).map (below root) := files_collectEntries w root es
  have hne : root ≠ "" := ne_empty_of_resolve hroot
  have hways : (sourcesIn (holdsModule w root) es).map (relativePath root ∘ below root) =
      (sourcesIn (holdsModule w root) es).map relPath := by
    refine List.map_congr_left fun way hway => ?_
    rw [Function.comp_apply]
    exact relativePath_below hne (isEntryName_of_mem_sourcesIn hwf hway)
  have hcollect : (collect w root).1 =
      groupByDir ((collectRoot w root (.dir es)).files.map (relativePath root)) := by
    unfold collect
    rw [hroot]
  rw [hcollect, hfiles, List.map_map, hways]

end DocAudit.Files
