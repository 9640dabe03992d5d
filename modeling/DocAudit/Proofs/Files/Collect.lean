import DocAudit.Files.Project
import DocAudit.Proofs.Files.Path
import Mathlib.Data.List.Nodup

/-!
# Collected files

What a walk through a project collects, said without the walk.

* `notTest_of_mem_collectRoot`: no collected file is a test file;
* `grouped_groupByDir`: files are grouped under different directories, none of them empty;
* `importPath_inj`: different directories have different import paths.
-/

namespace DocAudit.Files

open DocAudit.Text

/-! ## 1. The walk -/

/-- A path that ends in the name of a source file. -/
def IsSourcePath (file : String) : Prop :=
  ∃ dir name, file = joinPath [dir, name] ∧ isSourceName name = true

mutual

theorem isSourcePath_of_mem_collectEntries (w : Workspace) (dir : String) {file : String} :
    ∀ es : List (String × Tree), file ∈ (collectEntries w dir es).files → IsSourcePath file
  | [], h => by
      rw [collectEntries] at h
      cases h
  | (name, t) :: rest, h => by
      rw [collectEntries] at h
      rcases List.mem_append.mp h with h | h
      · exact isSourcePath_of_mem_collectTree w dir name t h
      · exact isSourcePath_of_mem_collectEntries w dir rest h

theorem isSourcePath_of_mem_collectTree (w : Workspace) (dir name : String) {file : String} :
    ∀ t : Tree, file ∈ (collectTree w (joinPath [dir, name]) name t).files → IsSourcePath file
  | .dir es, h => by
      rw [collectTree] at h
      split at h
      · cases h
      · split at h
        · cases h
        · exact isSourcePath_of_mem_collectEntries w _ es h
  | .file _, h => by
      rw [collectTree] at h
      obtain ⟨hname, hfile⟩ := List.mem_ite_nil_right.mp h
      exact ⟨dir, name, List.mem_singleton.mp hfile, hname⟩
  | .link _, h => by
      rw [collectTree] at h
      obtain ⟨hname, hfile⟩ := List.mem_ite_nil_right.mp h
      exact ⟨dir, name, List.mem_singleton.mp hfile, hname⟩

end

/-- A walk finds source files, or the root itself. -/
theorem mem_collectRoot {w : Workspace} {root file : String} {t : Tree}
    (h : file ∈ (collectRoot w root t).files) : file = root ∨ IsSourcePath file := by
  unfold collectRoot at h
  split at h
  · exact .inr (isSourcePath_of_mem_collectEntries w root _ h)
  · exact .inl (List.mem_singleton.mp (List.mem_ite_nil_right.mp h).2)

/-! ## 2. Test files -/

theorem dropCommon_self : ∀ as : List String, dropCommon as as = ([], [])
  | [] => rfl
  | a :: as => by
      rw [dropCommon, if_pos (by simp)]
      exact dropCommon_self as

theorem relativePath_self (path : String) : relativePath path path = "." := by
  unfold relativePath
  rw [dropCommon_self]
  rfl

/-- The last element of a source file's path tells that it is one. -/
theorem isSourceName_lastElement {name : String} {b : List Char} (h : isSourceName name = true)
    (hb : LastElement name.toList b) :
    endsWith ".go".toList b = true ∧ endsWith "_test.go".toList b = false := by
  simp only [isSourceName, Bool.and_eq_true, Bool.not_eq_true'] at h
  obtain ⟨⟨⟨hgo, htest⟩, -⟩, -⟩ := h
  refine ⟨(hb.endsWith_iff (by decide)).mp hgo, ?_⟩
  rw [← Bool.not_eq_true, ← hb.endsWith_iff (by decide), Bool.not_eq_true]
  exact htest

theorem isPlainName_of_endsWith {b : List Char} (h : endsWith ".go".toList b = true) :
    IsPlainName b := by
  refine ⟨?_, ?_, ?_⟩ <;>
  · rintro rfl
    revert h
    decide

/-- The way to a source file leads to no test file. -/
theorem notTest_of_isSourcePath {file : String} (root : String) (h : IsSourcePath file) :
    hasEnd (relativePath root file) "_test.go" = false := by
  obtain ⟨dir, name, rfl, hname⟩ := h
  obtain ⟨b, hb⟩ := exists_lastElement name.toList
  obtain ⟨hgo, htest⟩ := isSourceName_lastElement hname hb
  have hplain := isPlainName_of_endsWith hgo
  rw [← Bool.not_eq_true]
  rcases relativePath_cases root (lastElement_joinPath dir hb hplain) hplain with hdot | hup | hlast
  · rw [hdot]
    decide
  · rw [hasEnd, hup.endsWith_iff (by decide)]
    decide
  · rw [hasEnd, hlast.endsWith_iff (by decide), htest]
    decide

/-- **No collected file is a test file.** -/
theorem notTest_of_mem_collectRoot {w : Workspace} {root file : String} {t : Tree}
    (h : file ∈ (collectRoot w root t).files) :
    hasEnd (relativePath root file) "_test.go" = false := by
  rcases mem_collectRoot h with rfl | hsource
  · rw [relativePath_self]
    decide
  · exact notTest_of_isSourcePath root hsource

/-! ## 3. Directories -/

/-- **Some files by directory**: no directory stands twice, none is without a name, and all of their
files are given ones. -/
structure Grouped (files : List String) (ds : List SourceDir) : Prop where
  nodup : (ds.map (·.path)).Nodup
  path_ne : ∀ d ∈ ds, d.path ≠ ""
  mem : ∀ d ∈ ds, ∀ f ∈ d.files, f ∈ files

theorem paths_addToDir (file : String) : ∀ ds : List SourceDir,
    (addToDir file ds).map (·.path) =
      if dirName file ∈ ds.map (·.path) then ds.map (·.path) else ds.map (·.path) ++ [dirName file]
  | [] => by simp [addToDir]
  | d :: ds => by
      have ih := paths_addToDir file ds
      by_cases hd : d.path = dirName file
      · simp [addToDir, hd]
      · simp only [addToDir, beq_iff_eq, hd, if_false, List.map_cons, ih, List.mem_cons,
          Ne.symm hd, false_or]
        split <;> rfl

theorem mem_addToDir {file : String} {d : SourceDir} : ∀ {ds : List SourceDir},
    d ∈ addToDir file ds → ∀ f ∈ d.files, f = file ∨ ∃ d' ∈ ds, f ∈ d'.files
  | [], hd, f, hf => by
      rw [List.mem_singleton.mp hd] at hf
      exact .inl (List.mem_singleton.mp hf)
  | d' :: ds, hd, f, hf => by
      rw [addToDir] at hd
      split at hd
      · rcases List.mem_cons.mp hd with rfl | hd
        · rcases List.mem_append.mp hf with hf | hf
          · exact .inr ⟨d', List.mem_cons_self, hf⟩
          · exact .inl (List.mem_singleton.mp hf)
        · exact .inr ⟨d, List.mem_cons_of_mem _ hd, hf⟩
      · rcases List.mem_cons.mp hd with rfl | hd
        · exact .inr ⟨d, List.mem_cons_self, hf⟩
        · rcases mem_addToDir hd f hf with hf | ⟨d'', hd'', hf⟩
          · exact .inl hf
          · exact .inr ⟨d'', List.mem_cons_of_mem _ hd'', hf⟩

theorem Grouped.addToDir {files : List String} {ds : List SourceDir} (h : Grouped files ds)
    (file : String) : Grouped (files ++ [file]) (addToDir file ds) := by
  have hpaths := paths_addToDir file ds
  refine ⟨?_, fun d hd => ?_, fun d hd f hf => ?_⟩
  · rw [hpaths]
    split
    · exact h.nodup
    · rename_i hnew
      exact List.Nodup.append h.nodup (List.nodup_singleton _) (by simpa using hnew)
  · have hmem : d.path ∈ ds.map (·.path) ++ [dirName file] := by
      have := List.mem_map_of_mem (f := (·.path)) hd
      rw [hpaths] at this
      split at this
      · exact List.mem_append_left _ this
      · exact this
    rcases List.mem_append.mp hmem with hold | hnew
    · obtain ⟨d', hd', heq⟩ := List.mem_map.mp hold
      exact heq ▸ h.path_ne d' hd'
    · rw [List.mem_singleton.mp hnew]
      exact dirName_ne_empty file
  · rcases mem_addToDir hd f hf with rfl | ⟨d', hd', hf⟩
    · exact List.mem_append_right _ List.mem_cons_self
    · exact List.mem_append_left _ (h.mem d' hd' f hf)

theorem grouped_foldl : ∀ {files ds} (more : List String), Grouped files ds →
    Grouped (files ++ more) (more.foldl (fun ds f => addToDir f ds) ds)
  | files, ds, [], h => by simpa using h
  | files, ds, f :: more, h => by
      have := grouped_foldl more (h.addToDir f)
      rwa [List.append_assoc] at this

/-- **Grouping puts files under different directories.** -/
theorem grouped_groupByDir (files : List String) : Grouped files (groupByDir files) := by
  have hnone : Grouped [] [] := ⟨List.nodup_nil, nofun, nofun⟩
  have h : Grouped files (files.foldl (fun ds f => Files.addToDir f ds) []) :=
    grouped_foldl files hnone
  have hperm := List.mergeSort_perm (files.foldl (fun ds f => Files.addToDir f ds) [])
    fun a b => decide (a.path ≤ b.path)
  refine ⟨(hperm.map (·.path)).nodup_iff.mpr h.nodup, fun d hd => ?_, fun d hd => ?_⟩
  · exact h.path_ne d (hperm.mem_iff.mp hd)
  · exact h.mem d (hperm.mem_iff.mp hd)

/-- The directories of a project, with files that the walk found. -/
theorem grouped_collect (w : Workspace) (root : String) :
    ∃ files, Grouped files (collect w root).1 ∧
      ∀ f ∈ files, hasEnd f "_test.go" = false := by
  unfold collect
  split
  · exact ⟨[], ⟨List.nodup_nil, nofun, nofun⟩, nofun⟩
  · refine ⟨_, grouped_groupByDir _, fun f hf => ?_⟩
    obtain ⟨file, hfile, rfl⟩ := List.mem_map.mp hf
    exact notTest_of_mem_collectRoot hfile

/-! ## 4. Import paths -/

/-- **Different directories have different import paths.** -/
theorem importPath_inj {module a b : String} (ha : a ≠ "") (hb : b ≠ "")
    (h : importPath module a = importPath module b) : a = b := by
  have hlen : ∀ d : String, module ≠ module ++ "/" ++ d := by
    intro d heq
    have := congrArg (fun s => s.toList.length) heq
    simp at this
  unfold importPath at h
  by_cases hda : a = "." <;> by_cases hdb : b = "."
  · rw [hda, hdb]
  · simp only [hda, hdb, hb, beq_iff_eq, Bool.or_eq_true, or_self, if_false, true_or, if_true] at h
    exact absurd h (hlen b)
  · simp only [hda, hdb, ha, beq_iff_eq, Bool.or_eq_true, or_self, if_false, true_or, if_true] at h
    exact absurd h.symm (hlen a)
  · simp only [hda, hdb, ha, hb, beq_iff_eq, Bool.or_eq_true, or_self, if_false] at h
    exact String.toList_inj.mp (by simpa using congrArg String.toList h)

theorem importPaths_nodup (module : String) (w : Workspace) (root : String) :
    ((collect w root).1.map fun d => importPath module d.path).Nodup := by
  obtain ⟨files, hgroup, -⟩ := grouped_collect w root
  refine List.pairwise_map.mpr ((List.pairwise_map.mp hgroup.nodup).imp_of_mem ?_)
  intro d d' hd hd' hne heq
  exact hne (importPath_inj (hgroup.path_ne d hd) (hgroup.path_ne d' hd') heq)

end DocAudit.Files
