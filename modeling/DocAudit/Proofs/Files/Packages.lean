import DocAudit.Proofs.Files.Flat
import DocAudit.Proofs.Files.Scan
import DocAudit.Proofs.Group
import DocAudit.Proofs.Inventory.Scope

/-!
# Directories with several packages

All packages of a directory have the import path of the directory, so elements of different packages
may have the same key.  A scan keeps the first of them.

* `groupByPackage_eq`: files are grouped under the names of their packages;
* `scanProject_eq_found`: the inventory of a project lists what is found in each directory, package
  by package;
* `scan_keeps_first`: an element of a package is kept, with its text, if and only if no earlier
  package of its directory has an element with its key; the key is found in any case.
-/

namespace DocAudit.Files

open Policy

/-! ## 1. Files by package -/

/-- The names of the packages that some files belong to, in the order of appearance. -/
def packagesOf (fs : List Source.File) : List String := (fs.map (·.package)).eraseDups

theorem mem_packagesOf_iff {fs : List Source.File} {name : String} :
    name ∈ packagesOf fs ↔ ∃ f ∈ fs, f.package = name := by
  simp [packagesOf]

theorem addToPackage_eq (f : Source.File) : ∀ ps : List (String × List Source.File),
    addToPackage f ps = groupInto (·.package) f ps
  | [] => rfl
  | (name, fs) :: ps => by rw [addToPackage, groupInto, addToPackage_eq f ps]

/-- **Files are grouped under the names of their packages**, in the order of appearance. -/
theorem groupByPackage_eq (fs : List Source.File) :
    groupByPackage fs = (packagesOf fs).map fun n => (n, fs.filter (·.package == n)) := by
  unfold groupByPackage
  simp only [addToPackage_eq, foldl_groupInto]
  rfl

/-! ## 2. What is found in a directory -/

/-- The names of the packages in a directory, those of its files that can be parsed. -/
def packageNames (w : Workspace) (root : String) (d : SourceDir) : List String :=
  packagesOf (packageAt w root d).files

/-- One of the packages in a directory. -/
def packageNamed (w : Workspace) (root : String) (d : SourceDir) (name : String) :
    Source.Package :=
  { packageAt w root d with files := (packageAt w root d).files.filter (·.package == name) }

/-- What is extracted from the files of one of the packages in a directory. -/
def inventoryNamed (w : Workspace) (root : String) (scope : Scope) (d : SourceDir) (name : String) :
    Inventory :=
  .ofPackage (packageNamed w root d name) scope

/-- What a scan finds in a directory: the elements of each of its packages, with their texts. -/
def foundAt (w : Workspace) (root : String) (scope : Scope) (d : SourceDir) :
    List (Element × Option String) :=
  if passes scope.packages (packageAt w root d).importPath then
    (packageNames w root d).flatMap fun name => (inventoryNamed w root scope d name).entries
  else []

/-- The first element with a key in some packages of a directory, with its text. -/
def firstWithKey (w : Workspace) (root : String) (scope : Scope) (d : SourceDir)
    (names : List String) (k : ElementKey) : Option (Element × Option String) :=
  names.findSome? fun name => (inventoryNamed w root scope d name).entries.find? (·.1.key == k)

variable {w : Workspace} {root name : String} {scope : Scope} {d : SourceDir} {e : Element}

theorem name_packageNamed (h : name ∈ packageNames w root d) :
    (packageNamed w root d name).name = name := by
  obtain ⟨f, hf, hname⟩ := mem_packagesOf_iff.mp h
  have hmem : f ∈ (packageNamed w root d name).files :=
    List.mem_filter.mpr ⟨hf, beq_iff_eq.mpr hname⟩
  unfold Source.Package.name
  cases hfs : (packageNamed w root d name).files with
  | nil => simp [hfs] at hmem
  | cons g gs =>
    have hg : g ∈ (packageNamed w root d name).files := by simp [hfs]
    exact beq_iff_eq.mp (List.mem_filter.mp hg).2

theorem flatMap_entries_scanDir :
    (scanDir w root (modulePath w root).1 scope d).1.flatMap Inventory.entries =
      foundAt w root scope d := by
  rw [inventories_scanDir, groupByPackage_eq]
  unfold foundAt
  split
  · rw [if_pos (by assumption), List.map_map, List.flatMap_map]
    rfl
  · rw [if_neg (by assumption)]
    rfl

/-- **The inventory of a project lists what is found in each directory.** -/
theorem scanProject_eq_found (scope : Scope) {f : Found} (hroot : w.resolve true root = .ok f)
    (hdir : f.tree.isDir = true) :
    (scanProject w root scope false).1 =
      .ok (Inventory.empty.addAll ((collect w root).1.flatMap (foundAt w root scope))) := by
  unfold scanProject
  simp only [hroot, hdir, Bool.not_true, Bool.false_eq_true, if_false]
  rw [Inventory.foldl_merge, List.flatMap_map, List.flatMap_assoc]
  simp only [flatMap_entries_scanDir]

theorem mem_foundAt_iff {x : Element × Option String} :
    x ∈ foundAt w root scope d ↔ passes scope.packages (packageAt w root d).importPath = true ∧
      ∃ name ∈ packageNames w root d,
        x ∈ (inventoryNamed w root scope d name).entries := by
  rw [foundAt, List.mem_ite_nil_right, List.mem_flatMap]

/-! ## 3. Which element is kept -/

theorem findSome?_of_unique {α β : Type} {f : α → Option β} {a : α} : ∀ {l : List α},
    a ∈ l → (∀ b ∈ l, b ≠ a → f b = none) → l.findSome? f = f a
  | b :: l, ha, hother => by
      rw [List.findSome?_cons]
      by_cases hb : b = a
      · subst hb
        cases hf : f b with
        | some _ => rfl
        | none =>
          refine List.findSome?_eq_none_iff.mpr fun c hc => ?_
          by_cases hcb : c = b
          · rw [hcb, hf]
          · exact hother c (List.mem_cons_of_mem _ hc) hcb
      · rw [hother b List.mem_cons_self hb]
        have ha : a ∈ l := (List.mem_cons.mp ha).resolve_left (Ne.symm hb)
        exact findSome?_of_unique ha fun c hc => hother c (List.mem_cons_of_mem _ hc)

/-- The first element with a key of a directory's package is found in this directory. -/
theorem find?_collect (hd : d ∈ (collect w root).1)
    (he : e ∈ (inventoryNamed w root scope d name).elements) :
    ((collect w root).1.flatMap (foundAt w root scope)).find? (·.1.key == e.key) =
      (foundAt w root scope d).find? (·.1.key == e.key) := by
  rw [List.find?_flatMap]
  refine findSome?_of_unique hd fun d' hd' hne => List.find?_eq_none.mpr fun x hx hkey => ?_
  obtain ⟨-, name', -, hx⟩ := mem_foundAt_iff.mp hx
  have hkeys : e.key ∈ (inventoryNamed w root scope d' name').elements.map Element.key := by
    rw [← Inventory.keys_entries, ← beq_iff_eq.mp hkey]
    exact List.mem_map_of_mem hx
  have hpath : (packageAt w root d').importPath ≠ (packageAt w root d).importPath := by
    intro heq
    exact hne (List.inj_on_of_nodup_map (importPaths_nodup _ w root) hd' hd heq)
  exact Inventory.disjoint_keys (p := packageNamed w root d' name')
    (q := packageNamed w root d name) hpath hkeys (List.mem_map_of_mem he)

/-- In a directory, an element with a key is looked for in one package after the other. -/
theorem find?_foundAt {before after : List String}
    (hadm : passes scope.packages (packageAt w root d).importPath = true)
    (hnames : packageNames w root d = before ++ name :: after)
    (he : e ∈ (inventoryNamed w root scope d name).elements) :
    (foundAt w root scope d).find? (·.1.key == e.key) =
      (firstWithKey w root scope d before e.key).or
        (some (e, (inventoryNamed w root scope d name).doc? e)) := by
  have hdistinct : (inventoryNamed w root scope d name).Distinct :=
    Inventory.distinct_ofPackage _ _
  rw [foundAt, if_pos hadm, hnames, List.find?_flatMap, List.findSome?_append, List.findSome?_cons,
    hdistinct.find?_entries he, firstWithKey]

/-- An element belongs to one package of a directory only. -/
theorem name_eq_of_mem {earlier : String} (hname : name ∈ packageNames w root d)
    (hearlier : earlier ∈ packageNames w root d)
    (he : e ∈ (inventoryNamed w root scope d name).elements)
    (he' : e ∈ (inventoryNamed w root scope d earlier).elements) : earlier = name := by
  have h := Inventory.name_eq_of_mem (by rfl) he' he
  rwa [name_packageNamed hname, name_packageNamed hearlier] at h

theorem firstWithKey_eq_none_iff {names : List String} {k : ElementKey} :
    firstWithKey w root scope d names k = none ↔
      ∀ name ∈ names, (inventoryNamed w root scope d name).hasKey k = false := by
  rw [firstWithKey, List.findSome?_eq_none_iff]
  exact forall₂_congr fun _ _ => Inventory.find?_entries_eq_none_iff

theorem mem_of_firstWithKey {names : List String} {k : ElementKey} {x : Element × Option String}
    (h : firstWithKey w root scope d names k = some x) :
    ∃ name ∈ names, x.1 ∈ (inventoryNamed w root scope d name).elements := by
  obtain ⟨name, hname, hx⟩ := List.exists_of_findSome?_eq_some h
  obtain ⟨e, he, rfl⟩ := List.mem_map.mp (List.mem_of_find?_eq_some hx)
  exact ⟨name, hname, he⟩

theorem takeWhile_of_notMem {before after : List String} (h : name ∉ before) :
    (before ++ name :: after).takeWhile (· != name) = before := by
  rw [List.takeWhile_append_of_pos]
  · simp
  · intro earlier hearlier
    exact bne_iff_ne.mpr fun heq => h (heq ▸ hearlier)

/-- **A scan keeps the first element with a key**: an element that is extracted from a package of a
directory is listed if and only if nothing with its key is extracted from an earlier package of the
directory, and then with its text.  Its key is listed in any case. -/
theorem scan_keeps_first (scope : Scope) {f : Found} (hroot : w.resolve true root = .ok f)
    (hdir : f.tree.isDir = true) :
    ∃ v, (scanProject w root scope false).1 = .ok v ∧
      ∀ d ∈ (collect w root).1, passes scope.packages (packageAt w root d).importPath = true →
        ∀ name ∈ packageNames w root d, ∀ e ∈ (inventoryNamed w root scope d name).elements,
          v.hasKey e.key = true ∧
          (e ∈ v.elements → v.doc? e = (inventoryNamed w root scope d name).doc? e) ∧
          (e ∈ v.elements ↔
            ∀ earlier ∈ (packageNames w root d).takeWhile (· != name),
              (inventoryNamed w root scope d earlier).hasKey e.key = false) := by
  refine ⟨_, scanProject_eq_found scope hroot hdir, fun d hd hadm name hname e he => ?_⟩
  obtain ⟨before, after, hnames, hfirst⟩ := List.eq_append_cons_of_mem hname
  have hfind := (find?_collect hd he).trans (find?_foundAt hadm hnames he)
  have hnone : Inventory.empty.hasKey e.key = false := rfl
  have hkey : (Inventory.empty.addAll ((collect w root).1.flatMap (foundAt w root scope))).hasKey
      e.key = true := by
    rw [Inventory.hasKey_addAll, hnone, Bool.false_or, List.any_eq_true, ← List.find?_isSome, hfind]
    simp
  -- What an earlier package has with this key is another element, and found first.
  have hmem : e ∈ (Inventory.empty.addAll ((collect w root).1.flatMap
      (foundAt w root scope))).elements ↔ firstWithKey w root scope d before e.key = none := by
    rw [Inventory.mem_addAll_iff, hnone, hfind]
    cases hbefore : firstWithKey w root scope d before e.key with
    | none => simp
    | some x =>
      obtain ⟨earlier, hearlier, hx⟩ := mem_of_firstWithKey hbefore
      have hnamed : earlier ∈ packageNames w root d := by
        rw [hnames]
        exact List.mem_append_left _ hearlier
      have hother : x.1 ≠ e := by
        rintro rfl
        exact hfirst (name_eq_of_mem hname hnamed he hx ▸ hearlier)
      simp [hother, Inventory.empty]
  refine ⟨hkey, fun he => ?_, ?_⟩
  · rw [Inventory.doc?, Inventory.docAt?_addAll _ Inventory.docsBelong_empty, hnone, hfind,
      hmem.mp he]
    rfl
  · rw [hmem, hnames, takeWhile_of_notMem hfirst, firstWithKey_eq_none_iff]

/-! ## 4. Two packages in one directory -/

/-- A source text of a package with one function. -/
def functionText (package : String) : String := "package " ++ package ++ "\n\nfunc F() \x7b\x7d\n"

/-- A directory with two packages that declare a function of the same name. -/
def twoPackages : Workspace :=
  flatProject "proj" [("a.go", functionText "a"), ("b.go", functionText "b")]

/-- Their files. -/
def twoFiles : SourceDir := ⟨".", ["a.go", "b.go"]⟩

theorem collect_twoPackages : (collect twoPackages ".").1 = [twoFiles] :=
  collect_flat (by decide) (by decide)

theorem packageAt_twoPackages :
    packageAt twoPackages "." twoFiles =
      ⟨"proj", ["a", "b"].filterMap fun p => Source.File.parse? (p ++ ".go") (functionText p)⟩ := by
  have hmodule : baseName (twoPackages.absolute ".") = "proj" := by decide
  rw [twoPackages] at hmodule ⊢
  rw [twoFiles, packageAt_flat (by decide) (by decide), hmodule]
  rfl

/-- The function of one of the packages, found in the file called like the package. -/
def functionOf (package : String) : Element where
  kind := .function
  qualifiedName := "proj.F"
  displayName := package ++ ".F"
  name := "F"
  sourceFile := package ++ ".go"
  line := 3
  visibility := .pub
  memberKinds := [.function]
  accessorKinds := []
  package := "proj"
  signature := "F()"
  annotations := []

theorem found_twoPackages :
    packageNames twoPackages "." twoFiles = ["a", "b"] ∧
      ∀ p ∈ ["a", "b"], inventoryNamed twoPackages "." (Source.Package.wholeScope false)
        twoFiles p = ⟨[functionOf p], []⟩ := by
  unfold inventoryNamed packageNames packageNamed
  rw [packageAt_twoPackages]
  decide +kernel

theorem scan_keeps_first_of_two :
    ∃ v, (scanProject twoPackages "." (Source.Package.wholeScope false) false).1 = .ok v ∧
      functionOf "a" ∈ v.elements ∧ functionOf "b" ∉ v.elements ∧
      v.hasKey (functionOf "b").key = true := by
  obtain ⟨v, hv, hkeeps⟩ := scan_keeps_first (Source.Package.wholeScope false)
    (resolve_flat_root "proj" [("a.go", functionText "a"), ("b.go", functionText "b")] true) rfl
  obtain ⟨hnames, hfound⟩ := found_twoPackages
  have hdir : twoFiles ∈ (collect twoPackages ".").1 := by
    rw [collect_twoPackages]
    exact List.mem_singleton.mpr rfl
  have hkept := hkeeps _ hdir rfl
  rw [← twoPackages, hnames] at hkept
  have hfirst := hkept "a" (by decide) (functionOf "a") (by rw [hfound "a" (by decide)]; decide)
  have hsecond := hkept "b" (by decide) (functionOf "b") (by rw [hfound "b" (by decide)]; decide)
  refine ⟨v, hv, hfirst.2.2.mpr (by decide), fun hb => ?_, hsecond.1⟩
  have hnew := hsecond.2.2.mp hb "a" (by decide)
  rw [hfound "a" (by decide)] at hnew
  revert hnew
  decide

/-- The function of the second package is extracted, but the scan does not list it. -/
theorem not_listed_of_second_package :
    ∃ d ∈ (collect twoPackages ".").1, "b" ∈ packageNames twoPackages "." d ∧
      passes (Source.Package.wholeScope false).packages (packageAt twoPackages "." d).importPath ∧
      ∃ v, (scanProject twoPackages "." (Source.Package.wholeScope false) false).1 = .ok v ∧
        functionOf "b" ∈
          (inventoryNamed twoPackages "." (Source.Package.wholeScope false) d "b").elements ∧
        functionOf "b" ∉ v.elements := by
  obtain ⟨hnames, hfound⟩ := found_twoPackages
  have hscan := scanProject_eq_found (w := twoPackages) (Source.Package.wholeScope false)
    (resolve_flat_root "proj" [("a.go", functionText "a"), ("b.go", functionText "b")] true) rfl
  have hadm : passes (Source.Package.wholeScope false).packages
      (packageAt twoPackages "." twoFiles).importPath = true := rfl
  have hboth : foundAt twoPackages "." (Source.Package.wholeScope false) twoFiles =
      [(functionOf "a", none), (functionOf "b", none)] := by
    rw [foundAt, if_pos hadm, hnames, List.flatMap_cons, List.flatMap_cons,
      hfound "a" (by decide), hfound "b" (by decide)]
    rfl
  rw [collect_twoPackages, List.flatMap_singleton, hboth] at hscan
  refine ⟨twoFiles, ?_, ?_, hadm, _, hscan, ?_, by decide⟩
  · rw [collect_twoPackages]
    exact List.mem_singleton.mpr rfl
  · rw [hnames]
    decide
  · rw [hfound "b" (by decide)]
    decide

end DocAudit.Files
