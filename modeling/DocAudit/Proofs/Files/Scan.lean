import DocAudit.Proofs.Files.Collect
import DocAudit.Proofs.Inventory.Keys
import DocAudit.Proofs.Rule.Local

/-!
# The inventory of a project

If the files of each directory belong to one package, the inventory of a project is made of those of
its packages, and nothing of them gets lost or mixed up.

* `scanProject_eq_addAll`: the inventory of a project lists the packages one after the other;
* `partOf_scanProject`: it has of every directory's package what the package has by itself.
-/

namespace DocAudit.Files

open Policy

/-! ## 1. The package of a directory -/

/-- The package in a directory, with the files that can be parsed. -/
def packageAt (w : Workspace) (root : String) (d : SourceDir) : Source.Package :=
  ⟨importPath (modulePath w root).1 d.path, d.files.filterMap (parseFile w root)⟩

/-- **Every directory holds one package**: the files in it that can be parsed agree on its name. -/
def OnePackageEach (w : Workspace) (root : String) : Prop :=
  ∀ d ∈ (collect w root).1, ∃ name, ∀ f ∈ (packageAt w root d).files, f.package = name

/-- What a scan finds in a directory that holds one package. -/
def inventoryAt (w : Workspace) (root : String) (scope : Scope) (d : SourceDir) : Inventory :=
  if passes scope.packages (packageAt w root d).importPath then
    .ofPackage (packageAt w root d) scope
  else .empty

variable {w : Workspace} {root : String} {scope : Scope} {d : SourceDir}

theorem path_of_parseFile {file : String} {f : Source.File} (h : parseFile w root file = some f) :
    f.path = file := by
  unfold parseFile at h
  split at h
  · obtain ⟨text, -, hparse⟩ := Option.bind_eq_some_iff.mp h
    simp only [Source.File.parse?, Option.bind_eq_bind, Option.bind_eq_some_iff] at hparse
    obtain ⟨_, -, _, -, _, -, hf⟩ := hparse
    cases hf
    rfl
  · cases h

/-- No file of a package in a project is a test file. -/
theorem notTest_of_mem_packageAt (hd : d ∈ (collect w root).1) {f : Source.File}
    (hf : f ∈ (packageAt w root d).files) : Text.hasEnd f.path "_test.go" = false := by
  obtain ⟨files, hgroup, htest⟩ := grouped_collect w root
  obtain ⟨file, hfile, hparse⟩ := List.mem_filterMap.mp hf
  rw [path_of_parseFile hparse]
  exact htest file (hgroup.mem d hd file hfile)

theorem foldl_addToPackage {name : String} : ∀ (fs before : List Source.File),
    (∀ f ∈ fs, f.package = name) →
      fs.foldl (fun ps f => addToPackage f ps) [(name, before)] = [(name, before ++ fs)]
  | [], before, _ => by simp
  | f :: fs, before, h => by
      have hf : f.package = name := h f List.mem_cons_self
      have ih := foldl_addToPackage fs (before ++ [f]) fun g hg => h g (List.mem_cons_of_mem _ hg)
      simpa [addToPackage, hf] using ih

/-- Files of one package are grouped under its name. -/
theorem groupByPackage_of_forall {name : String} {f : Source.File} {fs : List Source.File}
    (h : ∀ g ∈ f :: fs, g.package = name) : groupByPackage (f :: fs) = [(name, f :: fs)] := by
  have hf : f.package = name := h f List.mem_cons_self
  have := foldl_addToPackage fs [f] fun g hg => h g (List.mem_cons_of_mem _ hg)
  simpa [groupByPackage, addToPackage, hf] using this

/-- The inventories of a directory, one for each package in it. -/
theorem inventories_scanDir (module : String) :
    (scanDir w root module scope d).1 =
      if passes scope.packages (importPath module d.path) then
        (groupByPackage (d.files.filterMap (parseFile w root))).map fun ps =>
          Inventory.ofPackage ⟨importPath module d.path, ps.2⟩ scope
      else [] := by
  have hparsed : (d.files.map fun f => (f, parseFile w root f)).filterMap (·.2) =
      d.files.filterMap (parseFile w root) := by
    rw [List.filterMap_map]
    rfl
  unfold scanDir
  by_cases h : passes scope.packages (importPath module d.path) = true
  · simp [h, hparsed]
  · simp [h]

theorem entries_scanDir
    (h : ∃ name, ∀ f ∈ (packageAt w root d).files, f.package = name) :
    (scanDir w root (modulePath w root).1 scope d).1.flatMap Inventory.entries =
      (inventoryAt w root scope d).entries := by
  obtain ⟨name, hname⟩ := h
  rw [inventories_scanDir]
  unfold inventoryAt packageAt
  split
  · cases hfs : d.files.filterMap (parseFile w root) with
    | nil => rfl
    | cons f fs =>
      have hall : ∀ g ∈ f :: fs, g.package = name := by
        rw [← hfs]
        exact hname
      simp [groupByPackage_of_forall hall]
  · rfl

/-! ## 2. The whole and its parts -/

/-- The inventory of a project lists those of its packages one after the other. -/
theorem scanProject_eq_addAll {f : Found} (hroot : w.resolve true root = .ok f)
    (hdir : f.tree.isDir = true) (hone : OnePackageEach w root) :
    (scanProject w root scope false).1 =
      .ok (Inventory.empty.addAll
        ((collect w root).1.flatMap fun d => (inventoryAt w root scope d).entries)) := by
  have hentries : ((collect w root).1.flatMap fun d =>
        (scanDir w root (modulePath w root).1 scope d).1.flatMap Inventory.entries) =
      (collect w root).1.flatMap fun d => (inventoryAt w root scope d).entries :=
    List.flatMap_congr fun d hd => entries_scanDir (hone d hd)
  rw [← hentries]
  unfold scanProject
  simp only [hroot, hdir, Bool.not_true, Bool.false_eq_true, if_false]
  rw [Inventory.foldl_merge, List.flatMap_map, List.flatMap_assoc]

theorem package_of_mem_inventoryAt {e : Element} (h : e ∈ (inventoryAt w root scope d).elements) :
    e.package = (packageAt w root d).importPath := by
  unfold inventoryAt at h
  split at h
  · exact Inventory.package_of_mem_ofPackage h
  · cases h

theorem distinct_inventoryAt : (inventoryAt w root scope d).Distinct := by
  unfold inventoryAt
  split
  · exact Inventory.distinct_ofPackage _ _
  · exact Inventory.distinct_empty

theorem disjoint_inventoryAt {d' : SourceDir}
    (h : (packageAt w root d).importPath ≠ (packageAt w root d').importPath) :
    List.Disjoint ((inventoryAt w root scope d).elements.map Element.key)
      ((inventoryAt w root scope d').elements.map Element.key) := by
  unfold inventoryAt
  split
  · split
    · exact Inventory.disjoint_keys h
    · exact List.disjoint_nil_right _
  · exact List.disjoint_nil_left _

/-- The elements that a project lists have different keys, whatever their packages. -/
theorem nodup_keys (w : Workspace) (root : String) (scope : Scope) :
    (((collect w root).1.flatMap fun d => (inventoryAt w root scope d).entries).map
      (·.1.key)).Nodup := by
  rw [List.map_flatMap, List.nodup_flatMap]
  simp only [Inventory.keys_entries]
  refine ⟨fun d _ => distinct_inventoryAt, ?_⟩
  refine (List.pairwise_map.mp (importPaths_nodup (modulePath w root).1 w root)).imp ?_
  exact fun h => disjoint_inventoryAt h

/-- Of lists with different labels put together, the elements with one label are one list. -/
theorem filter_flatMap_of_nodup {α β : Type} {f : α → List β} {label : α → String}
    {tag : β → String} (htag : ∀ a, ∀ x ∈ f a, tag x = label a) {a : α} : ∀ {l : List α},
    (l.map label).Nodup → a ∈ l → (l.flatMap f).filter (tag · == label a) = f a
  | b :: l, hl, ha => by
      obtain ⟨hb, hl⟩ := List.nodup_cons.mp hl
      rw [List.flatMap_cons, List.filter_append]
      rcases List.mem_cons.mp ha with rfl | ha
      · have hrest : (l.flatMap f).filter (tag · == label a) = [] := by
          rw [List.filter_eq_nil_iff]
          intro x hx heq
          obtain ⟨c, hc, hx⟩ := List.mem_flatMap.mp hx
          rw [htag c x hx, beq_iff_eq] at heq
          exact hb (heq ▸ List.mem_map_of_mem hc)
        rw [hrest, List.append_nil, List.filter_eq_self]
        exact fun x hx => by simp [htag a x hx]
      · have hfirst : (f b).filter (tag · == label a) = [] := by
          rw [List.filter_eq_nil_iff]
          intro x hx heq
          rw [htag b x hx, beq_iff_eq] at heq
          exact hb (heq ▸ List.mem_map_of_mem ha)
        rw [hfirst, List.nil_append]
        exact filter_flatMap_of_nodup htag hl ha

/-- **The inventory of a project has of every directory's package what that has by itself.** -/
theorem partOf_scanProject (scope : Scope) {f : Found} (hroot : w.resolve true root = .ok f)
    (hdir : f.tree.isDir = true) (hone : OnePackageEach w root) :
    ∃ v, (scanProject w root scope false).1 = .ok v ∧
      ∀ d ∈ (collect w root).1,
        (inventoryAt w root scope d).PartOf (packageAt w root d).importPath v := by
  refine ⟨_, scanProject_eq_addAll hroot hdir hone, fun d hd => ?_⟩
  obtain ⟨helems, hdocs⟩ := Inventory.addAll_of_nodup (nodup_keys w root scope)
  constructor
  · rw [helems, List.map_flatMap]
    simp only [Inventory.elements_entries]
    exact filter_flatMap_of_nodup (fun _ _ hx => package_of_mem_inventoryAt hx)
      (importPaths_nodup (modulePath w root).1 w root) hd
  · intro e he
    refine hdocs (e, (inventoryAt w root scope d).doc? e) (List.mem_flatMap.mpr ⟨d, hd, ?_⟩)
    exact List.mem_map_of_mem he

end DocAudit.Files
