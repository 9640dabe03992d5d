import DocAudit.Policy.Compile
import DocAudit.Proofs.Files.Links

/-!
# Projects in the current directory

Without links on the way, what is below the current directory is found by the names that lead there.

* `resolve_here_below` and `resolve_here_below_of_free`: what a way of names leads to, and that a
  name which is free in a directory leads to nothing;
* `parseFile_here`: a text file at the end of a way is parsed from its text;
* `modulePath_here`: without a module file, the module is called like the directory.
-/

namespace DocAudit.Files

/-! ## 1. Ways below the current directory -/

variable {w : Workspace} {es sub : List (String × Tree)} {ns dirs : List String} {name : String}
  {t : Tree} {follow : Bool}

/-- What is below the current directory is looked for from there. -/
theorem locate_here_below (hhere : Tree.at? w.current w.top = some (.dir es)) (follow : Bool)
    (hne : ns ≠ []) (hns : ∀ n ∈ ns, IsEntryName n) :
    ∃ links, w.locate follow (below "." ns) = walk w.top follow links w.current.reverse ns := by
  have hclean : cleanPath "." = "." := by decide
  have hroot : w.resolve true (cleanPath ".") = .ok ⟨w.current, .dir es⟩ := by
    rw [hclean]
    exact resolve_here hhere rfl
  obtain ⟨links, -, hlocate⟩ := locate_below follow (by decide) hroot hne hns
  exact ⟨links, hlocate⟩

theorem at?_here (hhere : Tree.at? w.current w.top = some (.dir es)) (ns : List String) :
    Tree.at? (w.current.reverse.reverse ++ ns) w.top = Tree.at? ns (.dir es) := by
  rw [List.reverse_reverse, Tree.at?_append, hhere]
  rfl

/-- **A way of names leads to what is at its end**, unless it is a link. -/
theorem resolve_here_below (hhere : Tree.at? w.current w.top = some (.dir es))
    (hat : Tree.at? ns (.dir es) = some t) (hlink : ∀ target, t ≠ .link target) (hne : ns ≠ [])
    (hns : ∀ n ∈ ns, IsEntryName n) :
    w.resolve follow (below "." ns) = .ok ⟨w.current ++ ns, t⟩ := by
  obtain ⟨links, hlocate⟩ := locate_here_below hhere follow hne hns
  have hdown : Tree.at? (w.current.reverse.reverse ++ ns) w.top = some t :=
    (at?_here hhere ns).trans hat
  have hend : Tree.at? (ns.reverse ++ w.current.reverse).reverse w.top = some t := by
    rwa [List.reverse_append, List.reverse_reverse ns]
  rw [resolve_eq_ok_iff, hlocate, ← List.append_nil ns, walk_names hlink hdown hns, walk_nil hend,
    List.append_nil, List.reverse_append, List.reverse_reverse, List.reverse_reverse]

/-- **A name that is free in a directory leads to nothing.** -/
theorem resolve_here_below_of_free (hhere : Tree.at? w.current w.top = some (.dir es))
    (hat : Tree.at? dirs (.dir es) = some (.dir sub)) (hdirs : ∀ n ∈ dirs, IsEntryName n)
    (hname : IsEntryName name) (hfree : sub.lookup name = none) :
    w.resolve true (below "." (dirs ++ [name])) = .error .missing := by
  have hne : dirs ++ [name] ≠ [] := List.append_ne_nil_of_right_ne_nil _ (List.cons_ne_nil _ _)
  have hns : ∀ n ∈ dirs ++ [name], IsEntryName n := List.forall_mem_append.mpr ⟨hdirs, by simpa⟩
  obtain ⟨links, hlocate⟩ := locate_here_below hhere true hne hns
  have hdown : Tree.at? (w.current.reverse.reverse ++ dirs) w.top = some (.dir sub) :=
    (at?_here hhere dirs).trans hat
  have hplace : Tree.at? (dirs.reverse ++ w.current.reverse).reverse w.top = some (.dir sub) := by
    rwa [List.reverse_append, List.reverse_reverse dirs]
  have hstep : nextStep w.top true (dirs.reverse ++ w.current.reverse) [name] =
      .stop (.ok (.free (name :: (dirs.reverse ++ w.current.reverse)).reverse)) := by
    rw [nextStep_name hname hplace rfl]
    show stepTo true _ name [] (sub.lookup name) = _
    rw [hfree]
    rfl
  rw [Workspace.resolve, hlocate, walk_names (Tree.dir_ne_link sub) hdown hdirs, walk_eq, hstep]
  rfl

/-- A directory without a module file is no module of its own. -/
theorem holdsModule_here (hhere : Tree.at? w.current w.top = some (.dir es))
    (hat : Tree.at? dirs (.dir es) = some (.dir sub)) (hdirs : ∀ n ∈ dirs, IsEntryName n)
    (hfree : sub.lookup "go.mod" = none) : holdsModule w "." dirs = false := by
  have hmissing := resolve_here_below_of_free hhere hat hdirs (show IsEntryName "go.mod" by decide)
    hfree
  rw [holdsModule, Workspace.exists_, hmissing]
  rfl

/-- **A text file at the end of a way is parsed from its text.** -/
theorem parseFile_here {text : String} (ns : List String)
    (hhere : Tree.at? w.current w.top = some (.dir es))
    (hat : Tree.at? ns (.dir es) = some (.file text.toUTF8)) (hne : ns ≠ [])
    (hns : ∀ n ∈ ns, IsEntryName n) :
    parseFile w "." (relPath ns) = Source.File.parse? (relPath ns) text := by
  have hread : w.read (below "." ns) = .ok text.toUTF8 := by
    rw [Workspace.read, resolve_here_below hhere hat (Tree.file_ne_link _) hne hns]
  have htext : String.fromUTF8? text.toUTF8 = some text := dif_pos text.isValidUTF8
  rw [parseFile_eq_bind, joinPath_relPath (by decide) hne hns, hread]
  show (String.fromUTF8? text.toUTF8).bind _ = _
  rw [htext]
  rfl

theorem resolve_here_of_free (hhere : Tree.at? w.current w.top = some (.dir es))
    (hname : IsEntryName name) (hfree : es.lookup name = none) :
    w.resolve true (joinPath [".", name]) = .error .missing := by
  have hat : Tree.at? [] (.dir es) = some (.dir es) := rfl
  have hmissing := resolve_here_below_of_free hhere hat (List.forall_mem_nil _) hname hfree
  rwa [below_concat, below_nil] at hmissing

/-- What is not in the current directory cannot be read there. -/
theorem read_here_of_free (name : String) (hhere : Tree.at? w.current w.top = some (.dir es))
    (hname : IsEntryName name) (hfree : es.lookup name = none) :
    w.read (joinPath [".", name]) =
      .error (PathError.missing.toError "open" (joinPath [".", name])) := by
  rw [Workspace.read, resolve_here_of_free hhere hname hfree]

/-- Without a module file, the module is called like the current directory. -/
theorem modulePath_here (hhere : Tree.at? w.current w.top = some (.dir es))
    (hfree : es.lookup "go.mod" = none) :
    (modulePath w ".").1 = baseName (w.absolute ".") := by
  unfold modulePath
  rw [read_here_of_free _ hhere (by decide) hfree]
  rfl

/-! ## 2. A project with three packages -/

/-- A text of a package with two functions, the second one with a doc comment. -/
def pairText (package : String) : String :=
  "package " ++ package ++ "\n\nfunc G() \x7b\x7d\n\n// Makes a thing.\nfunc F() \x7b\x7d\n"

/-- The entries of a project with a file of such a text in each of three directories. -/
def nestedEntries : List (String × Tree) :=
  [("a.go", .file (pairText "m").toUTF8), ("gen", .dir [("c.go", .file (pairText "gen").toUTF8)]),
    ("internal", .dir [("b.go", .file (pairText "internal").toUTF8)])]

/-- The project, in the directory `m`. -/
def nestedProject : Workspace := ⟨.dir [("m", .dir nestedEntries)], ["m"]⟩

/-- Its directories. -/
def nestedDirs : List SourceDir :=
  [⟨".", ["a.go"]⟩, ⟨"gen", ["gen/c.go"]⟩, ⟨"internal", ["internal/b.go"]⟩]

/-- The package in one of them, which is called like the directory. -/
def nestedPackage (d : SourceDir) : Source.Package :=
  let name := if d.path == "." then "m" else d.path
  ⟨importPath "m" d.path, d.files.filterMap (Source.File.parse? · (pairText name))⟩

theorem nestedProject_here :
    Tree.at? nestedProject.current nestedProject.top = some (.dir nestedEntries) := rfl

theorem resolve_nestedProject (follow : Bool) :
    nestedProject.resolve follow "." = .ok ⟨["m"], .dir nestedEntries⟩ :=
  resolve_here nestedProject_here rfl

theorem sourcesIn_nestedEntries :
    sourcesIn (holdsModule nestedProject ".") nestedEntries =
      [["a.go"], ["gen", "c.go"], ["internal", "b.go"]] := by
  have hgen : holdsModule nestedProject "." ["gen"] = false :=
    holdsModule_here nestedProject_here rfl (by decide) rfl
  have hinternal : holdsModule nestedProject "." ["internal"] = false :=
    holdsModule_here nestedProject_here rfl (by decide) rfl
  have hplain : skipsDirectory "gen" = false ∧ skipsDirectory "internal" = false := by decide
  have hsource : ∀ name ∈ ["a.go", "b.go", "c.go"], isSourceName name = true := by decide
  simp [nestedEntries, sourcesIn, sourcesAt, hgen, hinternal, hplain, hsource]

theorem collect_nestedProject : (collect nestedProject ".").1 = nestedDirs := by
  have hgroup : ([["a.go"], ["gen", "c.go"], ["internal", "b.go"]].map relPath).foldl
      (fun ds file => addToDir file ds) [] = nestedDirs := by decide
  have hsorted : nestedDirs.Pairwise fun a b => decide (a.path ≤ b.path) = true := by decide
  rw [collect_eq (by decide) (resolve_nestedProject false), sourcesIn_nestedEntries, groupByDir,
    hgroup]
  exact List.mergeSort_of_pairwise hsorted

theorem packageAt_nestedProject :
    ∀ d ∈ nestedDirs, packageAt nestedProject "." d = nestedPackage d := by
  have hmodule : (modulePath nestedProject ".").1 = "m" := by
    rw [modulePath_here nestedProject_here rfl]
    decide
  have hpaths : relPath ["a.go"] = "a.go" ∧ relPath ["gen", "c.go"] = "gen/c.go" ∧
      relPath ["internal", "b.go"] = "internal/b.go" := by decide
  have htop := parseFile_here ["a.go"] nestedProject_here rfl (by decide) (by decide)
  have hgen := parseFile_here ["gen", "c.go"] nestedProject_here rfl (by decide) (by decide)
  have hinternal := parseFile_here ["internal", "b.go"] nestedProject_here rfl (by decide)
    (by decide)
  rw [hpaths.1] at htop
  rw [hpaths.2.1] at hgen
  rw [hpaths.2.2] at hinternal
  intro d hd
  rw [packageAt, hmodule]
  simp only [nestedDirs, List.mem_cons, List.not_mem_nil, or_false] at hd
  rcases hd with rfl | rfl | rfl
  · exact congrArg _ (List.filterMap_congr (List.forall_mem_singleton.mpr htop))
  · exact congrArg _ (List.filterMap_congr (List.forall_mem_singleton.mpr hgen))
  · exact congrArg _ (List.filterMap_congr (List.forall_mem_singleton.mpr hinternal))

/-- One of the two functions of a package in the project, and where it stands. -/
def pairFunction (d : SourceDir) (name : String) (line : Int) : Element where
  kind := .function
  qualifiedName := importPath "m" d.path ++ "." ++ name
  displayName := baseName (importPath "m" d.path) ++ "." ++ name
  name := name
  sourceFile := d.files.headD ""
  line := line
  visibility := if d.path == "internal" then .prot else .pub
  memberKinds := [.function]
  accessorKinds := []
  package := importPath "m" d.path
  signature := name ++ "()"
  annotations := []

/-- What a package in the project declares. -/
def pairInventory (d : SourceDir) : Inventory where
  elements := [pairFunction d "G" 3, pairFunction d "F" 6]
  docs := [((pairFunction d "F" 6).key, "Makes a thing.\n")]

/-- The scope of the default configuration, which leaves no function out. -/
def defaultScope : Policy.Scope := ((Policy.compileAll Config.default).run []).1.scan

/-- **What the files of the project hold**: one package each, with its two functions. -/
theorem nestedPackage_files : ∀ d ∈ nestedDirs, ∃ f, (nestedPackage d).files = [f] ∧
    f.path = d.files.headD "" ∧ f.lines = 6 ∧
    Inventory.ofPackage (nestedPackage d) defaultScope = pairInventory d := by
  have hfiles : ∀ d ∈ nestedDirs, ((nestedPackage d).files.map fun f =>
      (f.path, f.lines, Inventory.ofPackage ⟨importPath "m" d.path, [f]⟩ defaultScope)) =
        [(d.files.headD "", 6, pairInventory d)] := by
    decide +kernel
  intro d hd
  obtain ⟨f, hf, hfacts⟩ := List.map_eq_singleton_iff.mp (hfiles d hd)
  obtain ⟨hpath, hlines, hinventory⟩ : f.path = _ ∧ f.lines = _ ∧ _ = pairInventory d := by
    simpa only [Prod.mk.injEq] using hfacts
  have hpackage : nestedPackage d = ⟨importPath "m" d.path, [f]⟩ := congrArg _ hf
  exact ⟨f, hf, hpath, hlines, hpackage ▸ hinventory⟩

/-- The functions of all packages in the project that are admitted. -/
def nestedInventory (packages : Option Pattern.PatternFilter) : Inventory :=
  Inventory.empty.addAll (nestedDirs.flatMap fun d =>
    if Policy.passes packages (importPath "m" d.path) then (pairInventory d).entries else [])

theorem onePackageEach_nestedProject : OnePackageEach nestedProject "." := by
  intro d hd
  rw [collect_nestedProject] at hd
  obtain ⟨f, hf, -⟩ := nestedPackage_files d hd
  rw [packageAt_nestedProject d hd, hf]
  exact ⟨f.package, List.forall_mem_singleton.mpr rfl⟩

/-- **Whatever packages are admitted, the project has their functions.** -/
theorem scanProject_nestedProject {scope : Policy.Scope}
    (hscope : scope = { defaultScope with packages := scope.packages }) :
    (scanProject nestedProject "." scope false).1 = .ok (nestedInventory scope.packages) := by
  have hfound : ∀ d ∈ nestedDirs, (inventoryAt nestedProject "." scope d).entries =
      if Policy.passes scope.packages (importPath "m" d.path) then (pairInventory d).entries
      else [] := by
    intro d hd
    obtain ⟨f, -, -, -, hinventory⟩ := nestedPackage_files d hd
    have hall : Inventory.ofPackage (nestedPackage d) scope = pairInventory d := by
      rw [hscope]
      exact hinventory
    rw [inventoryAt, packageAt_nestedProject d hd, hall]
    exact apply_ite _ _ _ _
  rw [scanProject_eq_addAll (resolve_nestedProject true) rfl onePackageEach_nestedProject,
    collect_nestedProject, List.flatMap_congr hfound]
  rfl

end DocAudit.Files
