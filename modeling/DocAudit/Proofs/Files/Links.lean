import DocAudit.Proofs.Except
import DocAudit.Proofs.Files.Packages
import DocAudit.Proofs.Files.Sources

/-!
# Projects reached through links

A directory has a path without links, from the top, and may be reached by other paths through links.

* `LeadsTo.resolve_below`: what is below a directory is the same on both ways;
* `scan_through_links`: so a scan finds the same by any path that leads through links to the
  directory itself, and nothing by a path that ends with a link to it.
-/

namespace DocAudit.Files

open DocAudit.Text

variable {w : Workspace} {root : String} {names ns : List String} {es : List (String × Tree)}
  {follow : Bool}

/-! ## 1. Where a walk starts -/

/-- The path from the top to what some names lead to. -/
def fromTop (names : List String) : String := "/" ++ join "/" names

/-- The place, innermost name first, where a walk along a path starts. -/
def Workspace.start (w : Workspace) (rooted : Bool) : List String :=
  if rooted then [] else w.current.reverse

theorem hasStart_slash (s : String) : hasStart s "/" = isRooted s := by
  rw [Bool.eq_iff_iff, hasStart, startsWith_iff, isRooted, beq_iff_eq]
  cases s.toList <;> simp [eq_comm]

theorem locate_eq {path : String} (h : path ≠ "") :
    w.locate follow path = walk w.top follow maxLinks (w.start (isRooted path))
      (pathElements path) := by
  rw [Workspace.locate, if_neg (by simpa using h), hasStart_slash]
  rfl

/-- The elements of a clean path. -/
theorem pathElements_pathOfParts {rooted : Bool} {ps : List (List Char)} (hne : ps ≠ [])
    (h : StackOk rooted ps.reverse) :
    pathElements (pathOfParts rooted ps) =
      (if rooted then [""] else []) ++ ps.map String.ofList := by
  rw [pathElements, pieces, splitAt_pathOfParts hne h]
  cases rooted <;> rfl

/-! ## 2. What is below a directory -/

/-- A walk along the elements that cleaning leaves of a path. -/
theorem walk_cleanParts {f : Found} (h : w.resolve true (cleanPath root) = .ok f) :
    walk w.top true maxLinks (w.start (isRooted root))
      ((if isRooted root then [""] else []) ++ (cleanParts root).map String.ofList) =
        .ok (.taken f) := by
  rw [resolve_eq_ok_iff, locate_eq (cleanPath_ne_empty root), isRooted_cleanPath] at h
  by_cases hne : cleanParts root = []
  · rw [hne]
    rw [cleanPath_eq, hne] at h
    cases hrooted : isRooted root with
    | true =>
      have helems : pathElements (pathOfParts true []) = ["", ""] := by decide
      rw [hrooted, helems] at h
      exact walk_of_skip (.inl rfl) h
    | false =>
      have helems : pathElements (pathOfParts false []) = ["."] := by decide
      rw [hrooted, helems] at h
      exact walk_of_skip (.inr rfl) h
  · rwa [cleanPath_eq, pathElements_pathOfParts hne (stackOk_cleanParts root)] at h

/-- **What is below a directory is found from there**, with the links that are left. -/
theorem locate_below (follow : Bool) {f : Found} (hroot : root ≠ "")
    (h : w.resolve true (cleanPath root) = .ok f) (hne : ns ≠ []) (hns : ∀ n ∈ ns, IsEntryName n) :
    ∃ links ≤ maxLinks,
      w.locate follow (below root ns) = walk w.top follow links f.names.reverse ns := by
  have hparts : cleanParts root ++ ns.map String.toList ≠ [] :=
    List.append_ne_nil_of_right_ne_nil _ (mt List.map_eq_nil_iff.mp hne)
  have helems := pathElements_pathOfParts hparts (stackOk_names_cleanParts root hns)
  rw [← below_eq hroot hne hns, List.map_append, map_ofList_toList, ← List.append_assoc] at helems
  rw [locate_eq (below_ne_empty hroot ns), (cleanParts_below hroot hns).1, helems]
  exact walk_append hne (walk_cleanParts h)

theorem fromTop_eq (names : List String) :
    fromTop names = pathOfParts true (names.map String.toList) := by
  rw [pathOfParts, map_ofList_toList]
  rfl

theorem cleanParts_fromTop (hnames : ∀ n ∈ names, IsEntryName n) :
    isRooted (fromTop names) = true ∧ cleanParts (fromTop names) = names.map String.toList := by
  rw [fromTop_eq]
  exact ⟨isRooted_pathOfParts (stackOk_names hnames), cleanParts_pathOfParts (stackOk_names hnames)⟩

theorem fromTop_ne_empty : fromTop names ≠ "" := by simp [fromTop]

/-- A walk down from the top. -/
theorem walk_fromTop {t : Tree} {q : List String} (hlink : ∀ target, t ≠ .link target)
    (hat : Tree.at? names w.top = some t) (hdir : w.top.isDir = true)
    (hnames : ∀ n ∈ names, IsEntryName n) :
    walk w.top follow maxLinks [] ("" :: (names ++ q)) =
      walk w.top follow maxLinks names.reverse q := by
  have hdown : Tree.at? (([] : List String).reverse ++ names) w.top = some t := hat
  rw [walk_skip rfl hdir (.inl rfl), walk_names hlink hdown hnames, List.append_nil]

/-- The path from the top leads to what the names lead to. -/
theorem resolve_fromTop (follow : Bool) {t : Tree} (hlink : ∀ target, t ≠ .link target)
    (hat : Tree.at? names w.top = some t) (hdir : w.top.isDir = true)
    (hnames : ∀ n ∈ names, IsEntryName n) :
    w.resolve follow (fromTop names) = .ok ⟨names, t⟩ := by
  have hplace : Tree.at? names.reverse.reverse w.top = some t := by rwa [List.reverse_reverse]
  have hend : walk w.top follow maxLinks names.reverse [] = .ok (.taken ⟨names, t⟩) := by
    rw [walk_nil hplace, List.reverse_reverse]
  rw [resolve_eq_ok_iff, locate_eq fromTop_ne_empty, (cleanParts_fromTop hnames).1, ← hend]
  show walk w.top follow maxLinks [] _ = _
  by_cases hne : names = []
  · subst hne
    have helems : pathElements (fromTop []) = ["", ""] := by decide
    rw [helems, walk_skip rfl hdir (.inl rfl), walk_skip rfl hdir (.inl rfl)]
    rfl
  · have helems := pathElements_pathOfParts (mt List.map_eq_nil_iff.mp hne)
      (show StackOk true _ from stackOk_names hnames)
    rw [map_ofList_toList, ← fromTop_eq] at helems
    rw [helems]
    show walk w.top follow maxLinks [] ("" :: names) = _
    rw [← walk_fromTop hlink hat hdir hnames, List.append_nil]

theorem isDir_top (hat : Tree.at? names w.top = some (.dir es)) : w.top.isDir = true := by
  cases names with
  | nil =>
    rw [Option.some.inj hat]
    rfl
  | cons => exact isDir_of_at?_cons hat

/-- What is below the directory is found from there, and no link is followed before. -/
theorem locate_below_fromTop (follow : Bool) (hat : Tree.at? names w.top = some (.dir es))
    (hnames : ∀ n ∈ names, IsEntryName n) (hne : ns ≠ []) (hns : ∀ n ∈ ns, IsEntryName n) :
    w.locate follow (below (fromTop names) ns) = walk w.top follow maxLinks names.reverse ns := by
  obtain ⟨hrooted, hparts⟩ := cleanParts_fromTop hnames
  have helems := pathElements_pathOfParts
    (List.append_ne_nil_of_right_ne_nil _ (mt List.map_eq_nil_iff.mp hne))
    (stackOk_names_cleanParts (fromTop names) hns)
  rw [← below_eq fromTop_ne_empty hne hns, hrooted, hparts, ← List.map_append,
    map_ofList_toList] at helems
  rw [locate_eq (below_ne_empty fromTop_ne_empty ns), (cleanParts_below fromTop_ne_empty hns).1,
    hrooted, helems]
  exact walk_fromTop (Tree.dir_ne_link es) hat (isDir_top hat) hnames

/-! ## 3. The same project by two paths -/

/-- **A path that leads to a directory**, through links or not: it does so when it is cleaned, too,
and what is below it is within reach if it is so from the top. -/
structure LeadsTo (w : Workspace) (root : String) (names : List String)
    (es : List (String × Tree)) : Prop where
  found : w.resolve true root = .ok ⟨names, .dir es⟩
  clean : w.resolve true (cleanPath root) = .ok ⟨names, .dir es⟩
  within : ∀ ns, (∀ n ∈ ns, IsEntryName n) →
    w.resolve true (below root ns) = .error .tooManyLinks →
      w.resolve true (below (fromTop names) ns) = .error .tooManyLinks

variable (hwf : w.top.WellFormed) (h : LeadsTo w root names es)

include hwf h

theorem LeadsTo.at? : Tree.at? names w.top = some (.dir es) ∧ (∀ n ∈ names, IsEntryName n) ∧
    (Tree.dir es).WellFormed := by
  have hat := at?_of_walk ((locate_eq (ne_empty_of_resolve h.found)).symm.trans
    (resolve_eq_ok_iff.mp h.found))
  obtain ⟨hes, hnames⟩ := hwf.at? hat
  exact ⟨hat, hnames, hes⟩

/-- **What is below a directory is the same on both ways.** -/
theorem LeadsTo.resolve_below (hne : ns ≠ []) (hns : ∀ n ∈ ns, IsEntryName n) :
    w.resolve true (below root ns) = w.resolve true (below (fromTop names) ns) := by
  obtain ⟨hat, hnames, -⟩ := h.at? hwf
  obtain ⟨links, hle, hlocate⟩ := locate_below true (ne_empty_of_resolve h.found)
    h.clean hne hns
  have hdirect := locate_below_fromTop true hat hnames hne hns
  by_cases hmany : w.resolve true (below root ns) = .error .tooManyLinks
  · rw [hmany, h.within ns hns hmany]
  · have hwalk : walk w.top true links names.reverse ns ≠ .error .tooManyLinks := by
      intro heq
      refine hmany ?_
      rw [Workspace.resolve, hlocate, heq]
      rfl
    rw [Workspace.resolve, Workspace.resolve, hlocate, hdirect, walk_of_le hle hwalk]

theorem LeadsTo.holdsModule_eq {dirs : List String} (hdirs : ∀ n ∈ dirs, IsEntryName n) :
    holdsModule w root dirs = holdsModule w (fromTop names) dirs := by
  have hne : dirs ++ ["go.mod"] ≠ [] := List.append_ne_nil_of_right_ne_nil _ (List.cons_ne_nil _ _)
  have hns : ∀ n ∈ dirs ++ ["go.mod"], IsEntryName n :=
    List.forall_mem_append.mpr ⟨hdirs, by decide⟩
  rw [holdsModule, holdsModule, Workspace.exists_, Workspace.exists_, h.resolve_below hwf hne hns]

omit hwf h in
theorem toOption_read_congr {p q : String} (heq : w.resolve true p = w.resolve true q) :
    (w.read p).toOption = (w.read q).toOption := by
  unfold Workspace.read
  rw [heq]
  cases w.resolve true q with
  | error => rfl
  | ok f =>
    obtain ⟨_, t⟩ := f
    cases t <;> rfl

omit hwf h in
theorem parseFile_eq_bind (file : String) :
    parseFile w root file = (w.read (joinPath [root, file])).toOption.bind fun bytes =>
      (String.fromUTF8? bytes).bind (Source.File.parse? file) := by
  unfold parseFile
  cases w.read (joinPath [root, file]) <;> rfl

theorem LeadsTo.parseFile_eq (hne : ns ≠ []) (hns : ∀ n ∈ ns, IsEntryName n) :
    parseFile w root (relPath ns) = parseFile w (fromTop names) (relPath ns) := by
  have hread := toOption_read_congr (h.resolve_below hwf hne hns)
  rw [parseFile_eq_bind, parseFile_eq_bind, joinPath_relPath (ne_empty_of_resolve h.found) hne hns,
    joinPath_relPath fromTop_ne_empty hne hns, hread]

omit hwf h in
/-- **The module file of a project names a module.** -/
def NamesModule (w : Workspace) (root : String) : Prop :=
  ∃ bytes, w.read (joinPath [root, "go.mod"]) = .ok bytes ∧
    modulePathOf (textOfBytes bytes.toList) ≠ ""

theorem LeadsTo.read_eq_ok_iff (hne : ns ≠ []) (hns : ∀ n ∈ ns, IsEntryName n)
    {bytes : ByteArray} :
    w.read (below root ns) = .ok bytes ↔ w.read (below (fromTop names) ns) = .ok bytes := by
  have hread := toOption_read_congr (h.resolve_below hwf hne hns)
  rw [← toOption_eq_some_iff, hread, toOption_eq_some_iff]

theorem LeadsTo.read_moduleFile_iff {bytes : ByteArray} :
    w.read (joinPath [root, "go.mod"]) = .ok bytes ↔
      w.read (joinPath [fromTop names, "go.mod"]) = .ok bytes := by
  have hns : ∀ n ∈ ["go.mod"], IsEntryName n := by decide
  exact h.read_eq_ok_iff hwf (List.cons_ne_nil "go.mod" []) hns

theorem LeadsTo.namesModule_iff : NamesModule w root ↔ NamesModule w (fromTop names) :=
  exists_congr fun _ => and_congr_left' (h.read_moduleFile_iff hwf)

omit hwf h in
theorem modulePath_of_read {bytes : ByteArray}
    (hread : w.read (joinPath [root, "go.mod"]) = .ok bytes)
    (hnamed : modulePathOf (textOfBytes bytes.toList) ≠ "") :
    (modulePath w root).1 = modulePathOf (textOfBytes bytes.toList) := by
  simp [modulePath, hread, hnamed]

theorem LeadsTo.modulePath_eq (hmodule : NamesModule w root) :
    (modulePath w root).1 = (modulePath w (fromTop names)).1 := by
  obtain ⟨bytes, hread, hnamed⟩ := hmodule
  have hdirect := (h.read_moduleFile_iff hwf).mp hread
  rw [modulePath_of_read hread hnamed, modulePath_of_read hdirect hnamed]

theorem LeadsTo.collect_eq (hroot : w.resolve false root = .ok ⟨names, .dir es⟩) :
    (collect w root).1 = (collect w (fromTop names)).1 := by
  obtain ⟨hat, hnames, hes⟩ := h.at? hwf
  have hdirect := resolve_fromTop false (Tree.dir_ne_link es) hat (isDir_top hat) hnames
  rw [Files.collect_eq hes hroot, Files.collect_eq hes hdirect]
  exact congrArg (fun ways => groupByDir (ways.map relPath))
    (sourcesIn_congr hes fun dirs => h.holdsModule_eq hwf)

/-- A directory of the project has the same package on both ways. -/
theorem LeadsTo.packageAt_eq (hroot : w.resolve false root = .ok ⟨names, .dir es⟩)
    (hmodule : NamesModule w root) {d : SourceDir} (hd : d ∈ (collect w root).1) :
    packageAt w root d = packageAt w (fromTop names) d := by
  obtain ⟨-, -, hes⟩ := h.at? hwf
  have hfiles : ∀ file ∈ d.files, parseFile w root file = parseFile w (fromTop names) file := by
    intro file hfile
    rw [Files.collect_eq hes hroot] at hd
    rw [files_of_mem_groupByDir hd] at hfile
    obtain ⟨way, hway, rfl⟩ := List.mem_map.mp (List.mem_filter.mp hfile).1
    have hne : way ≠ [] := by
      rintro rfl
      exact nil_notMem_sourcesIn hway
    exact h.parseFile_eq hwf hne (isEntryName_of_mem_sourcesIn hes hway)
  unfold packageAt
  rw [h.modulePath_eq hwf hmodule, List.filterMap_congr hfiles]

/-- What a scan finds in a directory depends on the package there. -/
theorem LeadsTo.foundAt_eq (scope : Policy.Scope)
    (hroot : w.resolve false root = .ok ⟨names, .dir es⟩)
    (hmodule : NamesModule w root) {d : SourceDir} (hd : d ∈ (collect w root).1) :
    foundAt w root scope d = foundAt w (fromTop names) scope d := by
  have hpackage := h.packageAt_eq hwf hroot hmodule hd
  unfold foundAt packageNames inventoryNamed packageNamed
  rw [hpackage]

theorem LeadsTo.scan_eq (scope : Policy.Scope)
    (hroot : w.resolve false root = .ok ⟨names, .dir es⟩) (hmodule : NamesModule w root) :
    (scanProject w root scope false).1 = (scanProject w (fromTop names) scope false).1 := by
  obtain ⟨hat, hnames, -⟩ := h.at? hwf
  have hfound : (collect w root).1.flatMap (foundAt w root scope) =
      (collect w (fromTop names)).1.flatMap (foundAt w (fromTop names) scope) := by
    rw [← h.collect_eq hwf hroot]
    exact List.flatMap_congr fun d hd => h.foundAt_eq hwf scope hroot hmodule hd
  have hdirect := resolve_fromTop true (Tree.dir_ne_link es) hat (isDir_top hat) hnames
  rw [scanProject_eq_found scope h.found rfl, scanProject_eq_found scope hdirect rfl, hfound]

/-! ## 4. A link to a project -/

omit hwf h

theorem groupByDir_singleton (file : String) : groupByDir [file] = [⟨dirName file, [file]⟩] :=
  List.mergeSort_singleton _

/-- At a link a walk finds at most the link itself. -/
theorem collect_of_link {target : String} (hroot : w.resolve false root = .ok ⟨ns, .link target⟩) :
    (collect w root).1 = if isSourceName (baseName root) then [⟨".", ["."]⟩] else [] := by
  have hcollect : (collect w root).1 =
      groupByDir ((if isSourceName (baseName root) then [root] else []).map
        (relativePath root)) := by
    unfold collect
    rw [hroot]
    rfl
  have hdir : dirName "." = "." := by decide
  rw [hcollect]
  cases isSourceName (baseName root) with
  | false => exact List.mergeSort_nil
  | true =>
    rw [if_pos rfl, List.map_singleton, relativePath_self, groupByDir_singleton, hdir]
    rfl

/-- **Nothing is found by a path that ends with a link.** -/
theorem LeadsTo.scan_of_link (h : LeadsTo w root names es) (scope : Policy.Scope) {target : String}
    (hroot : w.resolve false root = .ok ⟨ns, .link target⟩) :
    (scanProject w root scope false).1 = .ok .empty := by
  -- Under the name of a source file the link is taken for one, but a directory is read there.
  have hunread : parseFile w root "." = none := by
    unfold parseFile Workspace.read
    rw [joinPath_dot (ne_empty_of_resolve h.found), h.clean]
  have hfiles : ∀ d ∈ (collect w root).1, (packageAt w root d).files = [] := by
    intro d hd
    rw [collect_of_link hroot] at hd
    split at hd
    · rw [List.mem_singleton.mp hd]
      simp [packageAt, hunread]
    · cases hd
  have hfound : (collect w root).1.flatMap (foundAt w root scope) = [] := by
    rw [List.flatMap_eq_nil_iff]
    intro d hd
    unfold foundAt packageNames
    rw [hfiles d hd]
    split <;> rfl
  rw [scanProject_eq_found scope h.found rfl, hfound]
  rfl

/-- **A scan through links**: by a path that leads through links to the directory of a project, a
scan finds what it finds in the directory itself; by a path that ends with a link, nothing. -/
theorem scan_through_links (hwf : w.top.WellFormed) (h : LeadsTo w root names es)
    (hmodule : NamesModule w root) (scope : Policy.Scope) :
    (w.resolve false root = .ok ⟨names, .dir es⟩ ∧
      (scanProject w root scope false).1 = (scanProject w (fromTop names) scope false).1) ∨
    ((∃ ns target, w.resolve false root = .ok ⟨ns, .link target⟩) ∧
      (scanProject w root scope false).1 = .ok .empty) := by
  have hroot := ne_empty_of_resolve h.found
  have hfound := resolve_eq_ok_iff.mp h.found
  rw [locate_eq hroot] at hfound
  have hplace : ∀ f, walk w.top false maxLinks (w.start (isRooted root)) (pathElements root) =
      .ok (.taken f) → w.resolve false root = .ok f := fun f hf =>
    resolve_eq_ok_iff.mpr ((locate_eq hroot).trans hf)
  rcases walk_false_or w.top maxLinks (w.start (isRooted root)) (pathElements root) with
    hsame | ⟨ns, target, hlink⟩
  · have hdir := hplace _ (hsame.trans hfound)
    exact .inl ⟨hdir, h.scan_eq hwf scope hdir hmodule⟩
  · have hlink := hplace _ hlink
    exact .inr ⟨⟨ns, target, hlink⟩, h.scan_of_link scope hlink⟩

/-! ## 5. A project with links to it -/

/-- A directory without links is within reach wherever it is found. -/
theorem leadsTo_of_no_links (hfound : w.resolve true root = .ok ⟨names, .dir es⟩)
    (hclean : w.resolve true (cleanPath root) = .ok ⟨names, .dir es⟩)
    (hfree : ∀ ms target, Tree.at? ms (.dir es) ≠ some (.link target)) :
    LeadsTo w root names es := by
  refine ⟨hfound, hclean, fun ns hns hmany => absurd hmany ?_⟩
  by_cases hne : ns = []
  · subst hne
    rw [below_nil, hfound]
    intro heq
    cases heq
  obtain ⟨links, -, hlocate⟩ := locate_below true (ne_empty_of_resolve hfound) hclean
    hne hns
  have hat : Tree.at? names w.top = some (.dir es) := at?_of_walk
    ((locate_eq (ne_empty_of_resolve hfound)).symm.trans (resolve_eq_ok_iff.mp hfound))
  have hbelow : ∀ ms target, Tree.at? (names.reverse.reverse ++ ms) w.top ≠ some (.link target) := by
    intro ms target
    rw [List.reverse_reverse, Tree.at?_append, hat]
    exact hfree ms target
  have hwalk : walk w.top true links names.reverse ns ≠ .error .tooManyLinks :=
    walk_ne_tooManyLinks hbelow hns
  rw [Workspace.resolve, hlocate]
  cases hplace : walk w.top true links names.reverse ns with
  | error e =>
    rw [hplace] at hwalk
    exact fun heq => hwalk (congrArg _ (Except.error.inj heq))
  | ok place =>
    cases place <;>
    · intro heq
      cases heq

theorem at?_textFiles_ne_link (files : List (String × String)) (ms : List String)
    (target : String) : Tree.at? ms (.dir (textFiles files)) ≠ some (.link target) := by
  cases ms with
  | nil => nofun
  | cons n ms =>
    rw [Tree.at?_cons]
    show ((textFiles files).lookup n).bind (Tree.at? ms) ≠ _
    rw [lookup_textFiles]
    cases files.lookup n with
    | none => nofun
    | some text => cases ms <;> nofun

/-- The files of a project with one function. -/
def realFiles : List (String × String) :=
  [("a.go", functionText "m"), ("go.mod", "module example.com/m\n")]

/-- A workspace with the project, a link to it, and a link to the directory that it is in. -/
def linkedWorkspace : Workspace :=
  ⟨.dir [("ln", .link "real"), ("real", .dir (textFiles realFiles)), ("up", .link ".")], []⟩

theorem resolve_linked (follow : Bool) :
    linkedWorkspace.resolve true "ln" = .ok ⟨["real"], .dir (textFiles realFiles)⟩ ∧
      linkedWorkspace.resolve false "ln" = .ok ⟨["ln"], .link "real"⟩ ∧
      linkedWorkspace.resolve follow "up/real" = .ok ⟨["real"], .dir (textFiles realFiles)⟩ := by
  have hln : pathElements "ln" = ["ln"] := by decide
  have hreal : pathElements "real" = ["real"] := by decide
  have hup : pathElements "up/real" = ["up", "real"] := by decide
  have hhere : pathElements "." = ["."] := by decide
  refine ⟨?_, ?_, ?_⟩
  · rw [resolve_eq_ok_iff, Workspace.locate, hln]
    show walk linkedWorkspace.top true maxLinks [] ["ln"] = _
    rw [walk_eq]
    show walk linkedWorkspace.top true 39 [] (pathElements "real" ++ []) = _
    rw [hreal, walk_eq]
    show walk linkedWorkspace.top true 39 ["real"] [] = _
    exact walk_nil rfl
  · rw [resolve_eq_ok_iff, Workspace.locate, hln]
    show walk linkedWorkspace.top false maxLinks [] ["ln"] = _
    rw [walk_eq]
    rfl
  · rw [resolve_eq_ok_iff, Workspace.locate, hup]
    show walk linkedWorkspace.top follow maxLinks [] ["up", "real"] = _
    rw [walk_eq]
    show walk linkedWorkspace.top follow 39 [] (pathElements "." ++ ["real"]) = _
    rw [hhere, walk_eq]
    show walk linkedWorkspace.top follow 39 [] ["real"] = _
    rw [walk_eq]
    show walk linkedWorkspace.top follow 39 ["real"] [] = _
    exact walk_nil rfl

theorem leadsTo_linked : LeadsTo linkedWorkspace "ln" ["real"] (textFiles realFiles) ∧
    LeadsTo linkedWorkspace "up/real" ["real"] (textFiles realFiles) := by
  have hln : cleanPath "ln" = "ln" := by decide
  have hup : cleanPath "up/real" = "up/real" := by decide
  obtain ⟨hfound, -, hfound'⟩ := resolve_linked true
  exact ⟨leadsTo_of_no_links hfound (hln ▸ hfound) (at?_textFiles_ne_link _),
    leadsTo_of_no_links hfound' (hup ▸ hfound') (at?_textFiles_ne_link _)⟩

/-- A file of the project, from the top. -/
theorem read_real {name text : String} (hname : IsEntryName name)
    (hlookup : realFiles.lookup name = some text) :
    linkedWorkspace.read (fromTop ["real", name]) = .ok text.toUTF8 := by
  have hat : Tree.at? ["real", name] linkedWorkspace.top = some (.file text.toUTF8) := by
    show Tree.at? [name] (.dir (textFiles realFiles)) = _
    rw [Tree.at?_singleton]
    show (textFiles realFiles).lookup name = _
    rw [lookup_textFiles, hlookup]
    rfl
  have hnames : ∀ n ∈ ["real", name], IsEntryName n :=
    List.forall_mem_cons.mpr ⟨by decide, List.forall_mem_singleton.mpr hname⟩
  rw [Workspace.read, resolve_fromTop true (Tree.file_ne_link _) hat rfl hnames]

theorem namesModule_real : NamesModule linkedWorkspace (fromTop ["real"]) := by
  have hpath : joinPath [fromTop ["real"], "go.mod"] = fromTop ["real", "go.mod"] := by decide
  refine ⟨_, hpath ▸ read_real (by decide) rfl, ?_⟩
  decide +kernel

theorem scan_through_links_both :
    let scope := Source.Package.wholeScope false
    linkedWorkspace.top.WellFormed ∧
      (LeadsTo linkedWorkspace "ln" ["real"] (textFiles realFiles) ∧
        NamesModule linkedWorkspace "ln" ∧
        (scanProject linkedWorkspace "ln" scope false).1 = .ok .empty) ∧
      LeadsTo linkedWorkspace "up/real" ["real"] (textFiles realFiles) ∧
        NamesModule linkedWorkspace "up/real" ∧
        (scanProject linkedWorkspace "up/real" scope false).1 =
          (scanProject linkedWorkspace (fromTop ["real"]) scope false).1 := by
  intro scope
  have hwf : linkedWorkspace.top.WellFormed := by decide
  obtain ⟨hln, hup⟩ := leadsTo_linked
  obtain ⟨-, hlink, hdir⟩ := resolve_linked false
  have hmodule := (hln.namesModule_iff hwf).mpr namesModule_real
  have hmodule' := (hup.namesModule_iff hwf).mpr namesModule_real
  refine ⟨hwf, ⟨hln, hmodule, ?_⟩, hup, hmodule', ?_⟩
  · rcases scan_through_links hwf hln hmodule scope with ⟨hsame, -⟩ | ⟨-, hempty⟩
    · simp [hlink] at hsame
    · exact hempty
  · rcases scan_through_links hwf hup hmodule' scope with ⟨-, hsame⟩ | ⟨⟨ns, target, hother⟩, -⟩
    · exact hsame
    · simp [hdir] at hother

theorem sourcesIn_textFiles (stops : List String → Bool) (files : List (String × String)) :
    sourcesIn stops (textFiles files) = ((files.map (·.1)).filter isSourceName).map ([·]) := by
  induction files with
  | nil => rfl
  | cons x files ih =>
    show (sourcesAt _ x.1 (.file x.2.toUTF8)).map (x.1 :: ·) ++ sourcesIn stops (textFiles files) = _
    rw [sourcesAt, ih, List.map_cons, List.filter_cons]
    cases isSourceName x.1 <;> rfl

theorem collect_real : (collect linkedWorkspace (fromTop ["real"])).1 = [⟨".", ["a.go"]⟩] := by
  have hwf : (Tree.dir (textFiles realFiles)).WellFormed := by decide
  have hroot : linkedWorkspace.resolve false (fromTop ["real"]) =
      .ok ⟨["real"], .dir (textFiles realFiles)⟩ :=
    resolve_fromTop _ (Tree.dir_ne_link _) rfl rfl (by decide)
  have hnames : ((realFiles.map (·.1)).filter isSourceName).map ([·]) = [["a.go"]] := by decide
  have hdir : dirName "a.go" = "." := by decide
  rw [Files.collect_eq hwf hroot, sourcesIn_textFiles, hnames, List.map_singleton]
  show groupByDir ["a.go"] = _
  rw [groupByDir_singleton, hdir]

theorem packageAt_real : packageAt linkedWorkspace (fromTop ["real"]) ⟨".", ["a.go"]⟩ =
    ⟨"example.com/m", ["a.go"].filterMap fun n => Source.File.parse? n (functionText "m")⟩ := by
  have hmodule : joinPath [fromTop ["real"], "go.mod"] = fromTop ["real", "go.mod"] := by decide
  have hfile : joinPath [fromTop ["real"], "a.go"] = fromTop ["real", "a.go"] := by decide
  have hname : modulePathOf (textOfBytes "module example.com/m\n".toUTF8.toList) =
      "example.com/m" := by decide +kernel
  have htext : String.fromUTF8? (functionText "m").toUTF8 = some (functionText "m") :=
    dif_pos (functionText "m").isValidUTF8
  have hparse : parseFile linkedWorkspace (fromTop ["real"]) "a.go" =
      Source.File.parse? "a.go" (functionText "m") := by
    rw [parseFile_eq_bind, hfile, read_real (by decide) rfl]
    dsimp only [Except.toOption, Option.bind_some]
    rw [htext, Option.bind_some]
  have hpath := modulePath_of_read (hmodule ▸ read_real (by decide) rfl)
    (hname ▸ (by decide : "example.com/m" ≠ ""))
  unfold packageAt
  rw [hpath, hname]
  simp only [List.filterMap_cons, List.filterMap_nil, hparse]
  rfl

/-- The project can be scanned, and by the link to it seems to be empty. -/
theorem lost_behind_link :
    (∃ es, linkedWorkspace.resolve true "ln" = .ok ⟨["real"], .dir es⟩) ∧
      NamesModule linkedWorkspace "ln" ∧
      (∃ v, (scanProject linkedWorkspace (fromTop ["real"]) (Source.Package.wholeScope false)
          false).1 = .ok v ∧ v.elements.map (·.qualifiedName) = ["example.com/m.F"]) ∧
      (scanProject linkedWorkspace "ln" (Source.Package.wholeScope false) false).1 =
        .ok .empty := by
  have hwf : linkedWorkspace.top.WellFormed := by decide
  obtain ⟨hln, -⟩ := leadsTo_linked
  obtain ⟨hfound, hlink, -⟩ := resolve_linked true
  have hroot : linkedWorkspace.resolve true (fromTop ["real"]) =
      .ok ⟨["real"], .dir (textFiles realFiles)⟩ :=
    resolve_fromTop _ (Tree.dir_ne_link _) rfl rfl (by decide)
  refine ⟨⟨_, hfound⟩, (hln.namesModule_iff hwf).mpr namesModule_real, ⟨_,
    scanProject_eq_found _ hroot rfl, ?_⟩, hln.scan_of_link _ hlink⟩
  rw [collect_real]
  unfold foundAt packageNames inventoryNamed packageNamed
  rw [List.flatMap_singleton, packageAt_real]
  decide +kernel

end DocAudit.Files
