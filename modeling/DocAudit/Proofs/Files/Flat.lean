import DocAudit.Proofs.Files.Scan
import DocAudit.Proofs.Files.Walk

/-!
# Flat projects

A project in one directory of text files is the simplest to look through: every path of one name
leads to the file of this name, or to nothing.

* `resolve_flat` and `resolve_flat_root` say what a name and the project itself lead to;
* `read_flat` and `parseFile_flat`: what can be read and parsed;
* `collect_flat` and `packageAt_flat`: the source files of the project, and those that can be
  parsed, as one package.
-/

namespace DocAudit.Files

/-- Text files as entries of a directory. -/
def textFiles (files : List (String × String)) : List (String × Tree) :=
  files.map fun x => (x.1, .file x.2.toUTF8)

/-- A workspace with one directory, which is the current one, and text files in it. -/
def flatProject (dir : String) (files : List (String × String)) : Workspace :=
  ⟨.dir [(dir, .dir (textFiles files))], [dir]⟩

/-- **A path of one name**, which stands for itself. -/
structure IsOneName (name : String) : Prop where
  elements : pathElements name = [name]
  relative : Text.hasStart name "/" = false
  ne_empty : name ≠ ""
  ne_here : name ≠ "."
  ne_above : name ≠ ".."

instance (name : String) : Decidable (IsOneName name) :=
  decidable_of_iff (pathElements name = [name] ∧ Text.hasStart name "/" = false ∧ name ≠ "" ∧
      name ≠ "." ∧ name ≠ "..")
    ⟨fun ⟨h₁, h₂, h₃, h₄, h₅⟩ => ⟨h₁, h₂, h₃, h₄, h₅⟩,
      fun h => ⟨h.elements, h.relative, h.ne_empty, h.ne_here, h.ne_above⟩⟩

variable {dir name : String} {files : List (String × String)} {follow : Bool}

theorem lookup_textFiles (name : String) : ∀ files : List (String × String),
    (textFiles files).lookup name = (files.lookup name).map fun text => .file text.toUTF8
  | [] => rfl
  | (n, text) :: files => by
      have ih := lookup_textFiles name files
      unfold textFiles at ih ⊢
      rw [List.map_cons, List.lookup_cons, List.lookup_cons]
      cases name == n with
      | true => rfl
      | false => exact ih

theorem resolve_flat_root (dir : String) (files : List (String × String)) (follow : Bool) :
    (flatProject dir files).resolve follow "." = .ok ⟨[dir], .dir (textFiles files)⟩ := by
  have hat : Tree.at? [dir] (flatProject dir files).top = some (.dir (textFiles files)) := by
    simp [flatProject, Tree.at?_singleton, Tree.entries]
  exact resolve_here hat rfl

/-- **A name leads to the file of this name**, or to nothing. -/
theorem resolve_flat (h : IsOneName name) :
    (flatProject dir files).resolve follow name =
      match files.lookup name with
      | some text => .ok ⟨[dir, name], .file text.toUTF8⟩
      | none => .error .missing := by
  have hentries := lookup_textFiles name files
  unfold Workspace.resolve Workspace.locate
  rw [h.elements, walk]
  simp only [h.relative, h.ne_empty, h.ne_here, h.ne_above, flatProject, Tree.at?, Tree.entries,
    Tree.isDir, List.reverse_cons, List.reverse_nil, List.nil_append, List.lookup_cons_self,
    Option.bind_some, beq_iff_eq, if_false, Bool.not_true, Bool.false_eq_true, or_self,
    Bool.or_eq_true, hentries, List.isEmpty_nil, if_true]
  cases hl : files.lookup name with
  | none => rfl
  | some text =>
    rw [Option.map_some, walk]
    simp [Tree.at?, Tree.entries, hentries, hl, bind, Except.bind, Place.found]

theorem read_flat (h : IsOneName name) :
    (flatProject dir files).read name =
      match files.lookup name with
      | some text => .ok text.toUTF8
      | none => .error (PathError.missing.toError "open" name) := by
  unfold Workspace.read
  rw [resolve_flat h]
  cases files.lookup name <;> rfl

/-- **A file of a flat project is parsed from its text.** -/
theorem parseFile_flat (h : IsOneName name) (hjoin : joinPath [".", name] = name) :
    parseFile (flatProject dir files) "." name =
      (files.lookup name).bind (Source.File.parse? name) := by
  unfold parseFile
  rw [hjoin, read_flat h]
  cases files.lookup name with
  | none => rfl
  | some text =>
    have htext : String.fromUTF8? text.toUTF8 = some text := dif_pos text.isValidUTF8
    show (String.fromUTF8? text.toUTF8).bind _ = _
    rw [htext]

/-- Without a module file, the module is called like the directory. -/
theorem modulePath_flat (h : files.lookup "go.mod" = none) :
    (modulePath (flatProject dir files) ".").1 =
      baseName ((flatProject dir files).absolute ".") := by
  have hname : IsOneName "go.mod" := by decide
  unfold modulePath
  rw [show joinPath [".", "go.mod"] = "go.mod" by decide, read_flat hname, h]
  rfl

/-- **A name of a source file in the directory itself.** -/
structure IsSourceHere (name : String) : Prop where
  source : isSourceName name = true
  join : joinPath [".", name] = name
  relative : relativePath "." name = name
  dir : dirName name = "."

instance (name : String) : Decidable (IsSourceHere name) :=
  decidable_of_iff (isSourceName name = true ∧ joinPath [".", name] = name ∧
      relativePath "." name = name ∧ dirName name = ".")
    ⟨fun ⟨h₁, h₂, h₃, h₄⟩ => ⟨h₁, h₂, h₃, h₄⟩, fun h => ⟨h.source, h.join, h.relative, h.dir⟩⟩

theorem collectEntries_textFiles (w : Workspace) (h : ∀ x ∈ files, IsSourceHere x.1) :
    (collectEntries w "." (textFiles files)).files = files.map (·.1) := by
  induction files with
  | nil => rfl
  | cons x files ih =>
    have hx := h x List.mem_cons_self
    have hrest := ih fun y hy => h y (List.mem_cons_of_mem _ hy)
    show (collectEntries w "." ((x.1, .file x.2.toUTF8) :: textFiles files)).files = _
    rw [collectEntries, collectTree, hx.source, hx.join]
    show x.1 :: (collectEntries w "." (textFiles files)).files = _
    rw [hrest, List.map_cons]

theorem foldl_addToDir_here (names before : List String) (h : ∀ name ∈ names, dirName name = ".") :
    names.foldl (fun ds name => addToDir name ds) [⟨".", before⟩] = [⟨".", before ++ names⟩] := by
  induction names generalizing before with
  | nil => simp
  | cons name names ih =>
    have hname := h name List.mem_cons_self
    have hstep : addToDir name [⟨".", before⟩] = [⟨".", before ++ [name]⟩] := by
      simp [addToDir, hname]
    rw [List.foldl_cons, hstep, ih _ fun n hn => h n (List.mem_cons_of_mem _ hn),
      List.append_assoc, List.singleton_append]

/-- **The source files of a flat project stand in one directory.** -/
theorem collect_flat (hne : files ≠ []) (h : ∀ x ∈ files, IsSourceHere x.1) :
    (collect (flatProject dir files) ".").1 = [⟨".", files.map (·.1)⟩] := by
  have hrelative : (files.map (·.1)).map (relativePath ".") = files.map (·.1) := by
    rw [List.map_map]
    refine List.map_congr_left fun x hx => ?_
    rw [Function.comp_apply, (h x hx).relative]
  have hgroup : groupByDir (files.map (·.1)) = [⟨".", files.map (·.1)⟩] := by
    unfold groupByDir
    cases files with
    | nil => exact absurd rfl hne
    | cons x files =>
      have hdirs : ∀ name ∈ (x :: files).map (·.1), dirName name = "." := by
        intro name hname
        obtain ⟨y, hy, rfl⟩ := List.mem_map.mp hname
        exact (h y hy).dir
      have hfirst : addToDir x.1 [] = [⟨".", [x.1]⟩] := by
        rw [addToDir, hdirs x.1 (by simp)]
      rw [List.map_cons, List.foldl_cons, hfirst,
        foldl_addToDir_here _ _ fun n hn => hdirs n (List.mem_cons_of_mem _ hn)]
      exact List.mergeSort_singleton _
  unfold collect
  rw [resolve_flat_root]
  show groupByDir ((collectEntries _ "." (textFiles files)).files.map (relativePath ".")) = _
  rw [collectEntries_textFiles _ h, hrelative, hgroup]

theorem packageAt_flat {names : List String} (hmod : files.lookup "go.mod" = none)
    (hnames : ∀ name ∈ names, IsOneName name ∧ joinPath [".", name] = name) :
    packageAt (flatProject dir files) "." ⟨".", names⟩ =
      ⟨baseName ((flatProject dir files).absolute "."),
        names.filterMap fun name => (files.lookup name).bind (Source.File.parse? name)⟩ := by
  have hparse : names.filterMap (parseFile (flatProject dir files) ".") =
      names.filterMap fun name => (files.lookup name).bind (Source.File.parse? name) :=
    List.filterMap_congr fun name hname =>
      parseFile_flat (hnames name hname).1 (hnames name hname).2
  unfold packageAt
  rw [modulePath_flat hmod, hparse]
  rfl

end DocAudit.Files
