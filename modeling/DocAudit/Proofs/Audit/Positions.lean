import DocAudit.Proofs.Audit.Agreement
import DocAudit.Proofs.Audit.Order
import DocAudit.Proofs.Except
import DocAudit.Proofs.Inventory.Complete
import DocAudit.Proofs.Inventory.Located

/-!
# Where diagnostics stand

A diagnostic is placed by what is reported about its element: the file and line that line directives
may have moved.  They are looked up among the files by their own names and lines, so a diagnostic
stands on the line of the declaration as long as no directive before it moves the place, and on
another line or on none if one does.

* `positionIn_eq_some_iff`: the lookup finds a line of a file exactly for its own place;
* `mem_elements_of_mem_issues`: the element of an issue is one of the inventory;
* `diagnostics_at_declarations`: a diagnostic stands on the line of the declaration exactly if the
  place reported for the declaration is its own.
-/

namespace DocAudit.Audit

open DocAudit.Policy DocAudit.Source

/-! ## 1. Looking up a place -/

/-- **An element is found on a line of a file exactly if that is its place.** -/
theorem positionIn_eq_some_iff {files : List File} (hpaths : (files.map File.path).Nodup)
    {f : File} (hf : f ∈ files) {e : Element} {x : Place} (he : e.HasPlace x) {line : Nat}
    (hline : 1 ≤ line ∧ line ≤ f.lines) :
    Diagnostic.positionIn files e = some ⟨f.path, line⟩ ↔ x = ⟨f.path, line⟩ := by
  have hfind : files.reverse.find? (·.path == f.path) = some f := by
    refine find?_of_unique (List.mem_reverse.mpr hf) (beq_self_eq_true _) fun g hg hpath => ?_
    exact List.inj_on_of_nodup_map hpaths (List.mem_reverse.mp hg) hf (beq_iff_eq.mp hpath)
  obtain ⟨file, number⟩ := x
  obtain ⟨hfile, hnumber⟩ := he
  dsimp only at hfile hnumber
  unfold Diagnostic.positionIn
  rw [Option.bind_eq_bind, Option.bind_eq_some_iff]
  constructor
  · rintro ⟨g, hg, hsome⟩
    obtain ⟨-, heq⟩ := Option.ite_none_right_eq_some.mp hsome
    obtain ⟨hpath, hlines⟩ := LineStart.mk.inj (Option.some.inj heq)
    have hfile' : g.path = e.sourceFile := by simpa using List.find?_some hg
    rw [← hfile, ← hfile', hpath, Place.mk.injEq]
    exact ⟨rfl, by omega⟩
  · intro heq
    obtain ⟨rfl, rfl⟩ := Place.mk.inj heq
    refine ⟨f, ?_, ?_⟩
    · rw [hfile]
      exact hfind
    · rw [hnumber, if_pos ⟨by omega, by omega⟩]

/-! ## 2. Issues and their elements -/

variable {c : Compiled} {v : Inventory} {r : Result} {runId : String} {t : Timing} {p : Package}
  {T : Severity} {ds : List Diagnostic}

/-- The issues of a run of built-in rules are about elements of its inventory. -/
theorem mem_elements_of_mem_issues (h : (run c .builtin v runId t false).1 = .ok r) {i : Issue}
    (hi : i ∈ r.issues) : i.element ∈ v.elements := by
  rw [issues_of_run h, sortIssues, List.mem_mergeSort] at hi
  obtain ⟨e, he, hi⟩ := List.mem_flatMap.mp hi
  have hbuiltin : UsesBuiltin c .builtin := fun _ _ _ hl => hl
  obtain ⟨find, hlocal, hfind⟩ := exists_local_of_builtin hbuiltin he ((run_eq_ok_iff.mp h).1 e he)
  have hfinding := (elements_reportedBy_sublist c e _).mem (List.mem_map_of_mem hi)
  rw [hfind] at hfinding
  exact (hlocal.elements_sublist v).mem hfinding

/-- A package without its test files. -/
def withoutTests (p : Package) : Package :=
  ⟨p.importPath, p.files.filter fun f => !isTestFile f.path⟩

/-- The diagnostic reports an issue of a run on the package without its test files. -/
def Diagnostic.Reports (c : Compiled) (T : Severity) (p : Package) (runId : String)
    (d : Diagnostic) (i : Issue) : Prop :=
  ∃ r, (run c .builtin (.ofPackage (withoutTests p) c.scan) runId .none false).1 = .ok r ∧
    i ∈ r.issues ∧ i.severity.atLeast T = true ∧ d = .ofIssue (withoutTests p).files i

theorem exists_reports_of_diagnose (h : diagnose c T p runId = .ok ds) {d : Diagnostic}
    (hd : d ∈ ds) : ∃ i, d.Reports c T p runId i := by
  unfold diagnose at h
  extract_lets files admitted at h
  split at h
  · cases h
    cases hd
  · obtain ⟨r, hr, hds⟩ := bind_eq_ok_iff.mp h
    cases hds
    obtain ⟨i, hi, rfl⟩ := List.mem_map.mp hd
    obtain ⟨hi, hT⟩ := List.mem_filter.mp hi
    exact ⟨i, r, hr, hi, hT, rfl⟩

/-! ## 3. Diagnostics and declarations -/

theorem parsed_withoutTests (h : p.Parsed) : (withoutTests p).Parsed :=
  fun f hf => h f (List.mem_filter.mp hf).1

theorem nodup_paths_withoutTests (h : (p.files.map File.path).Nodup) :
    ((withoutTests p).files.map File.path).Nodup :=
  h.sublist (List.filter_sublist.map File.path)

/-- A diagnostic stands on the line of the file `f` that begins in `before`, exactly if the place
that is reported behind `before` is on that line. -/
def Diagnostic.StandsBehind (d : Diagnostic) (f : File) (before : List Char) : Prop :=
  let line := before.count '\n' + 1
  d.position = some ⟨f.path, line⟩ ↔ f.place (Pos.start.after before) = ⟨f.path, line⟩

/-- **A diagnostic stands on the line of the declaration** that it is about, exactly if the place
that is reported there is the physical one, as it is where no line directive stands before. -/
theorem diagnostics_at_declarations {k : Checker} {load : String → Except Error Config}
    (hk : k.Uses load c T) (hparsed : p.Parsed) (hpaths : (p.files.map File.path).Nodup)
    (h : (k.check load p runId).1 = .ok ds) :
    ∀ d ∈ ds, ∃ i, d.Reports c T p runId i ∧
      ∃ f ∈ (withoutTests p).files, ∃ text before, f.Shows text i.element before ∧
        d.StandsBehind f before ∧
          ((∀ m ∈ f.marks, (Pos.start.after before).offset < m.offset) →
            d.position = some ⟨f.path, before.count '\n' + 1⟩) := by
  rw [check_of_uses hk] at h
  intro d hd
  obtain ⟨i, hreports⟩ := exists_reports_of_diagnose h hd
  have hissue := hreports
  obtain ⟨r, hr, hi, -, rfl⟩ := hissue
  obtain ⟨f, hf, text, before, hshows⟩ :=
    Inventory.shown_of_mem_ofPackage (parsed_withoutTests hparsed) (mem_elements_of_mem_issues hr hi)
  have hiff := positionIn_eq_some_iff (nodup_paths_withoutTests hpaths) hf hshows.place
    hshows.line_le
  refine ⟨i, hreports, f, hf, text, before, hshows, hiff, fun hmarks => hiff.mpr ?_⟩
  rw [File.place_of_no_mark hmarks, Pos.line_start_after]

/-- A package of one file with a function behind a line directive, which says `directive`. -/
def directedPackage (directive : String) : Package :=
  ⟨"example.com/p", (File.parse? "a.go"
    ("package p\n\n//line " ++ directive ++ "\nfunc F() \x7b\x7d\n")).toList⟩

theorem nodup_paths_of_text (importPath path text : String) :
    ((⟨importPath, (File.parse? path text).toList⟩ : Package).files.map File.path).Nodup := by
  cases File.parse? path text <;> simp

/-- The function stands on line 4, and its diagnostic on line 1 if the directive says so. -/
theorem diagnostics_at_declarations_directed :
    let c := ((compileAll Config.default).run []).1
    let p := directedPackage "a.go:1"
    let ds : List Diagnostic :=
      [⟨some ⟨"a.go", 1⟩, "[ERROR] Missing doc comment: p.F (doc-presence)"⟩]
    Checker.new.Uses (fun _ => .ok Config.default) c .info ∧ p.Parsed ∧
      (p.files.map File.path).Nodup ∧
      (Checker.new.check (fun _ => .ok Config.default) p "").1 = .ok ds ∧
      ∀ d ∈ ds, ∃ i, d.Reports c .info p "" i ∧
        ∃ f ∈ (withoutTests p).files, ∃ text before, f.Shows text i.element before ∧
          d.StandsBehind f before ∧
            ((∀ m ∈ f.marks, (Pos.start.after before).offset < m.offset) →
              d.position = some ⟨f.path, before.count '\n' + 1⟩) := by
  intro c p ds
  have hc : compileChecked (some Config.default) = .ok c :=
    compileChecked_of_isOk (by decide +kernel)
  have huses : Checker.new.Uses (fun _ => .ok Config.default) c .info := by
    refine ⟨by decide +kernel, 0, ?_⟩
    show (Memo.empty.getOrMake "" (compileChecked (some Config.default))).1 = _
    rw [hc]
    rfl
  have hdiag : (diagnose c .info p "").toOption = some ds := by decide +kernel
  have hcheck : (Checker.new.check (fun _ => .ok Config.default) p "").1 = .ok ds := by
    rw [check_of_uses huses]
    exact toOption_eq_some_iff.mp hdiag
  have hparsed : p.Parsed := Package.parsed_of_text _ _ _
  have hpaths : (p.files.map File.path).Nodup := nodup_paths_of_text _ _ _
  exact ⟨huses, hparsed, hpaths, hcheck, diagnostics_at_declarations huses hparsed hpaths hcheck⟩

/-- **A line directive moves diagnostics**: off the package if it names another file, and to the line
that it says if it names its own. -/
theorem line_directive_moves_diagnostics :
    let message := "[ERROR] Missing doc comment: p.F (doc-presence)"
    ((Checker.new.check (fun _ => .ok Config.default) (directedPackage "b.go:100") "").1.toOption =
      some [⟨none, message⟩]) ∧
    ((Checker.new.check (fun _ => .ok Config.default) (directedPackage "a.go:1") "").1.toOption =
      some [⟨some ⟨"a.go", 1⟩, message⟩]) := by
  decide +kernel

end DocAudit.Audit
