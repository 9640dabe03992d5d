import DocAudit.Audit.Diagnostic
import DocAudit.Proofs.Audit.Result
import DocAudit.Proofs.Files.Nested
import DocAudit.Proofs.Policy.Compile

/-!
# Auditing a project and checking its packages

An audit looks at all packages of a project at once, a checker at one package at a time.  They say
the same about each package.

* `run_part`: the issues of a package in a run on a whole inventory are those of a run on the part;
* `diagnose_eq`: a checker's diagnostics are the issues of a run on what it admits;
* `audit_agrees_with_checks`: the issues of an audit in a package are the checker's diagnostics.
-/

namespace DocAudit.Audit

open DocAudit.Files DocAudit.Policy DocAudit.Source

/-- **The enabled entries name built-in rules** and give them options that they accept. -/
def RulesReady (c : Compiled) : Prop :=
  ∀ e ∈ c.enabledRules, ∃ rule look,
    Rule.Registry.builtin.lookup e.id = some rule ∧ rule.prepare e.options = .ok look

variable {c : Compiled} {u v : Inventory} {r : Result} {runId runId' : String} {t t' : Timing}

theorem rulesReady_iff :
    RulesReady c ↔ ∀ e ∈ c.enabledRules,
      ((Rule.Registry.builtin.lookup e.id).any fun rule => (rule.prepare e.options).isOk) = true := by
  refine forall₂_congr fun e _ => ?_
  cases hl : Rule.Registry.builtin.lookup e.id with
  | none => simp
  | some rule => cases hp : rule.prepare e.options <;> simp [hp, Except.isOk, Except.toBool]

/-! ## 1. Parts of a run -/

/-- What a built-in rule finds with options that it accepts is found by a local rule. -/
theorem exists_local_of_ready (h : RulesReady c) {e : RuleEntry} (he : e ∈ c.enabledRules) :
    ∃ rule find, Rule.Registry.builtin.lookup e.id = some rule ∧ Rule.IsLocal find ∧
      ∀ v, rule.evaluate v e.options false = .ok (find v) := by
  obtain ⟨rule, look, hl, hp⟩ := h e he
  obtain ⟨find, hfind, rfl⟩ := Rule.isLocal_of_builtin hl hp
  exact ⟨rule, find, hl, hfind, fun v => Rule.evaluate_of_looking hp⟩

/-- Built-in rules with valid options always give a result. -/
theorem run_eq_ok_of_ready (h : RulesReady c) (v : Inventory) (runId : String) (t : Timing) :
    ∃ r, (run c .builtin v runId t false).1 = .ok r := by
  refine ⟨_, run_eq_ok_iff.mpr ⟨fun e he => ?_, rfl⟩⟩
  obtain ⟨rule, find, hl, -, hev⟩ := exists_local_of_ready h he
  exact ⟨find v, outcomeOf_eq_found_iff.mpr ⟨rfl, rule, hl, hev v⟩⟩

theorem filter_reportedBy (c : Compiled) (e : RuleEntry) (p : Element → Bool) :
    ∀ fs : List Finding,
      (reportedBy c e fs).filter (fun i => p i.element) =
        reportedBy c e (fs.filter fun f => p f.element)
  | [] => rfl
  | f :: fs => by
      have ih := filter_reportedBy c e p fs
      unfold reportedBy at ih ⊢
      cases hr : c.resolve e f.element <;> cases hp : p f.element <;> simp [hr, hp, ih]

theorem findingsBy_part {path : String} (hu : u.PartOf path v) (h : RulesReady c) {e : RuleEntry}
    (he : e ∈ c.enabledRules) :
    (findingsBy .builtin v e).filter (·.element.package == path) = findingsBy .builtin u e := by
  obtain ⟨rule, find, hl, hlocal, hev⟩ := exists_local_of_ready h he
  rw [findingsBy_eq hl (hev v), findingsBy_eq hl (hev u)]
  exact hlocal.filter_part hu

/-- **The issues of a package are those of a run on the package alone**, in the same order. -/
theorem run_part {path : String} {r' : Result} (h : RulesReady c) (hu : u.PartOf path v)
    (hv : (run c .builtin v runId t false).1 = .ok r)
    (hr : (run c .builtin u runId' t' false).1 = .ok r') :
    r.issues.filter (·.element.package == path) = r'.issues := by
  rw [issues_of_run hv, issues_of_run hr, sortIssues,
    StableSort.filter_mergeSort issueBefore_isOrder, List.filter_flatMap]
  congr 1
  refine List.flatMap_congr fun e he => ?_
  rw [filter_reportedBy c e (·.package == path), findingsBy_part hu h he]

/-! ## 2. Checkers -/

/-- An inventory without elements has no issues. -/
theorem issues_of_run_empty (h : RulesReady c)
    (hr : (run c .builtin .empty runId t false).1 = .ok r) : r.issues = [] := by
  have hnone : ∀ e ∈ c.enabledRules, reportedBy c e (findingsBy .builtin .empty e) = [] := by
    intro e he
    obtain ⟨rule, find, hl, ⟨bad, message, hfind⟩, hev⟩ := exists_local_of_ready h he
    rw [findingsBy_eq hl (hev _), hfind]
    rfl
  rw [issues_of_run hr, List.flatMap_eq_nil_iff.mpr hnone, sortIssues, List.mergeSort_nil]

theorem packages_of_compile {cfg : Config} (h : compileChecked (some cfg) = .ok c) :
    ∃ f, c.scan.packages = some f := by
  rw [eq_of_compile (compileChecked_eq_ok h)]
  exact ⟨_, rfl⟩

theorem ofPackage_of_no_files {p : Package} {s : Scope} (h : p.files = []) :
    Inventory.ofPackage p s = .empty := by
  unfold Inventory.ofPackage Package.candidates Package.types
  simp [h, firstByName]

/-- What a checker looks at in a package without test files. -/
def checkedInventory (c : Compiled) (p : Package) : Inventory :=
  if passes c.scan.packages p.importPath then .ofPackage p c.scan else .empty

/-- **A checker's diagnostics are the issues of a run** from its threshold on. -/
theorem diagnose_eq {cfg : Config} (hc : compileChecked (some cfg) = .ok c) (h : RulesReady c)
    {p : Package} (hp : ∀ f ∈ p.files, isTestFile f.path = false)
    (hr : (run c .builtin (checkedInventory c p) runId .none false).1 = .ok r) (T : Severity) :
    diagnose c T p runId =
      .ok ((r.issues.filter fun i => i.severity.atLeast T).map (Diagnostic.ofIssue p.files)) := by
  obtain ⟨filter, hfilter⟩ := packages_of_compile hc
  have hpass : passes c.scan.packages p.importPath = filter.matches_ p.importPath := by
    rw [hfilter]
    rfl
  have hfiles : p.files.filter (fun f => !isTestFile f.path) = p.files :=
    List.filter_eq_self.mpr fun f hf => by simp [hp f hf]
  unfold diagnose
  simp only [hfiles, hfilter]
  cases hadm : filter.matches_ p.importPath with
  | false =>
    have hinv : checkedInventory c p = .empty := by simp [checkedInventory, hpass, hadm]
    rw [hinv] at hr
    rw [issues_of_run_empty h hr]
    rfl
  | true =>
    have hinv : checkedInventory c p = .ofPackage p c.scan := by
      simp [checkedInventory, hpass, hadm]
    rw [hinv] at hr
    cases hnil : p.files with
    | nil =>
      rw [ofPackage_of_no_files hnil] at hr
      rw [issues_of_run_empty h hr]
      rfl
    | cons f fs =>
      have hp : (⟨p.importPath, f :: fs⟩ : Package) = p := by rw [← hnil]
      simp [hp, hr, bind, Except.bind, pure, Except.pure]

/-- **A checker that uses a configuration**, one that it has kept or that it loads now, and reports
from a threshold on. -/
def Checker.Uses (k : Checker) (load : String → Except Error Config) (c : Compiled)
    (threshold : Severity) : Prop :=
  Severity.parse? k.severity = some threshold ∧
    ∃ place, (k.loaded.getOrMake k.configPath (loadCompiled load k.configPath)).1 =
      .ok ⟨place, c⟩

theorem check_of_uses {k : Checker} {load : String → Except Error Config} {T : Severity}
    (h : k.Uses load c T) (p : Package) (runId : String) :
    (k.check load p runId).1 = diagnose c T p runId := by
  obtain ⟨hT, place, hget⟩ := h
  unfold Checker.check
  rw [hT]
  dsimp only
  split
  · rename_i heq
    rw [heq] at hget
    cases hget
  · rename_i heq
    rw [heq] at hget
    cases hget
    rfl

/-! ## 3. Projects -/

section Project

variable {w : Workspace} {root : String} {f : Found} {cfg : Config} {d : SourceDir}

/-- The package of a directory gets the diagnostics that a run on the whole has issues for. -/
theorem check_packageAt (hc : compileChecked (some cfg) = .ok c) (h : RulesReady c)
    (hr : (run c .builtin v runId t false).1 = .ok r) (hd : d ∈ (collect w root).1)
    (hpart : (inventoryAt w root c.scan d).PartOf (packageAt w root d).importPath v)
    {k : Checker} {load : String → Except Error Config} {T : Severity} (hk : k.Uses load c T) :
    (k.check load (packageAt w root d) runId').1 =
      .ok ((r.issues.filter fun i =>
        i.element.package == (packageAt w root d).importPath && i.severity.atLeast T).map
          (Diagnostic.ofIssue (packageAt w root d).files)) := by
  obtain ⟨r', hr'⟩ := run_eq_ok_of_ready h (inventoryAt w root c.scan d) runId' .none
  rw [check_of_uses hk, diagnose_eq hc h (fun _ hf => notTest_of_mem_packageAt hd hf) hr',
    ← run_part h hpart hr hr', List.filter_filter]
  simp only [Bool.and_comm]

/-- Nothing of a package that is not admitted gets into the inventory, so nothing is found in it. -/
theorem issues_of_not_admitted (h : RulesReady c)
    (hr : (run c .builtin v runId t false).1 = .ok r)
    (hpart : (inventoryAt w root c.scan d).PartOf (packageAt w root d).importPath v)
    (hout : passes c.scan.packages (packageAt w root d).importPath = false) :
    r.issues.filter (·.element.package == (packageAt w root d).importPath) = [] := by
  have hempty : inventoryAt w root c.scan d = .empty := by
    rw [inventoryAt, hout]
    rfl
  obtain ⟨r', hr'⟩ := run_eq_ok_of_ready h (inventoryAt w root c.scan d) runId .none
  rw [run_part h hpart hr hr']
  rw [hempty] at hr'
  exact issues_of_run_empty h hr'

/-- **An audit and the checks of its packages agree**: the issues of an audit in the package of a
directory, from a threshold on, are the diagnostics of every checker that uses the configuration and
the threshold; a package that is not admitted has none. -/
theorem audit_agrees_with_checks (hroot : w.resolve true root = .ok f)
    (hdir : f.tree.isDir = true) (hone : OnePackageEach w root)
    (hc : compileChecked (some cfg) = .ok c) (h : RulesReady c) (runId : String) (t : Timing) :
    ∃ v r, (scanProject w root c.scan false).1 = .ok v ∧
      (run c .builtin v runId t false).1 = .ok r ∧
      ∀ d ∈ (collect w root).1,
        let p := packageAt w root d
        (∀ k load T runId', Checker.Uses k load c T →
          (k.check load p runId').1 =
            .ok ((r.issues.filter fun i =>
              i.element.package == p.importPath && i.severity.atLeast T).map
                (Diagnostic.ofIssue p.files))) ∧
        (passes c.scan.packages p.importPath = false →
          (∀ i ∈ r.issues, i.element.package ≠ p.importPath) ∧
          ∀ k load T runId', Checker.Uses k load c T → (k.check load p runId').1 = .ok []) := by
  obtain ⟨v, hv, hpart⟩ := partOf_scanProject c.scan hroot hdir hone
  obtain ⟨r, hr⟩ := run_eq_ok_of_ready h v runId t
  refine ⟨v, r, hv, hr, fun d hd => ⟨fun k load T runId' hk => ?_, fun hout => ⟨fun i hi => ?_, ?_⟩⟩⟩
  · exact check_packageAt hc h hr hd (hpart d hd) hk
  · have hnone := issues_of_not_admitted h hr (hpart d hd) hout
    simpa using List.filter_eq_nil_iff.mp hnone i hi
  · intro k load T runId' hk
    rw [check_packageAt hc h hr hd (hpart d hd) hk, ← List.filter_filter, List.filter_comm,
      issues_of_not_admitted h hr (hpart d hd) hout]
    rfl

end Project

/-- A configuration with two rules that leaves one package of the project out. -/
def nestedConfig : Config :=
  { Config.default with
    scan.packages := ⟨[], [".*/gen"]⟩
    rules := [.named "doc-presence",
      { Config.RuleEntry.named "doc-name-prefix" with severity := .info }] }

/-- This configuration, compiled. -/
def nestedCompiled : Compiled := ((compileAll nestedConfig).run []).1

/-- A checker that uses the configuration and reports from a severity on. -/
def nestedChecker (threshold : Severity) : Checker :=
  { Checker.new with severity := threshold.text }

theorem scan_nestedCompiled :
    nestedCompiled.scan = { defaultScope with packages := nestedCompiled.scan.packages } := rfl

theorem nestedChecker_uses {T : Severity} (hT : Severity.parse? T.text = some T)
    (hc : compileChecked (some nestedConfig) = .ok nestedCompiled) :
    (nestedChecker T).Uses (fun _ => .ok nestedConfig) nestedCompiled T := by
  refine ⟨hT, 0, ?_⟩
  show (Memo.empty.getOrMake "" (compileChecked (some nestedConfig))).1 = _
  rw [hc]
  rfl

/-- What is wrong with the functions of a package in the project. -/
def pairIssues (d : SourceDir) (name : String) (severity : Severity) : List Issue :=
  [⟨.info, "doc-name-prefix", "Doc comment for " ++ name ++ ".F should begin with \"F\"",
      pairFunction d "F" 6⟩,
    ⟨severity, "doc-presence", "Missing doc comment: " ++ name ++ ".G", pairFunction d "G" 3⟩]

/-- The issues of an audit: rule by rule they are found, by file and name they are reported. -/
def nestedIssues : List Issue :=
  pairIssues ⟨".", ["a.go"]⟩ "m" .error ++
    pairIssues ⟨"internal", ["internal/b.go"]⟩ "internal" .warn

theorem issues_nestedProject
    (h : (run nestedCompiled .builtin (nestedInventory nestedCompiled.scan.packages) "" .none
      false).1 = .ok r) : r.issues = nestedIssues := by
  rw [issues_of_run h]
  exact sortIssues_of_strict (by decide +kernel) (by decide +kernel)

/-- A diagnostic depends on nothing of a file but its name and the number of its lines. -/
theorem ofIssue_singleton (f : File) :
    Diagnostic.ofIssue [f] = Diagnostic.ofIssue [⟨f.path, "", false, [], [], f.lines⟩] := by
  funext i
  unfold Diagnostic.ofIssue Diagnostic.positionIn
  rw [List.reverse_singleton, List.reverse_singleton, List.find?_singleton, List.find?_singleton]
  cases f.path == i.element.sourceFile <;> rfl

/-- The diagnostics of the checkers: the package at the top has one of an error and one of less, the
second package is left out, and in the third one nothing is an error. -/
def nestedDiagnostics : List (SourceDir × Severity × List Diagnostic) :=
  let named file package : Diagnostic := ⟨some ⟨file, 6⟩,
    "[INFO] Doc comment for " ++ package ++ ".F should begin with \"F\" (doc-name-prefix)"⟩
  let missing file package severity : Diagnostic := ⟨some ⟨file, 3⟩,
    "[" ++ severity ++ "] Missing doc comment: " ++ package ++ ".G (doc-presence)"⟩
  [(⟨".", ["a.go"]⟩, .info, [named "a.go" "m", missing "a.go" "m" "ERROR"]),
    (⟨".", ["a.go"]⟩, .error, [missing "a.go" "m" "ERROR"]),
    (⟨"gen", ["gen/c.go"]⟩, .info, []),
    (⟨"internal", ["internal/b.go"]⟩, .info,
      [named "internal/b.go" "internal", missing "internal/b.go" "internal" "WARN"]),
    (⟨"internal", ["internal/b.go"]⟩, .error, [])]

theorem audit_agrees_with_checks_nested :
    ∃ v r, (scanProject nestedProject "." nestedCompiled.scan false).1 = .ok v ∧
      (run nestedCompiled .builtin v "" .none false).1 = .ok r ∧ r.issues = nestedIssues ∧
      passes nestedCompiled.scan.packages "m/gen" = false ∧
      ∀ x ∈ nestedDiagnostics,
        x.1 ∈ (collect nestedProject ".").1 ∧
        ((nestedChecker x.2.1).check (fun _ => .ok nestedConfig)
          (packageAt nestedProject "." x.1) "").1 = .ok x.2.2 := by
  have hc : compileChecked (some nestedConfig) = .ok nestedCompiled :=
    compileChecked_of_isOk (by decide +kernel)
  have hready : RulesReady nestedCompiled := rulesReady_iff.mpr (by decide +kernel)
  have hscan := scanProject_nestedProject scan_nestedCompiled
  obtain ⟨v, r, hv, hr, hall⟩ := audit_agrees_with_checks (resolve_nestedProject true) rfl
    onePackageEach_nestedProject hc hready "" .none
  obtain rfl : v = nestedInventory nestedCompiled.scan.packages :=
    Except.ok.inj (hv.symm.trans hscan)
  have hissues := issues_nestedProject hr
  have hdirs : ∀ x ∈ nestedDiagnostics, x.1 ∈ nestedDirs := by decide
  have hscale : ∀ x ∈ nestedDiagnostics, Severity.parse? x.2.1.text = some x.2.1 := by
    decide +kernel
  have hshown : ∀ x ∈ nestedDiagnostics,
      (nestedIssues.filter fun i => i.element.package == (nestedPackage x.1).importPath &&
        i.severity.atLeast x.2.1).map
          (Diagnostic.ofIssue [⟨x.1.files.headD "", "", false, [], [], 6⟩]) = x.2.2 := by
    decide +kernel
  refine ⟨_, r, hv, hr, hissues, by decide +kernel, fun x hx => ?_⟩
  have hd := hdirs x hx
  rw [← collect_nestedProject] at hd
  have hcheck := (hall x.1 hd).1 _ _ _ "" (nestedChecker_uses (hscale x hx) hc)
  obtain ⟨f, hf, hpath, hlines, -⟩ := nestedPackage_files x.1 (hdirs x hx)
  rw [hissues, packageAt_nestedProject x.1 (hdirs x hx), hf, ofIssue_singleton, hpath,
    hlines, hshown x hx] at hcheck
  rw [packageAt_nestedProject x.1 (hdirs x hx)]
  exact ⟨hd, hcheck⟩

end DocAudit.Audit
