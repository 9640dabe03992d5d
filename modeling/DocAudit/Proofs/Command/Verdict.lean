import DocAudit.Command.Program
import DocAudit.Proofs.Audit.Agreement
import DocAudit.Proofs.Audit.Bookkeeping
import DocAudit.Proofs.Audit.Counts
import DocAudit.Proofs.Files.Settings
import DocAudit.Proofs.Policy.Scale

/-!
# The verdict of a scan

Whether a scan has failed is told four times: by its exit status and error, by the report for
machines, by the metrics, and by the issues themselves.

* `failOn_of_planScan`: the threshold of a scan is on the scale, and the one that it was asked for;
* `runScan_of_run`: what a scan does with the result of its run;
* `verdicts_agree`: all verdicts on a run are the same, and all counts in them.
-/

namespace DocAudit

/-! ## 1. The threshold -/

theorem Severity.mem_scale_of_parse? {s : String} {t : Severity} (h : parse? s = some t) :
    t ∈ scale := by
  unfold parse? at h
  dsimp only at h
  split at h
  · rename_i hvalid
    obtain rfl := Option.some.inj h
    exact (Severity.isValid_iff _).mp hvalid
  · cases h

namespace Command

variable {c : Context} {p : Parsed} {plan : ScanPlan}

theorem valid_of_loadConfig {operands : List String} {cfg : Config} {path : String}
    (h : loadConfig c p operands = .ok (cfg, path)) :
    ∃ loaded : Config, loaded.Valid ∧ cfg.failOn = loaded.failOn := by
  unfold loadConfig at h
  dsimp only at h
  split at h
  · cases h
  · rename_i loaded hload
    obtain ⟨d, -, -, hvalid, rfl⟩ := (Files.loadConfig_eq_ok_iff _ _ _ _).mp hload
    refine ⟨_, hvalid, ?_⟩
    cases operands <;> cases h <;> rfl

theorem failOn_of_withScanFlags {cfg cfg' : Config} (h : withScanFlags p cfg = .ok cfg') :
    cfg'.failOn = cfg.failOn ∨ Severity.parse? (p.text "fail-on") = some cfg'.failOn := by
  -- The other flag names a file only.
  have hfile : ∀ {x : Except Error Config} {base : Config}, x = .ok base →
      (x >>= fun d : Config => pure (if p.text "metrics-file" == "" then d
        else { d with telemetry.metrics.textfile := p.text "metrics-file" })) = .ok cfg' →
      cfg'.failOn = base.failOn := by
    rintro x base rfl hcfg
    cases hcfg
    split <;> rfl
  unfold withScanFlags at h
  dsimp only at h
  split at h
  · exact .inl (hfile rfl h)
  · split at h
    · rename_i t ht
      rw [ht, hfile rfl h]
      exact .inr rfl
    · cases h

/-- **The threshold of a scan is on the scale**: it is the one of a valid configuration, or the one
that the flag names. -/
theorem failOn_of_planScan (h : planScan c p = .ok plan) :
    plan.compiled.failOn = plan.config.failOn ∧ plan.config.failOn ∈ Severity.scale := by
  simp only [planScan, bind_eq_ok_iff, mapError_eq_ok_iff] at h
  obtain ⟨format, -, ⟨cfg, path⟩, hload, cfg', hflags, logger, -, tracer, -, compiled, hcompile,
    format', -, hplan⟩ := h
  cases hplan
  obtain ⟨loaded, hvalid, hfail⟩ := valid_of_loadConfig hload
  refine ⟨?_, ?_⟩
  · rw [Policy.eq_of_compile (Policy.compileChecked_eq_ok hcompile)]
    rfl
  · rcases failOn_of_withScanFlags hflags with hsame | hparse
    · rw [hsame, hfail]
      exact Config.failOn_of_faults_eq_nil ((validate_eq_ok_iff _).mp hvalid)
    · exact Severity.mem_scale_of_parse? hparse

end Command

/-! ## 2. What the report and the metrics say -/

/-- The part of data under a path of names. -/
def Data.part? : List String → Data → Option Data
  | [], d => some d
  | name :: path, .record es => (es.lookup name).bind (part? path)
  | _, _ => none

namespace Audit

open Metrics

variable {cc : Policy.Compiled} {g : Rule.Registry} {v : Inventory} {runId : String} {tm : Timing}
  {r : Result} {record : Record} {t : Severity}

theorem failed_data : (r.data t).part? ["failed"] = some (.bool (r.fails t)) := rfl

theorem total_data : (r.data t).part? ["summary", "total"] = some (.int r.issues.length) := rfl

theorem bySeverity_data : (r.data t).part? ["summary", "by_severity"] =
    some (.dict ((bySeverity r.issues).map fun x => (x.1.text, .int x.2))) := rfl

/-- A run with a result is counted once, as failed or as a success. -/
theorem runsTotal_run (h : run cc g v runId tm false = (.ok r, record)) (s : RunStatus) :
    runsTotal record.events s =
      if (if r.fails cc.failOn then RunStatus.failed else .success) = s then 1 else 0 := by
  obtain ⟨hout, rfl⟩ := Prod.mk.inj h
  rw [mapError_eq_ok_iff] at hout
  rw [runsTotal_eventsOf, hout]
  rfl

end Audit

namespace Command

open Audit Metrics

variable {c : Context} {p : Parsed} {plan : ScanPlan} {v : Inventory} {log : List Log.Entry}
  {r : Result} {record : Record}

/-! ## 3. The scan -/

/-- **What a scan makes of the result of its run.** -/
theorem runScan_of_run (hplan : planScan c p = .ok plan)
    (hscan : Files.scanProject c.workspace plan.compiled.projectRoot plan.compiled.scan false =
      (.ok v, log))
    (hrun : run plan.compiled .builtin v c.runId c.timing false = (.ok r, record)) :
    (runScan c p).error = failureOf plan.compiled r ∧
      (runScan c p).output =
        r.report plan.format (c.color && !p.on "no-color") plan.compiled.failOn := by
  unfold runScan
  rw [hplan]
  dsimp only
  rw [hscan]
  dsimp only
  rw [hrun]
  exact ⟨rfl, rfl⟩

theorem exitCode_threshold (t : Severity) (n : Int) : (Error.threshold t n).exitCode = 40 := rfl

/-- **All verdicts on a run agree.**  A scan that gets to the result of its run ends with the error
of a reached threshold, and so with the status 40, if and only if the report for machines says that
it has failed, the metrics count it as failed and not as a success, and some issue reaches the
threshold.  The error, the summary of the report and a tally of the issues count the same.  A run
that fails at a threshold fails at every lower one. -/
theorem verdicts_agree (hplan : planScan c p = .ok plan)
    (hscan : Files.scanProject c.workspace plan.compiled.projectRoot plan.compiled.scan false =
      (.ok v, log))
    (hrun : run plan.compiled .builtin v c.runId c.timing false = (.ok r, record)) :
    let t := plan.config.failOn
    let counts := tally r.issues
    t ∈ Severity.scale ∧
    (plan.format = .json → (runScan c p).output = (r.data t).jsonIndented ++ "\n") ∧
    [∃ n, (runScan c p).error = some (.threshold t n),
      (runScan c p).exitCode = 40,
      (r.data t).part? ["failed"] = some (.bool true),
      runsTotal record.events .failed = 1 ∧ runsTotal record.events .success = 0,
      ∃ i ∈ r.issues, t.rank ≤ i.severity.rank].TFAE ∧
    (∀ n, (runScan c p).error = some (.threshold t n) →
      n = countSum (reaching t counts) ∧ 1 ≤ n) ∧
    (r.data t).part? ["summary", "total"] = some (.int (countSum counts)) ∧
    (r.data t).part? ["summary", "by_severity"] =
      some (.dict (counts.map fun x => (x.1.text, .int x.2))) ∧
    ∀ high low : Severity, low.rank ≤ high.rank → r.fails high = true → r.fails low = true := by
  obtain ⟨hthreshold, hscale⟩ := failOn_of_planScan hplan
  obtain ⟨herror, houtput⟩ := runScan_of_run hplan hscan hrun
  rw [hthreshold] at houtput
  rw [failureOf, hthreshold] at herror
  refine ⟨hscale, fun hjson => ?_, List.tfae_of_forall (r.fails plan.config.failOn = true) _ ?_,
    fun n hn => ?_, ?_, ?_, fun high low => fails_of_le⟩
  · rw [houtput, hjson]
    rfl
  · simp only [List.mem_cons, List.not_mem_nil, or_false, forall_eq_or_imp, forall_eq]
    refine ⟨?_, ?_, ?_, ?_, fails_iff.symm⟩
    · rw [herror]
      cases r.fails plan.config.failOn <;> simp
    · rw [Outcome.exitCode, herror]
      cases r.fails plan.config.failOn with
      | true => simp [exitCodeOf, exitCode_threshold]
      | false => simp [exitCodeOf]
    · rw [failed_data]
      simp
    · rw [runsTotal_run hrun, runsTotal_run hrun, hthreshold]
      cases r.fails plan.config.failOn <;> decide
  · rw [herror] at hn
    split at hn
    · rename_i hfails
      cases hn
      have hpos := fails_iff_atLeast_pos.mp hfails
      rw [atLeast_eq_countSum] at hpos ⊢
      exact ⟨rfl, by omega⟩
    · cases hn
  · rw [total_data, countSum_tally]
  · rw [bySeverity_data, bySeverity_eq_tally]

/-- A context that has nothing but a project with three packages. -/
def bareContext : Context where
  workspace := Files.nestedProject
  environment := []
  color := false
  runId := ""
  time := ""
  timing := .none

/-- A scan that is asked for a report for machines. -/
def bareParsed : Parsed := ⟨[("format", "json")], []⟩

theorem allVars_bareContext : bareContext.allVars = [] := by
  have hread := Files.read_here_of_free ".env" Files.nestedProject_here (by decide) rfl
  have hpath : Files.joinPath [".", ".env"] = ".env" := by decide
  rw [hpath] at hread
  unfold Context.allVars bareContext
  rw [hread]

theorem loadConfig_bareContext :
    loadConfig bareContext bareParsed [] = .ok (Config.default, "") := by
  have hnamed : bareParsed.text "config" = "" := by decide
  have hdiscover : Files.discover bareContext.workspace "." = "" :=
    Files.discover_here Files.nestedProject_here (by decide)
  have hload : Files.loadConfig bareContext.workspace (some []) "" = .ok Config.default := by
    rw [Files.loadConfig_eq_ok_iff]
    exact ⟨Config.default, rfl, by decide, by decide, rfl⟩
  unfold loadConfig
  simp only [hnamed, beq_self_eq_true, if_true, List.head?_nil, Option.getD_none, hdiscover,
    allVars_bareContext, hload]

/-- The compiled default configuration. -/
def defaultCompiled : Policy.Compiled := ((Policy.compileAll Config.default).run []).1

theorem planScan_bareContext :
    ∃ plan, planScan bareContext bareParsed = .ok plan ∧ plan.format = .json ∧
      plan.config = Config.default ∧ plan.compiled = defaultCompiled := by
  have hcompile : Policy.compileChecked (some Config.default) = .ok defaultCompiled :=
    Policy.compileChecked_of_isOk (by decide +kernel)
  obtain ⟨format, hformat, rfl⟩ : ∃ format,
      OutputFormat.parse (bareParsed.textOr "format" "text") ["text", "json"] = .ok format ∧
        format = "json" := exists_eq_ok_of_any (by decide)
  have hflags : withScanFlags bareParsed Config.default = .ok Config.default := by
    have hunset : bareParsed.text "fail-on" = "" ∧ bareParsed.text "metrics-file" = "" := by
      decide
    simp [withScanFlags, hunset, pure, Except.pure, bind, Except.bind]
  obtain ⟨logger, hlogger, -⟩ : ∃ logger, loggerOf bareParsed Config.default = .ok logger ∧ True :=
    exists_eq_ok_of_any (by decide)
  have htracer : Trace.Tracer.ofConfig (some Config.default.telemetry.tracing) = .ok .off := rfl
  obtain ⟨report, hreport, rfl⟩ : ∃ report,
      ReportFormat.parse "json" = .ok report ∧ report = .json :=
    exists_eq_ok_of_any (by decide)
  refine ⟨⟨.json, Config.default, defaultCompiled, logger⟩, ?_, rfl, rfl, rfl⟩
  simp only [planScan, bind_eq_ok_iff, mapError_eq_ok_iff]
  exact ⟨_, hformat, ⟨_, _⟩, loadConfig_bareContext, _, hflags, _, hlogger, _, htracer, _, hcompile,
    _, hreport, rfl⟩

/-- The functions without doc comments: two in exported packages, one in an internal one. -/
def bareIssues : List Issue :=
  [⟨.error, "doc-presence", "Missing doc comment: m.G",
      Files.pairFunction ⟨".", ["a.go"]⟩ "G" 3⟩,
    ⟨.error, "doc-presence", "Missing doc comment: gen.G",
      Files.pairFunction ⟨"gen", ["gen/c.go"]⟩ "G" 3⟩,
    ⟨.warn, "doc-presence", "Missing doc comment: internal.G",
      Files.pairFunction ⟨"internal", ["internal/b.go"]⟩ "G" 3⟩]

/-- What the default configuration finds in the project. -/
def bareInventory : Inventory := Files.nestedInventory defaultCompiled.scan.packages

theorem issues_bareInventory
    (h : (run defaultCompiled .builtin bareInventory "" .none false).1 = .ok r) :
    r.issues = bareIssues := by
  rw [issues_of_run h]
  exact sortIssues_of_strict (by decide +kernel) (by decide +kernel)

/-- Two of three issues reach the threshold. -/
theorem verdicts_agree_nested : ∃ r : Result,
    r.issues = bareIssues ∧
      (runScan bareContext bareParsed).error = some (.threshold .error 2) ∧
      (runScan bareContext bareParsed).exitCode = 40 ∧
      (runScan bareContext bareParsed).output = (r.data .error).jsonIndented ++ "\n" ∧
      (r.data .error).part? ["failed"] = some (.bool true) ∧
      (r.data .error).part? ["summary", "total"] = some (.int 3) ∧
      (r.data .error).part? ["summary", "by_severity"] =
        some (.dict [("INFO", .int 0), ("WARN", .int 1), ("ERROR", .int 2)]) ∧
      r.fails .info = true := by
  obtain ⟨plan, hplan, hjson, hconfig, hcompiled⟩ := planScan_bareContext
  have hready : RulesReady defaultCompiled := rulesReady_iff.mpr (by decide)
  obtain ⟨r, hr⟩ := run_eq_ok_of_ready hready bareInventory "" .none
  have hscope : defaultCompiled.scan =
      { Files.defaultScope with packages := defaultCompiled.scan.packages } := rfl
  have hfound := Files.scanProject_nestedProject hscope
  obtain ⟨log, hscan⟩ : ∃ log, Files.scanProject bareContext.workspace plan.compiled.projectRoot
      plan.compiled.scan false = (.ok bareInventory, log) := by
    rw [hcompiled]
    exact ⟨_, Prod.ext hfound rfl⟩
  obtain ⟨record, hrun⟩ : ∃ record, run plan.compiled .builtin bareInventory bareContext.runId
      bareContext.timing false = (.ok r, record) := by
    rw [hcompiled]
    exact ⟨_, Prod.ext hr rfl⟩
  obtain ⟨-, houtput, hagree, hcount, htotal, hsummary, hlower⟩ := verdicts_agree hplan hscan hrun
  have hdefault : plan.config.failOn = .error := by rw [hconfig]; rfl
  rw [hdefault] at houtput hagree hcount htotal hsummary
  have hissues := issues_bareInventory hr
  rw [hissues] at htotal hsummary
  have hreach : ∃ i ∈ r.issues, Severity.error.rank ≤ i.severity.rank := by
    rw [hissues]
    decide
  obtain ⟨n, hn⟩ := (hagree.out 4 0).mp hreach
  have htwo : n = 2 := by
    rw [(hcount n hn).1, hissues]
    decide
  refine ⟨r, hissues, htwo ▸ hn, (hagree.out 4 1).mp hreach, houtput hjson,
    (hagree.out 4 2).mp hreach, htotal, hsummary, ?_⟩
  exact hlower .error .info (by decide) (fails_iff.mpr hreach)

end Command

end DocAudit
