import DocAudit.Files.Settings
import DocAudit.Proofs.Config.Validate
import DocAudit.Proofs.Except
import DocAudit.Proofs.Files.Nested

/-!
# When a configuration is loaded

A file describes a configuration, decoded over the defaults, and the variables of the environment
are laid over it.  It would be enough to check the result.  `loadConfig` checks what the file
describes as well, before any variable is looked at.

* `discover_here`: without a file of one of the names, none is found;
* `described` is what a file describes, and `Settles` what is loaded if only the result is checked;
* `loadConfig_checks_twice`: `loadConfig` refuses more, namely every file whose configuration is not
  valid by itself, also where the variables replace what is wrong with it.
-/

namespace DocAudit

open Config

/-- A configuration meets its constraints. -/
def Config.Valid (c : Config) : Prop := validate (some c) = .ok ()

instance (c : Config) : Decidable c.Valid :=
  decidable_of_iff (c.faults = []) (validate_eq_ok_iff c).symm

namespace Files

/-- What a file describes, decoded over the defaults; without a path, the defaults. -/
def described (w : Workspace) (path : String) : Except Error Config :=
  if path == "" then .ok .default else w.read path >>= decodeBytes .default

/-- What the environment makes of a file, if the result is valid. -/
def Settles (w : Workspace) (env : Environment) (path : String) (d : Config) : Prop :=
  ∃ c, described w path = .ok c ∧ (c.withEnvironment env).Valid ∧ d = c.withEnvironment env

/-! ## 1. Where a configuration is looked for -/

/-- Without a file of one of the names, no configuration is found. -/
theorem discover_here {w : Workspace} {es : List (String × Tree)}
    (hhere : Tree.at? w.current w.top = some (.dir es))
    (hfree : ∀ name ∈ fileNames, es.lookup name = none) : discover w "." = "" := by
  have hnames : ∀ name ∈ fileNames, IsEntryName name := by decide
  have hnone : (fileNames.map fun name => joinPath [".", name]).find? w.isPlain = none := by
    rw [List.find?_eq_none]
    intro path hpath hplain
    obtain ⟨name, hname, rfl⟩ := List.mem_map.mp hpath
    rw [Workspace.isPlain, resolve_here_of_free hhere (hnames name hname) (hfree name hname)]
      at hplain
    cases hplain
  rw [discover, hnone]
  rfl

/-! ## 2. Steps of loading -/

theorem checked_eq_ok_iff (label : String) (c d : Config) :
    checked label c = .ok d ↔ c.Valid ∧ d = c := by
  unfold checked Config.Valid
  cases validate (some c) with
  | ok u => simp [eq_comm]
  | error e => simp

theorem ofFile_eq_ok_iff (path : String) (content : Except Error ByteArray) (c : Config) :
    ofFile path content = .ok c ↔ content >>= decodeBytes .default = .ok c ∧ c.Valid := by
  simp only [ofFile, bind_eq_ok_iff, mapError_eq_ok_iff, checked_eq_ok_iff]
  constructor
  · rintro ⟨bytes, hread, d, hdecode, hvalid, rfl⟩
    exact ⟨⟨bytes, hread, hdecode⟩, hvalid⟩
  · rintro ⟨⟨bytes, hread, hdecode⟩, hvalid⟩
    exact ⟨bytes, hread, c, hdecode, hvalid, rfl⟩

/-- What a file describes is loaded if it is valid by itself and with the environment over it. -/
theorem loadConfig_eq_ok_iff (w : Workspace) (env : Environment) (path : String) (d : Config) :
    loadConfig w (some env) path = .ok d ↔
      ∃ c, described w path = .ok c ∧ c.Valid ∧ (c.withEnvironment env).Valid ∧
        d = c.withEnvironment env := by
  unfold loadConfig described
  by_cases hpath : path = ""
  · subst hpath
    simp only [beq_self_eq_true, if_true, bind_eq_ok_iff, checked_eq_ok_iff, overridden,
      Except.ok.injEq]
    constructor
    · rintro ⟨c, ⟨hvalid, rfl⟩, hresult⟩
      exact ⟨_, rfl, hvalid, hresult⟩
    · rintro ⟨c, rfl, hvalid, hresult⟩
      exact ⟨_, ⟨hvalid, rfl⟩, hresult⟩
  · have hne : (path == "") = false := beq_eq_false_iff_ne.mpr hpath
    simp only [hne, Bool.false_eq_true, if_false, bind_eq_ok_iff, ofFile_eq_ok_iff, overridden,
      checked_eq_ok_iff, and_assoc]

/-! ## 3. The two checks -/

/-- **A configuration is checked before and after the environment is laid over it.**  So the result
is the one that is described with the environment over it, if both are valid; and it is what the last
check alone would give, for all environments and files but those where only the result is valid. -/
theorem loadConfig_checks_twice (w : Workspace) (env : Environment) (path : String) :
    (∀ d, loadConfig w (some env) path = .ok d ↔
        ∃ c, described w path = .ok c ∧ c.Valid ∧ (c.withEnvironment env).Valid ∧
          d = c.withEnvironment env) ∧
      ((∀ d, loadConfig w (some env) path = .ok d ↔ Settles w env path d) ↔
        ∀ c, described w path = .ok c → (c.withEnvironment env).Valid → c.Valid) := by
  refine ⟨loadConfig_eq_ok_iff w env path, ?_⟩
  simp only [loadConfig_eq_ok_iff]
  constructor
  · intro h c hc hresult
    obtain ⟨c', hc', hvalid, -⟩ := (h (c.withEnvironment env)).mpr ⟨c, hc, hresult, rfl⟩
    rw [hc] at hc'
    cases hc'
    exact hvalid
  · intro h d
    constructor
    · rintro ⟨c, hc, -, hresult, rfl⟩
      exact ⟨c, hc, hresult, rfl⟩
    · rintro ⟨c, hc, hresult, rfl⟩
      exact ⟨c, hc, h c hc hresult, hresult, rfl⟩

/-- The text of a configuration with a threshold that is off the scale. -/
def unknownThreshold : ByteArray := "fail_on:\n  severity: FATAL\n".toUTF8

/-- A workspace that holds it. -/
def thresholdSpace : Workspace := ⟨.dir [("docguard.yaml", .file unknownThreshold)], []⟩

/-- A variable that names one on it. -/
def thresholdVariable : Environment := [("DOCGUARD_FAIL_ON_SEVERITY", "WARN")]

theorem described_thresholdSpace :
    described thresholdSpace "docguard.yaml" = decodeBytes .default unknownThreshold := by
  have helems : pathElements "docguard.yaml" = ["docguard.yaml"] := by decide +kernel
  have hrelative : Text.hasStart "docguard.yaml" "/" = false := by decide +kernel
  have hread : thresholdSpace.read "docguard.yaml" = .ok unknownThreshold := by
    unfold Workspace.read Workspace.resolve Workspace.locate
    rw [helems, walk]
    simp [hrelative, thresholdSpace, Tree.at?, Tree.entries, Tree.isDir, walk, Place.found, bind,
      Except.bind]
  unfold described
  rw [hread]
  rfl

/-- The variable replaces all that is wrong with the file, and yet the file is refused. -/
theorem loadConfig_refuses_replaced :
    (∃ d, Settles thresholdSpace thresholdVariable "docguard.yaml" d ∧ d.failOn = .warn) ∧
      ∀ d, loadConfig thresholdSpace (some thresholdVariable) "docguard.yaml" ≠ .ok d := by
  have hfile : (decodeBytes .default unknownThreshold).toOption.any (fun c =>
      decide (¬ c.Valid ∧ (c.withEnvironment thresholdVariable).Valid ∧
        (c.withEnvironment thresholdVariable).failOn = .warn)) = true := by decide +kernel
  obtain ⟨c, hc, hinvalid, hresult, hwarn⟩ := exists_eq_ok_of_any hfile
  rw [← described_thresholdSpace] at hc
  refine ⟨⟨_, ⟨c, hc, hresult, rfl⟩, hwarn⟩, fun d hd => ?_⟩
  obtain ⟨c', hc', hvalid, -⟩ := (loadConfig_eq_ok_iff _ _ _ _).mp hd
  rw [hc] at hc'
  cases hc'
  exact hinvalid hvalid

end Files

end DocAudit
