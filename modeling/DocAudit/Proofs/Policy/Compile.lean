import DocAudit.Policy.Compile

/-!
# What compiling keeps

A compiled configuration has the values of the configuration it comes from; only patterns become
expressions.

* `run_compileEach_map`: a list is compiled item by item, so what every item keeps the list keeps;
* `compile_severities`: compiling changes no severity.
-/

namespace DocAudit.Policy

/-- What each item of a list keeps, the compiled list keeps. -/
theorem run_compileEach_map {α β γ : Type} {one : Nat → α → Compiler β} {f : β → γ} {f' : α → γ}
    (h : ∀ i a ps, f ((one i a).run ps).1 = f' a) :
    ∀ (as : List α) (i : Nat) (ps : List PatternProblem),
      ((compileEach one i as).run ps).1.map f = as.map f'
  | [], _, _ => rfl
  | a :: as, i, ps => by
      have ih := run_compileEach_map h as (i + 1) ((one i a).run ps).2
      rw [List.map_cons, ← ih, ← h i a ps]
      rfl

theorem eq_of_compile {cfg : Config} {c : Compiled} (h : compile cfg = .ok c) :
    c = ((compileAll cfg).run []).1 := by
  unfold compile at h
  split at h
  · rename_i heq
    cases h
    rw [heq]
  · cases h

theorem compileChecked_eq_ok {cfg : Config} {c : Compiled}
    (h : compileChecked (some cfg) = .ok c) : compile cfg = .ok c := by
  simp only [compileChecked] at h
  split at h
  · rename_i heq
    cases h
    exact heq
  · cases h

/-- Where compiling succeeds, its value is that of the traversal. -/
theorem compileChecked_of_isOk {cfg : Config} (h : (compileChecked (some cfg)).isOk = true) :
    compileChecked (some cfg) = .ok ((compileAll cfg).run []).1 := by
  cases hc : compileChecked (some cfg) with
  | error e =>
    rw [hc] at h
    cases h
  | ok c => rw [eq_of_compile (compileChecked_eq_ok hc)]

/-- **Compiling changes no severity**, and none of the effects that decide which one counts. -/
theorem compile_severities {cfg : Config} {c : Compiled} (h : compile cfg = .ok c) :
    c.byVisibility = cfg.defaults.severity.byVisibility ∧
      c.overrides.map (·.severity) = cfg.defaults.severity.overrides.map (·.severity) ∧
      c.policies.map (fun p => (p.effect, p.toSeverity)) =
        cfg.defaults.policies.map (fun p => (p.effect, p.toSeverity)) ∧
      c.rules.map (·.severity) = cfg.rules.map (·.severity) := by
  rw [eq_of_compile h]
  exact ⟨rfl, run_compileEach_map (fun _ _ _ => rfl) _ _ _,
    run_compileEach_map (fun _ _ _ => rfl) _ _ _, run_compileEach_map (fun _ _ _ => rfl) _ _ _⟩

end DocAudit.Policy
