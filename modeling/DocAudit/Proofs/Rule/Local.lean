import DocAudit.Rule.Registry
import DocAudit.Proofs.Inventory.Merge

/-!
# Local rules

The built-in rules look at each element alone: at the element and its doc text, and at nothing else
of the inventory.  What they find in a package is therefore the same whether the inventory holds
other packages too or not.

* `Inventory.PartOf` relates an inventory to what it has of one package;
* `isLocal_of_builtin`: the built-in rules are local;
* `IsLocal.filter_part`: a local rule finds in the part what it finds there in the whole;
* `IsLocal.perm`: a local rule finds the same whatever the order of the elements, and makes at most
  one finding on each of them (`IsLocal.elements_sublist`).
-/

namespace DocAudit

/-- **`u` is what `v` has of a package**: its elements, in their order and with their texts. -/
structure Inventory.PartOf (path : String) (u v : Inventory) : Prop where
  elements : v.elements.filter (·.package == path) = u.elements
  doc? : ∀ e ∈ u.elements, v.doc? e = u.doc? e

namespace Rule

open DocAudit.Text

/-- **Findings on each element alone**, from the element and its doc text. -/
def IsLocal (find : Inventory → List Finding) : Prop :=
  ∃ (bad : Option String → Element → Bool) (message : Element → String),
    ∀ v, find v = report (fun e => bad (v.doc? e) e) message v

variable {rule : Rule} {options : Option Yaml.Node} {look : Bool → Inventory → Evaluation}
  {find : Inventory → List Finding} {v : Inventory}

theorem look_of_docPresence (h : docPresence.prepare options = .ok look) :
    ∃ o, look = looking (DocPresence.findings o) := by
  simp only [docPresence, bind, Except.bind] at h
  split at h
  · cases h
  · split at h
    · cases h
    · cases h
      exact ⟨_, rfl⟩

theorem look_of_docNamePrefix (h : docNamePrefix.prepare options = .ok look) :
    ∃ o, look = looking (DocNamePrefix.findings o) := by
  simp only [docNamePrefix, bind, Except.bind] at h
  split at h
  · cases h
  · split at h
    · cases h
    · cases h
      exact ⟨_, rfl⟩

theorem isLocal_docPresence (o : DocPresence.Options) : IsLocal (DocPresence.findings o) :=
  ⟨fun doc _ => decide ((DocPresence.docLength (doc.getD "") : Int) < o.minLength.toInt),
    DocPresence.message, fun _ => rfl⟩

theorem isLocal_docNamePrefix (o : DocNamePrefix.Options) :
    IsLocal (DocNamePrefix.findings o) := by
  refine ⟨fun doc e => !o.skipKinds.contains e.kind &&
    doc.any fun text => trim text != "" &&
      !DocNamePrefix.startsWithName text e.name o.allowArticles,
    DocNamePrefix.message, fun v => ?_⟩
  unfold DocNamePrefix.findings
  congr 1
  funext e
  unfold DocNamePrefix.misnamed
  cases v.doc? e <;> rfl

/-- **The built-in rules are local**: with the options that they accept they make the findings of a
local rule, unless they are called off. -/
theorem isLocal_of_builtin {id : String} (hl : Registry.builtin.lookup id = some rule)
    (h : rule.prepare options = .ok look) : ∃ find, IsLocal find ∧ look = looking find := by
  have hmem : rule ∈ [docPresence, docNamePrefix] := List.mem_of_find?_eq_some hl
  simp only [List.mem_cons, List.not_mem_nil, or_false] at hmem
  rcases hmem with rfl | rfl
  · obtain ⟨o, rfl⟩ := look_of_docPresence h
    exact ⟨_, isLocal_docPresence o, rfl⟩
  · obtain ⟨o, rfl⟩ := look_of_docNamePrefix h
    exact ⟨_, isLocal_docNamePrefix o, rfl⟩

/-- **A local rule finds in a part what it finds there in the whole.** -/
theorem IsLocal.filter_part {path : String} {u : Inventory} (h : IsLocal find)
    (hu : u.PartOf path v) : (find v).filter (·.element.package == path) = find u := by
  obtain ⟨bad, message, hfind⟩ := h
  rw [hfind v, hfind u]
  unfold report
  rw [List.filter_map, List.filter_filter]
  have hcomm : v.elements.filter (fun e => e.package == path && bad (v.doc? e) e) =
      (v.elements.filter (·.package == path)).filter fun e => bad (v.doc? e) e := by
    rw [List.filter_filter]
    simp only [Bool.and_comm]
  show (v.elements.filter fun e => e.package == path && bad (v.doc? e) e).map _ = _
  rw [hcomm, hu.elements]
  congr 1
  refine List.filter_congr fun e he => ?_
  rw [hu.doc? e he]

/-- **A local rule finds the same in another order of the elements.** -/
theorem IsLocal.perm {es es' : List Element} {docs : List (ElementKey × String)} (h : IsLocal find)
    (hperm : es.Perm es') : (find ⟨es, docs⟩).Perm (find ⟨es', docs⟩) := by
  obtain ⟨bad, message, hfind⟩ := h
  rw [hfind, hfind]
  exact (hperm.filter _).map _

/-- A local rule makes at most one finding on each element. -/
theorem IsLocal.elements_sublist (h : IsLocal find) (v : Inventory) :
    ((find v).map (·.element)).Sublist v.elements := by
  obtain ⟨bad, message, hfind⟩ := h
  rw [hfind, report, List.map_map]
  simp only [Function.comp_def, List.map_id']
  exact List.filter_sublist

theorem evaluate_of_error {cancelled : Bool} {e : Error} (h : rule.prepare options = .error e) :
    rule.evaluate v options cancelled = .error e := by
  unfold evaluate evaluation
  rw [h]
  rfl

theorem evaluate_of_looking (h : rule.prepare options = .ok (looking find)) :
    rule.evaluate v options false = .ok (find v) := by
  unfold evaluate evaluation
  rw [h]
  rfl

/-- A rule that has findings has accepted its options. -/
theorem prepared_of_evaluate {cancelled : Bool} {fs : List Finding}
    (h : rule.evaluate v options cancelled = .ok fs) : ∃ look, rule.prepare options = .ok look := by
  cases hp : rule.prepare options with
  | error e =>
    rw [evaluate_of_error hp] at h
    cases h
  | ok look => exact ⟨look, rfl⟩

/-- **A built-in rule fails on all inventories or on none**: with the same error, or with findings
that are those of a local rule. -/
theorem fails_or_local_of_builtin {id : String} (hl : Registry.builtin.lookup id = some rule)
    (options : Option Yaml.Node) :
    (∃ e, ∀ v, rule.evaluate v options false = .error e) ∨
      ∃ find, IsLocal find ∧ ∀ v, rule.evaluate v options false = .ok (find v) := by
  cases hp : rule.prepare options with
  | error e => exact .inl ⟨e, fun v => evaluate_of_error hp⟩
  | ok look =>
    obtain ⟨find, hlocal, rfl⟩ := isLocal_of_builtin hl hp
    exact .inr ⟨find, hlocal, fun v => evaluate_of_looking hp⟩

end Rule

end DocAudit
