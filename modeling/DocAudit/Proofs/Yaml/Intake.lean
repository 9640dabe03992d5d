import DocAudit.Proofs.Yaml.Spot

/-!
# The entries of a mapping

How a mapping is taken in, told without the run: one entry after the other, where the key of an
entry and what it does to the state are relations.

* `Intake.Owns`: the entries of a mapping itself;
* `ensures_own`: a run without faults takes them in like that;
* `ensures_take`: so does one that takes in a mapping into which no other is merged.
-/

namespace DocAudit.Yaml

variable {κ σ : Type} [BEq κ] {P : Node → Prop} {around : List Node}

/-- **The entries of a mapping are taken in one after the other.**  `K` relates the spot of a key to
the key that it gives, and `E` the state before an entry to the state after it. -/
inductive Intake.Owns (around : List Node) (K : Spot → Option κ → Prop)
    (E : κ → Spot → Spot → σ → σ → Prop) :
    List (Node × Node) → Option (List κ) → σ → Option (List κ) × σ → Prop where
  | nil {set : Option (List κ)} {s : σ} : Owns around K E [] set s (set, s)
  /-- A key that asks for another mapping is no entry. -/
  | merge {k v : Node} {es : List (Node × Node)} {set : Option (List κ)} {s : σ}
      {x : Option (List κ) × σ} : k.isMerge = true →
      Owns around K E es set s x → Owns around K E ((k, v) :: es) set s x
  | skip {k v : Node} {es : List (Node × Node)} {set : Option (List κ)} {s : σ}
      {x : Option (List κ) × σ} : k.isMerge = false → K (.of around k) none →
      Owns around K E es set s x → Owns around K E ((k, v) :: es) set s x
  /-- A key that has been set before the mapping was merged in. -/
  | held {k v : Node} {a : κ} {es : List (Node × Node)} {set : Option (List κ)} {s : σ}
      {x : Option (List κ) × σ} : k.isMerge = false → K (.of around k) (some a) →
      set.any (·.contains a) = true →
      Owns around K E es set s x → Owns around K E ((k, v) :: es) set s x
  | take {k v : Node} {a : κ} {es : List (Node × Node)} {set : Option (List κ)} {s t : σ}
      {x : Option (List κ) × σ} : k.isMerge = false → K (.of around k) (some a) →
      set.any (·.contains a) = false → E a (.of around k) (.of around v) s t →
      Owns around K E es (set.map (a :: ·)) t x → Owns around K E ((k, v) :: es) set s x

variable {m : Intake κ σ} {K : Spot → Option κ → Prop} {E : κ → Spot → Spot → σ → σ → Prop}

/-- What the parts of an intake have to ensure, wherever in a document they are used. -/
structure Intake.Ensuring (P : Node → Prop) (m : Intake κ σ) (K : Spot → Option κ → Prop)
    (E : κ → Spot → Spot → σ → σ → Prop) : Prop where
  key : ∀ (around : List Node) (merged : Bool) (k : Node), Open P around → k.Throughout P →
    Ensures around (m.key merged k) fun o => K (.of around k) o
  entry : ∀ (around : List Node) (a : κ) (k v : Node) (s : σ), Open P around → k.Throughout P →
    v.Throughout P → Ensures around (m.entry a k v s) fun t => E a (.of around k) (.of around v) s t

theorem ensures_own (hm : m.Ensuring P K E) (haround : Open P around) :
    ∀ {es : List (Node × Node)} {set : Option (List κ)} {s : σ},
      (∀ e ∈ es, e.1.Throughout P ∧ e.2.Throughout P) →
        Ensures around (m.own es set s) fun x => Intake.Owns around K E es set s x
  | [], _, _, _ => .pure .nil
  | (k, v) :: es, set, s, hes => by
      rw [List.forall_mem_cons] at hes
      obtain ⟨⟨hk, hv⟩, hes⟩ := hes
      have hrest (set : Option (List κ)) (s : σ) :
          Ensures around (m.own es set s) (Intake.Owns around K E es set s) :=
        ensures_own hm haround hes
      rw [Intake.own]
      refine .ite (fun hmerge => (hrest set s).mono fun x => .merge hmerge) fun hmerge => ?_
      rw [Bool.not_eq_true] at hmerge
      refine (hm.key around set.isSome k haround hk).bind fun o => ?_
      split
      · exact (hrest set s).mono fun x hx hkey => .skip hmerge hkey hx
      · rename_i a
        refine .ite (fun hheld => ?_) fun hnew => ?_
        · exact (hrest set s).mono fun x hx hkey => .held hmerge hkey hheld hx
        · rw [Bool.not_eq_true] at hnew
          refine (hm.entry around a k v s haround hk hv).bind fun t => ?_
          exact (hrest (set.map (a :: ·)) t).mono fun x hx hentry hkey =>
            .take hmerge hkey hnew hentry hx

/-- A mapping that is not merged into another holds no key back. -/
theorem Intake.Owns.set_none {es : List (Node × Node)} {set : Option (List κ)} {s : σ}
    {x : Option (List κ) × σ} (h : Intake.Owns around K E es set s x) (hset : set = none) :
    x.1 = none := by
  induction h with
  | nil => exact hset
  | merge _ _ ih => exact ih hset
  | skip _ _ _ ih => exact ih hset
  | held _ _ _ _ ih => exact ih hset
  | take _ _ _ _ _ ih =>
    subst hset
    exact ih rfl

/-- A mapping into which no other is merged. -/
theorem ensures_take (hm : m.Ensuring P K E) (haround : Open P around) {es : List (Node × Node)}
    {s : σ} (hes : ∀ e ∈ es, e.1.Throughout P ∧ e.2.Throughout P)
    (hmerge : ∀ e ∈ es, e.1.isMerge = false) :
    Ensures around (m.take es s) fun x =>
      Intake.Owns around K E es none (m.opening false s) (none, x.1) ∧ x.2 = true := by
  have hnone : es.any (·.1.isMerge) = false := by
    rw [List.any_eq_false]
    intro e he
    simp [hmerge e he]
  unfold Intake.take
  split
  · refine (ensures_own hm haround hes).bind fun x => ?_
    rw [hnone]
    refine .pure fun hx => ⟨?_, rfl⟩
    have hset := hx.set_none rfl
    obtain ⟨set, t⟩ := x
    cases hset
    exact hx
  · rename_i fs hne
    exact (Ensures.report_all (R := fun _ => False) hne).bind fun _ => .pure False.elim

end DocAudit.Yaml
