import DocAudit.Proofs.Yaml.Scalar
import DocAudit.Yaml.Data
import DocAudit.Yaml.Decode

/-!
# Decoding what has been made of values

A node that was made of a value, and not read from a document, has no aliases and no keys that stand
twice, so nothing in it is a fault.

* `Gives`: what a computation comes to in a run without faults;
* `Reads`: a slot reads a value from a node;
* `reads_record` and `reads_dict`: a record and a dictionary are read entry by entry.
-/

namespace DocAudit.Yaml

open Decimal

variable {α β R : Type}

/-! ## 1. Runs without faults -/

/-- A run that has found no fault and followed no alias. -/
structure Run.Clean (r : Run) : Prop where
  faults : r.faults = []
  aliased : r.aliased = 0
  depth : r.depth = 0

/-- In a run without faults a computation comes to a value, and finds no fault. -/
structure Gives (act : Decoder α) (a : α) : Prop where
  run : ∀ r : Run, r.Clean → ∃ r', act.run r = .ok (a, r') ∧ r'.Clean

namespace Gives

theorem pure (a : α) : Gives (Pure.pure a) a := ⟨fun r hr => ⟨r, rfl, hr⟩⟩

theorem bind {x : Decoder α} {f : α → Decoder β} {a : α} {b : β} (hx : Gives x a)
    (hf : Gives (f a) b) : Gives (x >>= f) b := by
  refine ⟨fun r hr => ?_⟩
  obtain ⟨r₁, hrun, hr₁⟩ := hx.run r hr
  obtain ⟨r₂, hrun', hr₂⟩ := hf.run r₁ hr₁
  refine ⟨r₂, ?_, hr₂⟩
  rw [StateT.run_bind, hrun]
  exact hrun'

theorem modify {f : Run → Run} (hf : ∀ r : Run, r.Clean → (f r).Clean) :
    Gives (modify f : Decoder Unit) () := ⟨fun r hr => ⟨f r, rfl, hf r hr⟩⟩

theorem result {act : Decoder α} {a : α} (h : Gives act a) : act.result = .ok a := by
  obtain ⟨r, hrun, hr⟩ := h.run .start ⟨rfl, rfl, rfl⟩
  unfold Decoder.result
  simp [hrun, hr.faults]

end Gives

theorem gives_countNode : Gives countNode () := by
  unfold countNode
  refine Gives.bind (a := ()) (.modify fun r hr => ?_) ⟨fun r hr => ⟨r, ?_, hr⟩⟩
  · exact ⟨hr.faults, by simp [hr.depth, hr.aliased], hr.depth⟩
  · have hfew : r.isExcessive = false := by simp [Run.isExcessive, hr.aliased]
    rw [StateT.run_bind, StateT.run_get, pure_bind, hfew]
    rfl

theorem Gives.inside {act : Decoder α} {a : α} (h : Gives act a) (n : Node) :
    Gives (Yaml.inside n act) a := by
  unfold Yaml.inside
  split
  · exact h
  · refine Gives.bind (a := ()) (.modify fun r hr => ⟨hr.faults, hr.aliased, hr.depth⟩) (h.bind ?_)
    exact Gives.bind (a := ()) (.modify fun r hr => ⟨hr.faults, hr.aliased, hr.depth⟩) (.pure a)

/-! ## 2. Slots -/

/-- Whether a node refers to another one. -/
def Node.isAlias : Node → Bool
  | .alias _ _ _ => true
  | _ => false

/-- A slot reads a value from a node, over a value that is there. -/
structure Reads (slot : Slot α) (n : Node) (old new : α) : Prop where
  isAlias : n.isAlias = false
  isNull : n.isNull = false
  gives : Gives (slot n old) (new, true)

variable {slot elem : Slot α} {n : Node} {old new : α}

theorem Reads.decode (h : Reads slot n old new) : Gives (slot.decode n old) (new, true) := by
  obtain ⟨hplain, -, hgives⟩ := h
  unfold Slot.decode
  refine gives_countNode.bind ?_
  split
  · cases hplain
  · cases hplain
  · exact hgives.inside _

theorem Reads.run (h : Reads slot n old new) : slot.run n old = .ok new := by
  rw [Slot.run, h.decode.result]
  rfl

theorem gives_scalarValue (s : String) (style : ScalarStyle) :
    Gives (scalarValue (Head.ofTag "!!str") style s) (.text s) := Gives.pure _

/-- A text is read as it is, whatever type it is read as. -/
theorem reads_word (type : String) (mk : String → α) (s : String) (old : α) :
    Reads (wordSlot type mk) (.ofText s) old (mk s) := by
  refine ⟨rfl, rfl, ?_⟩
  exact (gives_scalarValue s _).bind (.pure _)

theorem reads_bool (b old : Bool) : Reads boolSlot (.ofBool b) old b := by
  have hvalue : Gives (scalarValue (Head.ofTag "!!bool") .plain (if b then "true" else "false"))
      (.bool b) := by
    cases b <;> exact Gives.pure _
  exact ⟨rfl, rfl, hvalue.bind (.pure _)⟩

theorem reads_int (n old : Int64) : Reads intSlot (.ofInt n.toInt) old n := by
  have hend : (Decimal.signedEnd : Int) = 2 ^ 63 := by decide +kernel
  have hlow := Int64.le_toInt n
  have hhigh := Int64.toInt_lt n
  have hvalue : Gives (scalarValue (Head.ofTag "!!int") .plain (toString n.toInt))
      (.int n.toInt) := by
    unfold scalarValue
    rw [if_neg (by decide), Int.toString_eq_repr]
    simp only [Head.ofTag]
    rw [valueUnder_int (by omega) (by omega)]
    exact .pure _
  refine ⟨rfl, rfl, hvalue.bind ?_⟩
  have hint : int64? (.int n.toInt) = some n := by
    have hfits : n.toInt < Decimal.signedEnd := by omega
    simp only [int64?, hfits, if_true, Int64.ofInt_toInt]
  simp only [hint]
  exact .pure _

/-- The text of a number, without quotes and tag, has the number as its value. -/
def Legible (x : Binary64) : Prop := float? (resolve (documentNumber.write x)) = some x

theorem reads_float {x : Binary64} (h : Legible x) (old : Binary64) :
    Reads floatSlot (.ofFloat x) old x := by
  obtain ⟨v, hv⟩ : ∃ v, resolve (documentNumber.write x) = v := ⟨_, rfl⟩
  unfold Legible at h
  rw [hv] at h
  have hnumber : (∃ n, v = .int n) ∨ ∃ y, v = .float y := by
    cases v with
    | int n => exact .inl ⟨n, rfl⟩
    | float y => exact .inr ⟨y, rfl⟩
    | _ => cases h
  have htag : (v.tag == "!!str") = false ∧ (v.tag == "!!null") = false := by
    rcases hnumber with ⟨n, rfl⟩ | ⟨y, rfl⟩ <;> exact ⟨rfl, rfl⟩
  have hvalue : Gives (scalarValue (Head.ofTag v.tag) .plain (documentNumber.write x)) v := by
    have hunder := valueUnder_resolve hv hnumber
    unfold scalarValue
    simp only [Head.ofTag, htag.1, hunder]
    exact .pure _
  have hnode : Node.ofFloat x = .scalar (Head.ofTag v.tag) .plain (documentNumber.write x) := by
    rw [Node.ofFloat, hv]
  rw [hnode]
  refine ⟨rfl, htag.2, hvalue.bind ?_⟩
  rcases hnumber with ⟨n, rfl⟩ | ⟨y, rfl⟩
  · cases h
    exact .pure _
  · cases h
    exact .pure _

theorem gives_items (f : β → Node) (g : β → α) (fresh : α) : ∀ xs : List β,
    (∀ x ∈ xs, Reads elem (f x) fresh (g x)) →
      Gives (itemsOf elem fresh (xs.map f)) (xs.map g)
  | [], _ => .pure []
  | x :: xs, h => by
      rw [List.forall_mem_cons] at h
      exact h.1.decode.bind ((gives_items f g fresh xs h.2).bind (.pure _))

theorem reads_list {type : String} {fresh : α} {f : β → Node} {g : β → α} {xs : List β}
    (h : ∀ x ∈ xs, Reads elem (f x) fresh (g x)) (old : List α) :
    Reads (listSlot type elem fresh) (.ofList (xs.map f)) old (xs.map g) :=
  ⟨rfl, rfl, (gives_items f g fresh xs h).bind (.pure _)⟩

theorem reads_option {type : String} {fresh : α} {old : Option α}
    (h : Reads slot n (old.getD fresh) new) :
    Reads (optionSlot type slot fresh) n old (some new) := by
  refine ⟨h.isAlias, h.isNull, ?_⟩
  unfold optionSlot
  simp only [h.isNull, Bool.false_eq_true, if_false]
  exact h.gives.bind (.pure _)

/-! ## 3. Records -/

/-- The nodes of entries under names. -/
def entryNodes (es : List (String × Node)) : List (Node × Node) :=
  es.map fun e => (Node.ofText e.1, e.2)

/-- The names of entries. -/
def names (es : List (String × Node)) : List String := es.map (·.1)

theorem duplicates_entryNodes {es : List (String × Node)} (h : (names es).Nodup) :
    duplicates (entryNodes es) = [] := by
  induction es with
  | nil => rfl
  | cons e es ih =>
    obtain ⟨hnot, hnodup⟩ := List.nodup_cons.mp h
    have hnone : (entryNodes es).filter (fun p => sameKey (Node.ofText e.1) p.1) = [] := by
      rw [List.filter_eq_nil_iff]
      intro p hp
      obtain ⟨e', he', rfl⟩ := List.mem_map.mp hp
      have hne : e.1 ≠ e'.1 := by
        intro heq
        exact hnot (List.mem_map.mpr ⟨e', he', heq.symm⟩)
      simpa [Node.ofText, sameKey] using hne
    have hcons : entryNodes (e :: es) = (Node.ofText e.1, e.2) :: entryNodes es := rfl
    rw [hcons, duplicates, hnone, ih hnodup]
    rfl

theorem isMerge_entryNodes (es : List (String × Node)) :
    (entryNodes es).any (·.1.isMerge) = false := by
  rw [List.any_eq_false]
  intro p hp
  obtain ⟨e, -, rfl⟩ := List.mem_map.mp hp
  simp [Node.ofText, Node.isMerge, Head.ofTag]

/-- A mapping of names is taken in by its own entries alone. -/
theorem gives_take {κ σ : Type} [BEq κ] {m : Intake κ σ} {es : List (String × Node)} {s t : σ}
    (h : (names es).Nodup)
    (hown : Gives (m.own (entryNodes es) none (m.opening false s)) (none, t)) :
    Gives (m.take (entryNodes es) s) (t, true) := by
  unfold Intake.take
  rw [duplicates_entryNodes h, isMerge_entryNodes]
  exact hown.bind (.pure _)

/-- One entry of a mapping of names. -/
theorem gives_own_cons {κ σ : Type} [BEq κ] {m : Intake κ σ} {k : String} {v : Node} {a : κ}
    {es : List (String × Node)} {s t u : σ} (hkey : Gives (m.key false (.ofText k)) (some a))
    (hentry : Gives (m.entry a (.ofText k) v s) t)
    (hrest : Gives (m.own (entryNodes es) none t) (none, u)) :
    Gives (m.own (entryNodes ((k, v) :: es)) none s) (none, u) := by
  have hmerge : (Node.ofText k).isMerge = false := by
    simp [Node.ofText, Node.isMerge, Head.ofTag]
  have hcons : entryNodes ((k, v) :: es) = (.ofText k, v) :: entryNodes es := rfl
  rw [hcons, Intake.own, hmerge]
  exact hkey.bind (hentry.bind hrest)

/-- A record is read from entries: each is under the name of a field, which takes it in. -/
inductive Fills (fields : List (FieldSlot R)) : List (String × Node) → R → R → Prop where
  | nil {r : R} : Fills fields [] r r
  | cons {k : String} {v : Node} {es : List (String × Node)} {f : FieldSlot R} {r r₁ r₂ : R} :
      fields.find? (·.key == k) = some f → Gives (f.decode v r) r₁ → Fills fields es r₁ r₂ →
      Fills fields ((k, v) :: es) r r₂

variable {fields : List (FieldSlot R)} {es es' : List (String × Node)} {r r₁ r₂ : R}

theorem Fills.append (h : Fills fields es r r₁) (h' : Fills fields es' r₁ r₂) :
    Fills fields (es ++ es') r r₂ := by
  induction h with
  | nil => exact h'
  | cons hfind hf _ ih => exact .cons hfind hf (ih h')

theorem gives_key (k : String) : Gives ((textSlot "string").decode (.ofText k) "") (k, true) :=
  (reads_word "string" id k "").decode

/-- The entries of a record are taken in one by one, since no name comes twice. -/
theorem Fills.gives {type : String} (h : Fills fields es r r₁) : ∀ {done : List String},
    (names es).Nodup → (∀ k ∈ names es, k ∉ done) →
      ∃ done', Gives ((recordIntake true type fields).own (entryNodes es) none (r, done))
        (none, (r₁, done')) := by
  induction h with
  | nil => exact fun {done} _ _ => ⟨done, .pure _⟩
  | @cons k v es f r r₁ r₂ hfind hf _ ih =>
    intro done hnodup hdone
    obtain ⟨hnot, hnodup⟩ := List.nodup_cons.mp hnodup
    have hdone' : ∀ k' ∈ names es, k' ∉ k :: done := by
      intro k' hk' hin
      rcases List.mem_cons.mp hin with rfl | hin
      · exact hnot hk'
      · exact hdone k' (List.mem_cons_of_mem _ hk') hin
    obtain ⟨done', hgives⟩ := ih hnodup hdone'
    refine ⟨done', ?_⟩
    have hentry : Gives ((recordIntake true type fields).entry k (.ofText k) v (r, done))
        (r₁, k :: done) := by
      have hnew : done.contains k = false := by
        simpa using hdone k List.mem_cons_self
      simp only [recordIntake, hfind, hnew]
      exact hf.bind (.pure _)
    exact gives_own_cons (gives_key k |>.bind (.pure _)) hentry hgives

theorem reads_record {type : String} (h : Fills fields es r r₁) (hnodup : (names es).Nodup) :
    Reads (recordSlot true type fields) (.ofEntries es) r r₁ := by
  obtain ⟨done, hgives⟩ : ∃ done, Gives ((recordIntake true type fields).own (entryNodes es) none
      (r, [])) (none, (r₁, done)) := h.gives hnodup (by simp)
  exact ⟨rfl, rfl, (gives_take hnodup hgives).bind (.pure _)⟩

/-! ## 4. Dictionaries -/

section Dictionaries

variable [DecidableEq α] {value : Slot β} {fresh : β} {mk : String → α}

theorem lookup_setEntry (k j : α) (b : β) (d : List (α × β)) :
    (setEntry k b d).lookup j = if j = k then some b else d.lookup j := by
  have hbeq : ∀ i : α, j ≠ i → (j == i) = false := fun i h => beq_eq_false_iff_ne.mpr h
  induction d with
  | nil =>
    by_cases h : j = k
    · simp [setEntry, h]
    · simp [setEntry, List.lookup_cons, h, hbeq k h]
  | cons e d ih =>
    obtain ⟨i, w⟩ := e
    by_cases hi : i = k
    · subst hi
      by_cases h : j = i
      · simp [setEntry, h]
      · simp [setEntry, List.lookup_cons, h, hbeq i h]
    · by_cases h : j = i
      · subst h
        simp [setEntry, hi]
      · simp [setEntry, List.lookup_cons, hi, hbeq i h, ih]

/-- The entries of a dictionary are set one by one. -/
theorem gives_dict {type : String} {freshKey : α} (f : β → Node) : ∀ (es : List (String × β))
    (d : List (α × β)) (made : Bool), (∀ e ∈ es, Reads value (f e.2) fresh e.2) →
      Gives ((dictIntake (wordSlot type mk) freshKey value fresh).own
        (entryNodes (es.map fun e => (e.1, f e.2))) none (d, made))
        (none, (es.foldl (fun d e => setEntry (mk e.1) e.2 d) d, made))
  | [], d, made, _ => .pure _
  | (k, b) :: es, d, made, h => by
      rw [List.forall_mem_cons] at h
      have hentry : Gives ((dictIntake (wordSlot type mk) freshKey value fresh).entry (mk k)
          (.ofText k) (f b) (d, made)) (setEntry (mk k) b d, made) :=
        h.1.decode.bind (.pure _)
      have hkey : Gives ((dictIntake (wordSlot type mk) freshKey value fresh).key false (.ofText k))
          (some (mk k)) := (reads_word type mk k freshKey).decode.bind (.pure _)
      exact gives_own_cons hkey hentry (gives_dict f es _ made h.2)

theorem lookup_foldl_setEntry_of_notMem {j : α} : ∀ {es : List (String × β)} {d : List (α × β)},
    (∀ e ∈ es, mk e.1 ≠ j) →
      (es.foldl (fun d e => setEntry (mk e.1) e.2 d) d).lookup j = d.lookup j
  | [], d, _ => rfl
  | e :: es, d, h => by
      rw [List.forall_mem_cons] at h
      rw [List.foldl_cons, lookup_foldl_setEntry_of_notMem h.2, lookup_setEntry,
        if_neg fun heq => h.1 heq.symm]

theorem lookup_foldl_setEntry_of_mem {k : String} {b : β} :
    ∀ {es : List (String × β)} {d : List (α × β)}, (es.map fun e => mk e.1).Nodup → (k, b) ∈ es →
      (es.foldl (fun d e => setEntry (mk e.1) e.2 d) d).lookup (mk k) = some b
  | e :: es, d, hnodup, hmem => by
      obtain ⟨hnot, hnodup⟩ := List.nodup_cons.mp hnodup
      rw [List.foldl_cons]
      rcases List.mem_cons.mp hmem with rfl | hmem
      · rw [lookup_foldl_setEntry_of_notMem, lookup_setEntry, if_pos rfl]
        exact fun e he heq => hnot (List.mem_map.mpr ⟨e, he, heq⟩)
      · exact lookup_foldl_setEntry_of_mem hnodup hmem

/-- A dictionary of texts is read into the one that is there, entry by entry. -/
theorem reads_dict {type keyType : String} {freshKey : α} {f : β → Node} {es : List (String × β)}
    (h : ∀ e ∈ es, Reads value (f e.2) fresh e.2) (hnodup : (es.map (·.1)).Nodup)
    (old : List (α × β)) :
    Reads (dictSlot type (wordSlot keyType mk) freshKey value fresh)
      (.ofEntries (es.map fun e => (e.1, f e.2))) old
      (es.foldl (fun d e => setEntry (mk e.1) e.2 d) old) := by
  have hnames : (names (es.map fun e => (e.1, f e.2))).Nodup := by
    simpa [names, Function.comp_def] using hnodup
  refine ⟨rfl, rfl, ?_⟩
  exact (gives_take hnames (gives_dict f es old (old.isEmpty && !false) h)).bind (.pure _)

end Dictionaries

end DocAudit.Yaml
