import DocAudit.Proofs.Except
import DocAudit.Proofs.Yaml.WellFormed

/-!
# Places in a document

What stands at a place of a document is a node, or, where it is an alias, what the alias stands for.
An alias inside the node that it stands for finds it among the nodes around it, so a place is a node
together with those.

* `Spot`: a place, with what can be read off it: its entries, its items, its value;
* `Ensures`: what a run without faults says about its result;
* `Ensures.decode`: a slot decodes what stands at a place.
-/

namespace DocAudit.Yaml

variable {α β : Type}

/-! ## 1. Spots -/

/-- The value of a scalar, if its text has one under its tag. -/
def scalarValue? (h : Head) (style : ScalarStyle) (v : String) : Option Value :=
  if h.tag == "!!str" || (style != .plain && (h.tag == "" || h.tag == "!")) then some (.text v)
  else valueUnder h.tag v

/-- A node that is no alias is a scalar, a sequence or a mapping. -/
theorem Node.forms_of_plain : ∀ {n : Node}, n.isAlias = false →
    (∃ h style v, n = .scalar h style v) ∨ (∃ h flow xs, n = .seq h flow xs) ∨
      ∃ h flow es, n = .map h flow es
  | .scalar h style v, _ => .inl ⟨h, style, v, rfl⟩
  | .seq h flow xs, _ => .inr (.inl ⟨h, flow, xs, rfl⟩)
  | .map h flow es, _ => .inr (.inr ⟨h, flow, es, rfl⟩)

/-- Whether a node is a sequence or a mapping. -/
def Node.isCollection : Node → Bool
  | .seq _ _ _ => true
  | .map _ _ _ => true
  | _ => false

theorem Node.plain_of_isCollection : ∀ {n : Node}, n.isCollection = true → n.isAlias = false
  | .seq _ _ _, _ => rfl
  | .map _ _ _, _ => rfl

/-- **A place in a document**: what stands there, and the anchored nodes around it, the innermost
first. -/
structure Spot where
  node : Node
  around : List Node

namespace Spot

/-- The spot of a node inside others; an alias gives way to what it stands for. -/
def of (around : List Node) : Node → Spot
  | .alias _ _ (some t) => ⟨t, around⟩
  | .alias h name none =>
    ⟨(around.find? (·.head.anchor == name)).getD (.alias h name none), around⟩
  | n => ⟨n, around⟩

/-- The anchored nodes around what a spot holds. -/
def inner (s : Spot) : List Node :=
  if s.node.head.anchor == "" then s.around else s.node :: s.around

/-- The items of a sequence. -/
def items (s : Spot) : List Spot :=
  match s.node with
  | .seq _ _ xs => xs.map (of s.inner)
  | _ => []

/-- Keys and values inside some nodes. -/
def pairs (around : List Node) (es : List (Node × Node)) : List (Spot × Spot) :=
  es.map fun e => (of around e.1, of around e.2)

/-- The entries of a mapping, keys and values. -/
def entries (s : Spot) : List (Spot × Spot) :=
  match s.node with
  | .map _ _ es => pairs s.inner es
  | _ => []

/-- The value of a scalar. -/
def value? (s : Spot) : Option Value :=
  match s.node with
  | .scalar h style v => scalarValue? h style v
  | _ => none

/-- Whether nothing stands at a spot: a scalar whose value is null. -/
def isNull (s : Spot) : Bool := s.value? == some .null

/-- What is read from a scalar that is not null; `accept` takes the value and the source text. -/
def read? (accept : Value → String → Option α) (s : Spot) : Option α :=
  match s.node with
  | .scalar h style v =>
    match scalarValue? h style v with
    | none => none
    | some .null => none
    | some x => accept x v
  | _ => none

end Spot

/-- What a scalar gives where a word is read: its value if that is a text, and otherwise its source
text. -/
def wordOf (mk : String → α) : Value → String → Option α
  | .text t, _ => some (mk t)
  | _, s => some (mk s)

namespace Spot

/-- The word that a key is. -/
def word? (s : Spot) : Option String := s.read? (wordOf id)

/-- What stands in a mapping under a word. -/
def under? (s : Spot) (w : String) : Option Spot :=
  (s.entries.find? fun e => e.1.word? == some w).map (·.2)

/-- What stands at a path of keys. -/
def at? (s : Spot) : List String → Option Spot
  | [] => some s
  | w :: ws => (s.under? w).bind (·.at? ws)

theorem read?_of_isNull {s : Spot} {accept : Value → String → Option α} (h : s.isNull = true) :
    s.read? accept = none := by
  unfold Spot.isNull Spot.value? at h
  unfold Spot.read?
  split at h
  · simp only [beq_iff_eq] at h
    simp only [h]
  · cases h

end Spot

/-! ## 2. Spots of documents -/

/-- What a node of a document without merged mappings is by itself. -/
def Node.Unmerged : Node → Prop
  | .map _ _ es => ∀ e ∈ es, e.1.isMerge = false
  | _ => True

instance : DecidablePred Node.Unmerged
  | .scalar _ _ _ => inferInstanceAs (Decidable True)
  | .seq _ _ _ => inferInstanceAs (Decidable True)
  | .map _ _ es => inferInstanceAs (Decidable (∀ e ∈ es, e.1.isMerge = false))
  | .alias _ _ _ => inferInstanceAs (Decidable True)

variable {P : Node → Prop}

/-- Nodes that can lie around a spot: collections with a property throughout. -/
def Open (P : Node → Prop) (around : List Node) : Prop :=
  ∀ n ∈ around, n.Throughout P ∧ n.isCollection = true

theorem open_nil : Open P [] := fun _ h => nomatch h

/-- A spot in a document that has a property throughout. -/
structure Spot.Good (P : Node → Prop) (s : Spot) : Prop where
  node : s.node.Throughout P
  plain : s.node.isAlias = false
  around : Open P s.around

namespace Spot

variable {s : Spot} {around : List Node} {n : Node}

theorem of_plain : ∀ {n : Node}, n.isAlias = false → of around n = ⟨n, around⟩
  | .scalar _ _ _, _ => rfl
  | .seq _ _ _, _ => rfl
  | .map _ _ _, _ => rfl

theorem Good.inner (h : s.Good P) (hc : s.node.isCollection = true) : Open P s.inner := by
  unfold Spot.inner
  split
  · exact h.around
  · intro n hn
    rcases List.mem_cons.mp hn with rfl | hn
    · exact ⟨h.node, hc⟩
    · exact h.around n hn

end Spot

theorem tag_eq_null_iff {x : Value} : x.tag = "!!null" ↔ x = .null := by
  cases x <;> simp [Value.tag]

/-- A value is null only under the tag of null, unless there is no tag. -/
theorem null_iff_of_valueUnder {tag s : String} {x : Value} (htag : tag ≠ "")
    (hx : valueUnder tag s = some x) : x = .null ↔ tag = "!!null" := by
  simp only [valueUnder, beq_iff_eq, htag, if_false] at hx
  split at hx
  · rename_i hbinary
    obtain ⟨bytes, -, rfl⟩ := Option.map_eq_some_iff.mp hx
    simp [hbinary]
  · split at hx
    · rename_i hform
      cases hx
      have hne : tag ≠ "!!null" := by
        rintro rfl
        simp [formTags] at hform
      simp [hne]
    · split at hx
      · rename_i hsame
        rw [Option.some.inj hx] at hsame
        rw [hsame, tag_eq_null_iff]
      · split at hx
        · split at hx
          · rename_i hfloat
            cases hx
            simp only [Bool.and_eq_true, beq_iff_eq] at hfloat
            simp [hfloat.1]
          · cases hx
        · cases hx

theorem null_iff_tag {h : Head} {style : ScalarStyle} {v : String} {x : Value} (htag : h.tag ≠ "")
    (hx : scalarValue? h style v = some x) : x = .null ↔ h.tag = "!!null" := by
  unfold scalarValue? at hx
  split at hx
  · rename_i htext
    cases hx
    have hne : h.tag ≠ "!!null" := by
      intro heq
      simp [heq] at htext
    simp [hne]
  · exact null_iff_of_valueUnder htag hx

/-! ## 3. Runs without faults -/

variable {around : List Node} {Q : α → Prop} {R : β → Prop}

/-- A run that ends without faults had none before, and its result has the property `Q`.  The nodes
around are the same at the end as at the start. -/
def Ensures (around : List Node) (act : Decoder α) (Q : α → Prop) : Prop :=
  ∀ r a r', r.around = around → act.run r = .ok (a, r') →
    r'.around = around ∧ (r'.faults = [] → r.faults = [] ∧ Q a)

namespace Ensures

variable {act : Decoder α}

theorem pure {a : α} (h : Q a) : Ensures around (Pure.pure a) Q := by
  rintro r _ _ hr ⟨⟩
  exact ⟨hr, fun hnone => ⟨hnone, h⟩⟩

theorem throw {e : Stop} : Ensures around (throw e : Decoder α) Q := by
  rintro r a r' - ⟨⟩

theorem run_bind_eq_ok_iff {x : Decoder α} {f : α → Decoder β} {r r' : Run} {b : β} :
    (x >>= f).run r = .ok (b, r') ↔
      ∃ a r₁, x.run r = .ok (a, r₁) ∧ (f a).run r₁ = .ok (b, r') := by
  rw [StateT.run_bind, bind_eq_ok_iff]
  exact Prod.exists

/-- A result is had from a run without faults. -/
theorem of_result {a : α} (h : Ensures [] act Q) (hrun : act.result = .ok a) : Q a := by
  unfold Decoder.result at hrun
  split at hrun
  · cases hrun
  · rename_i b r hb
    split at hrun
    · rename_i hnone
      cases hrun
      exact ((h .start a r rfl hb).2 (List.isEmpty_iff.mp hnone)).2
    · cases hrun

/-- What the first part ensures may be used for what the second one does. -/
theorem bind {x : Decoder α} {f : α → Decoder β} (hx : Ensures around x Q)
    (hf : ∀ a, Ensures around (f a) fun b => Q a → R b) : Ensures around (x >>= f) R := by
  intro r b r' hr hrun
  obtain ⟨a, r₁, ha, hb⟩ := run_bind_eq_ok_iff.mp hrun
  obtain ⟨hr₁, hx'⟩ := hx r a r₁ hr ha
  obtain ⟨hr', hf'⟩ := hf a r₁ b r' hr₁ hb
  refine ⟨hr', fun hnone => ?_⟩
  obtain ⟨hnone₁, himp⟩ := hf' hnone
  obtain ⟨hnone₀, hQ⟩ := hx' hnone₁
  exact ⟨hnone₀, himp hQ⟩

theorem mono {Q' : α → Prop} (h : Ensures around act Q) (himp : ∀ a, Q a → Q' a) :
    Ensures around act Q' := by
  intro r a r' hr hrun
  obtain ⟨hr', h'⟩ := h r a r' hr hrun
  exact ⟨hr', fun hnone => ⟨(h' hnone).1, himp a (h' hnone).2⟩⟩

theorem and {Q' : α → Prop} (h : Ensures around act Q) (h' : Ensures around act Q') :
    Ensures around act fun a => Q a ∧ Q' a := by
  intro r a r' hr hrun
  obtain ⟨hr', hQ⟩ := h r a r' hr hrun
  obtain ⟨-, hQ'⟩ := h' r a r' hr hrun
  exact ⟨hr', fun hnone => ⟨(hQ hnone).1, (hQ hnone).2, (hQ' hnone).2⟩⟩

/-- What the first part comes to does not matter. -/
theorem skip {x : Decoder α} {f : α → Decoder β} (hx : Ensures around x fun _ => True)
    (hf : ∀ a, Ensures around (f a) R) : Ensures around (x >>= f) R :=
  hx.bind fun a => (hf a).mono fun _ hb _ => hb

theorem ite {c : Prop} [Decidable c] {act' : Decoder α} (h : c → Ensures around act Q)
    (h' : ¬c → Ensures around act' Q) : Ensures around (if c then act else act') Q := by
  split
  · exact h ‹_›
  · exact h' ‹_›

/-- A change of the run that concerns neither the faults nor the nodes around. -/
theorem modify {f : Run → Run} (h : ∀ r, (f r).around = r.around ∧ (f r).faults = r.faults) :
    Ensures around (modify f : Decoder Unit) fun _ => True := by
  rintro r _ _ hr ⟨⟩
  rw [(h r).1, (h r).2]
  exact ⟨hr, fun hnone => ⟨hnone, trivial⟩⟩

/-- After a fault nothing has to be shown. -/
theorem report {f : Fault} {R : Unit → Prop} : Ensures around (Yaml.report f) R := by
  rintro r _ _ hr ⟨⟩
  refine ⟨hr, fun hnone => ?_⟩
  exact absurd hnone (by simp)

theorem report_all {R : Unit → Prop} : ∀ {fs : List Fault}, fs ≠ [] →
    Ensures around (fs.forM Yaml.report) R
  | [_], _ => report.bind fun _ => .pure fun h : False => h.elim
  | _ :: g :: fs, _ => (report (R := fun _ => False)).bind fun _ =>
      (report_all (R := R) (List.cons_ne_nil g fs)).mono fun _ h _ => h

/-- A look at the run so far. -/
theorem look {f : Run → Decoder β} (h : ∀ r, r.around = around → Ensures around (f r) R) :
    Ensures around (get >>= f) R := by
  intro r b r' hr hrun
  rw [StateT.run_bind, StateT.run_get, pure_bind] at hrun
  exact h r hr r b r' hr hrun

theorem countNode : Ensures around Yaml.countNode fun _ => True := by
  refine .skip (.modify fun r => ⟨rfl, rfl⟩) fun _ => .look fun r _ => .ite ?_ ?_
  · exact fun _ => .throw
  · exact fun _ => .pure trivial

theorem inside {n : Node} {act : Decoder α} (h : Ensures (Spot.inner ⟨n, around⟩) act Q) :
    Ensures around (Yaml.inside n act) Q := by
  unfold Yaml.inside
  by_cases hanchor : (n.head.anchor == "") = true
  · rw [if_pos hanchor]
    rw [Spot.inner, if_pos hanchor] at h
    exact h
  · rw [if_neg hanchor]
    rw [Spot.inner, if_neg hanchor] at h
    change Ensures (n :: around) act Q at h
    intro r a r' hr hrun
    obtain ⟨_, r₁, h₁, hrun⟩ := run_bind_eq_ok_iff.mp hrun
    obtain ⟨_, r₂, h₂, hrun⟩ := run_bind_eq_ok_iff.mp hrun
    cases hrun
    cases h₁
    obtain ⟨hr₂, hQ⟩ := h _ a r₂ (congrArg (n :: ·) hr) h₂
    exact ⟨congrArg List.tail hr₂, hQ⟩

theorem following {act : Decoder α} (h : Ensures around act Q) :
    Ensures around (Yaml.following act) Q := by
  unfold Yaml.following
  refine .skip (.modify fun r => ⟨rfl, rfl⟩) fun _ => h.bind fun a => ?_
  exact .skip (.modify fun r => ⟨rfl, rfl⟩) fun _ => .pure id

theorem onceAgain {name : String} {act : Node → Decoder α}
    (h : ∀ t, around.find? (·.head.anchor == name) = some t → Ensures around (act t) Q) :
    Ensures around (Yaml.onceAgain name act) Q := by
  unfold Yaml.onceAgain
  refine .look fun r hr => ?_
  rw [hr]
  split
  · exact .throw
  · rename_i t ht
    refine .ite (fun _ => .throw) fun _ => ?_
    refine .skip (.modify fun r => ⟨rfl, rfl⟩) fun _ => (h t ht).bind fun a => ?_
    exact .skip (.modify fun r => ⟨rfl, rfl⟩) fun _ => .pure id

/-! ## 4. Slots -/

/-- What a slot gives is had from a run without faults. -/
theorem of_run {slot : Slot α} {n : Node} {old a : α} {Q : α × Bool → Prop}
    (h : Ensures [] (slot.decode n old) Q) (hrun : slot.run n old = .ok a) :
    ∃ x, Q x ∧ x.1 = a := by
  unfold Slot.run at hrun
  cases hres : (slot.decode n old).result with
  | error e =>
    rw [hres] at hrun
    cases hrun
  | ok x =>
    rw [hres] at hrun
    exact ⟨x, h.of_result hres, Except.ok.inj hrun⟩

/-- **A slot decodes what stands at a spot**, where the nodes around it are those of the spot. -/
theorem decode (hP : ∀ n, P n → n.Regular) {slot : Slot α} {n : Node} {old : α}
    {Q : α × Bool → Prop} (hn : n.Throughout P) (haround : Open P around)
    (h : (Spot.of around n).Good P →
      Ensures (Spot.of around n).inner (slot (Spot.of around n).node old) Q) :
    Ensures around (slot.decode n old) Q := by
  have hvisit (t : Node) (ht : t.isAlias = false)
      (h : Ensures (Spot.inner ⟨t, around⟩) (slot t old) Q) :
      Ensures around (Yaml.following do
        Yaml.countNode
        Yaml.inside t (slot t old)) Q :=
    .following (.skip .countNode fun _ => .inside h)
  unfold Slot.decode
  refine .skip .countNode fun _ => ?_
  split
  · rename_i hd name t
    have ht : t.isAlias = false := hP _ hn.1
    exact hvisit t ht (h ⟨hn.2, ht, haround⟩)
  · rename_i hd name
    refine .onceAgain fun t ht => ?_
    have hmem := haround t (List.mem_of_find?_eq_some ht)
    have hplain : t.isAlias = false := Node.plain_of_isCollection hmem.2
    have hof : Spot.of around (.alias hd name none) = ⟨t, around⟩ := by
      simp only [Spot.of, ht, Option.getD_some]
    rw [hof] at h
    exact hvisit t hplain (h ⟨hmem.1, hplain, haround⟩)
  · rename_i hsome hnone
    have hplain : n.isAlias = false := by
      unfold Node.isAlias
      split
      · rename_i hd name t
        cases t with
        | none => exact absurd rfl (hnone hd name)
        | some t => exact absurd rfl (hsome hd name t)
      · rfl
    rw [Spot.of_plain hplain] at h
    exact .inside (h ⟨hn, hplain, haround⟩)

theorem scalarValue {h : Head} {style : ScalarStyle} {v : String} :
    Ensures around (Yaml.scalarValue h style v) fun x => scalarValue? h style v = some x := by
  unfold Yaml.scalarValue scalarValue?
  split
  · exact .pure rfl
  · split
    · rename_i x hx
      exact .pure hx
    · exact .throw

/-- A node of the wrong kind is a fault. -/
theorem mismatch {type : String} {n : Node} {old : α} {Q : α × Bool → Prop}
    (hplain : n.isAlias = false) : Ensures around (Yaml.mismatch type n old) Q := by
  unfold Yaml.mismatch
  have hend : Ensures around (Pure.pure (old, false) : Decoder (α × Bool))
      fun x => False → Q x := .pure False.elim
  obtain ⟨h, style, v, rfl⟩ | ⟨h, flow, xs, rfl⟩ | ⟨h, flow, es, rfl⟩ := Node.forms_of_plain hplain
  · exact report.bind fun _ => hend
  · exact report.bind fun _ => hend
  · simp only
    split
    · exact report.bind fun _ => hend
    · rename_i fs hne
      exact (report_all hne).bind fun _ => hend

end Ensures

variable {s : Spot} {old : α}

theorem ensures_scalar (type : String) (accept : Value → String → Option α) (hs : s.Good P) :
    Ensures s.inner (scalarSlot type accept s.node old) fun x =>
      if s.isNull then x = (old, false) else s.read? accept = some x.1 ∧ x.2 = true := by
  obtain ⟨n, around⟩ := s
  obtain ⟨h, style, v, rfl⟩ | ⟨h, flow, xs, rfl⟩ | ⟨h, flow, es, rfl⟩ :=
    Node.forms_of_plain hs.plain
  · refine Ensures.scalarValue.bind fun x => ?_
    by_cases hnull : x = .null
    · subst hnull
      exact .pure fun hx => by simp [Spot.isNull, Spot.value?, hx]
    · have hread (hx : scalarValue? h style v = some x) :
          Spot.isNull ⟨.scalar h style v, around⟩ = false ∧
            Spot.read? accept ⟨.scalar h style v, around⟩ = accept x v := by
        refine ⟨by simpa [Spot.isNull, Spot.value?, hx] using hnull, ?_⟩
        simp only [Spot.read?, hx]
      split
      · exact absurd rfl hnull
      · split
        · rename_i a ha
          refine .pure fun hx => ?_
          rw [(hread hx).1, (hread hx).2, ha]
          simp
        · exact .mismatch (n := .scalar h style v) rfl
  · exact .mismatch (n := .seq h flow xs) rfl
  · exact .mismatch (n := .map h flow es) rfl

theorem wordSlot_eq (type : String) (mk : String → α) :
    wordSlot type mk = scalarSlot type (wordOf mk) := by
  unfold wordSlot
  congr 1
  funext v w
  cases v <;> rfl

/-- A scalar slot gives what is read at the spot, and nothing where nothing is read. -/
theorem ensures_read {type : String} {accept : Value → String → Option α} (hs : s.Good P) :
    Ensures s.inner (scalarSlot type accept s.node old) fun x =>
      (if x.2 then some x.1 else none) = s.read? accept := by
  refine (ensures_scalar type accept hs).mono fun x hx => ?_
  split at hx
  · rename_i hnull
    rw [hx, Spot.read?_of_isNull hnull]
    rfl
  · rw [hx.2, if_pos rfl, hx.1]

/-- The word of a key. -/
theorem ensures_word (hP : ∀ n, P n → n.Regular) (haround : Open P around) {n : Node}
    (hn : n.Throughout P) : Ensures around ((textSlot "string").decode n "") fun x =>
      (if x.2 then some x.1 else none) = (Spot.of around n).word? := by
  have hslot : textSlot "string" = scalarSlot "string" (wordOf id) := wordSlot_eq _ _
  rw [hslot]
  exact .decode hP hn haround ensures_read

end DocAudit.Yaml
