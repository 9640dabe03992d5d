import DocAudit.Config.Load
import DocAudit.Config.Schema
import DocAudit.Proofs.Audit.Result
import DocAudit.Proofs.Files.Settings
import DocAudit.Proofs.Policy.Compile
import DocAudit.Proofs.Rule.Local
import DocAudit.Proofs.Yaml.Words

/-!
# The keys of a configuration

Which keys a text may have that is read as a configuration and audited with.  The schema says which
keys a record has and what stands under them; the decoder has no other list of keys.

* `Covers`: the schema knows every key at a spot, however deep;
* `Fits`: a slot decodes only what the schema covers, one lemma for each record;
* `parse_refuses`: a document with a key that the schema does not know is refused;
* `keys_recognised`: the keys of a configuration are known to the schema, and so are those inside
  the options of the rules that are run;
* `typo_accepted`: the keys of the options themselves are not checked.
-/

namespace DocAudit.Config

open Yaml

/-! ## 1. What the schema covers -/

/-- What stands under a key of a record. -/
def RecordShape.under? (r : RecordShape) (key : String) : Option Shape := r.fields.lookup key

/-- The record with a name. -/
def recordShape? (name : String) : Option RecordShape := recordShapes.find? (·.name == name)

/-- What stands under a key of the record with a name. -/
def shapeUnder? (name key : String) : Option Shape := (recordShape? name).bind (·.under? key)

/-- **The schema knows every key at a spot.**  This is about keys alone: a scalar has none, whatever
should stand in its place. -/
inductive Covers : Shape → Spot → Prop where
  | scalar {shape : Shape} {s : Spot} (scalar : s.isScalar = true) : Covers shape s
  | free {s : Spot} : Covers .free s
  | listOf {item : Shape} {s : Spot} (list : s.isSequence = true)
      (items : ∀ t ∈ s.items, Covers item t) : Covers (.listOf item) s
  | dictOf {value : Shape} {s : Spot} {P : String → Spot → Prop} (mapping : s.isMapping = true)
      (heeds : Heeds P s) (values : ∀ w v, P w v → Covers value v) : Covers (.dictOf value) s
  | named {name : String} {s : Spot} {P : String → Spot → Prop} (mapping : s.isMapping = true)
      (heeds : Heeds P s) (known : ∀ w v, P w v → (shapeUnder? name w).isSome = true)
      (values : ∀ w v shape, P w v → shapeUnder? name w = some shape → Covers shape v) :
      Covers (.named name) s

/-! ## 2. Slots -/

variable {α β R : Type} {shape item : Shape} {slot : Slot α} {G : α → Prop} {type : String}

/-- A slot decodes only what the schema covers, and keeps a property of the value. -/
def FitsKeeping (G : α → Prop) (shape : Shape) (slot : Slot α) : Prop :=
  ∀ (s : Spot) (old : α), s.Good Node.Regular →
    Ensures s.inner (slot s.node old) fun x => Covers shape s ∧ (G old → G x.1)

/-- **A slot decodes only what the schema covers.** -/
abbrev Fits (shape : Shape) (slot : Slot α) : Prop := FitsKeeping (fun _ => True) shape slot

theorem FitsKeeping.decode (h : FitsKeeping G shape slot) {around : List Node} {n : Node} {old : α}
    (haround : Open Node.Regular around) (hn : n.Sound) :
    Ensures around (slot.decode n old) fun x => Covers shape (.of around n) ∧ (G old → G x.1) :=
  .decode (fun _ h => h) hn haround (h _ old)

theorem fits_scalar {accept : Value → String → Option α} :
    Fits shape (scalarSlot type accept) := by
  intro ⟨n, around⟩ old hs
  obtain ⟨hd, style, v, rfl⟩ | ⟨hd, flow, xs, rfl⟩ | ⟨hd, flow, es, rfl⟩ :=
    Node.forms_of_plain hs.plain
  · exact (ensures_scalar type accept hs).mono fun _ _ => ⟨.scalar rfl, id⟩
  · exact .mismatch (n := .seq hd flow xs) rfl
  · exact .mismatch (n := .map hd flow es) rfl

theorem fits_itemsOf (h : FitsKeeping G item slot) {fresh : α} (hfresh : G fresh)
    {around : List Node} (haround : Open Node.Regular around) : ∀ {ns : List Node}, SoundItems ns →
      Ensures around (itemsOf slot fresh ns) fun as =>
        (∀ t ∈ ns.map (Spot.of around), Covers item t) ∧ ∀ a ∈ as, G a
  | [], _ => .pure ⟨fun _ h => (nomatch h), fun _ h => (nomatch h)⟩
  | n :: ns, hns => by
      rw [itemsOf]
      refine (h.decode haround hns.1).bind fun x => ?_
      refine (fits_itemsOf h hfresh haround hns.2).bind fun as => .pure ?_
      rintro ⟨hitems, hkept⟩ ⟨hitem, hkeep⟩
      rw [List.map_cons, List.forall_mem_cons]
      refine ⟨⟨hitem, hitems⟩, ?_⟩
      split
      · exact List.forall_mem_cons.mpr ⟨hkeep hfresh, hkept⟩
      · exact hkept

theorem fits_list (h : FitsKeeping G item slot) {fresh : α} (hfresh : G fresh) :
    FitsKeeping (fun as => ∀ a ∈ as, G a) (.listOf item) (listSlot type slot fresh) := by
  intro ⟨n, around⟩ old hs
  obtain ⟨hd, style, v, rfl⟩ | ⟨hd, flow, xs, rfl⟩ | ⟨hd, flow, es, rfl⟩ :=
    Node.forms_of_plain hs.plain
  · refine .skip (Ensures.scalarValue.mono fun _ _ => trivial) fun x => ?_
    split
    · exact .pure ⟨.scalar rfl, fun _ _ h => nomatch h⟩
    · exact .mismatch (n := .scalar hd style v) rfl
  · refine (fits_itemsOf h hfresh (hs.inner rfl) hs.node.2).bind fun as => .pure ?_
    rintro ⟨hitems, hkept⟩
    exact ⟨.listOf rfl hitems, fun _ => hkept⟩
  · exact .mismatch (n := .map hd flow es) rfl

theorem fits_option (h : FitsKeeping G shape slot) {fresh : α} :
    Fits shape (optionSlot type slot fresh) := by
  intro ⟨n, around⟩ old hs
  refine .ite (fun _ => ?_) fun _ => ?_
  · obtain ⟨hd, style, v, rfl⟩ | ⟨hd, flow, xs, rfl⟩ | ⟨hd, flow, es, rfl⟩ :=
      Node.forms_of_plain hs.plain
    · refine .skip (Ensures.scalarValue.mono fun _ _ => trivial) fun x => ?_
      exact .pure ⟨.scalar rfl, id⟩
    · exact .mismatch (n := .seq hd flow xs) rfl
    · exact .mismatch (n := .map hd flow es) rfl
  · exact (h _ _ hs).bind fun x => .pure fun hx => ⟨hx.1, id⟩

/-! ## 3. Records and dictionaries -/

/-- A record has a key, and the schema covers what stands under it. -/
def RecordShape.Allows (r : RecordShape) (key : String) (v : Spot) : Prop :=
  ∃ shape, r.under? key = some shape ∧ Covers shape v

variable {r : RecordShape} {key : String} {get : R → α} {set : R → α → R} {H : R → Prop}
  {fields : List (FieldSlot R)}

/-- A field of a record of which a property is kept. -/
theorem passes_keeping (hkey : r.under? key = some shape) (h : FitsKeeping G shape slot)
    (hset : ∀ r a, H r → (G (get r) → G a) → H (set r a)) :
    (field key slot get set).Passes (r.Allows key) H := by
  intro around v r haround hv
  refine (h.decode haround hv).bind fun x => .pure ?_
  rintro ⟨hcovers, hkeep⟩
  exact ⟨⟨shape, hkey, hcovers⟩, fun hr => hset r x.1 hr hkeep⟩

/-- A field of a record. -/
theorem passes (hkey : r.under? key = some shape) (h : FitsKeeping G shape slot) :
    (field key slot get set).Passes (r.Allows key) fun _ => True :=
  passes_keeping hkey h fun _ _ _ _ => trivial

theorem fits_record {name : String} (hname : recordShape? name = some r)
    (hfields : ∀ f ∈ fields, f.Passes (r.Allows f.key) H) :
    FitsKeeping H (.named name) (recordSlot true type fields) := by
  intro s old hs
  have hunder (w : String) : shapeUnder? name w = r.under? w := by
    rw [shapeUnder?, hname, Option.bind_some]
  refine (heeds_record hfields (by rintro ⟨⟩) hs).mono fun x hx => ?_
  obtain ⟨hscalar | ⟨hmapping, hheeds⟩, hkeep⟩ := hx
  · exact ⟨.scalar hscalar, hkeep⟩
  · refine ⟨.named hmapping hheeds ?_ ?_, hkeep⟩
    · rintro w v ⟨shape, hshape, -⟩
      rw [hunder, hshape]
      rfl
    · rintro w v shape ⟨shape', hshape', hcovers⟩ hshape
      rw [hunder, hshape'] at hshape
      cases hshape
      exact hcovers

theorem fits_dict [DecidableEq α] {keyType : String} {mk : String → α} {freshKey : α}
    {value : Slot β} {fresh : β} (hmk : Function.Injective mk) (h : Fits shape value) :
    FitsKeeping KeysDistinct (.dictOf shape)
      (dictSlot type (wordSlot keyType mk) freshKey value fresh) := by
  intro s old hs
  have hvalue : ∀ (t : Spot) (old : β), t.Good Node.Regular →
      Ensures t.inner (value t.node old) fun _ => Covers shape t :=
    fun t old ht => (h t old ht).mono fun _ hx => hx.1
  refine (heeds_dict hmk hvalue hs).mono fun x hx => ⟨?_, hx.2⟩
  obtain hscalar | ⟨hmapping, hheeds⟩ := hx.1
  · exact .scalar hscalar
  · exact .dictOf hmapping hheeds fun _ _ hv => hv

/-! ## 4. The parts of a configuration -/

theorem fits_words {mk : String → α} {fresh : α} {elemType : String} :
    Fits (.listOf item) (listSlot type (wordSlot elemType mk) fresh) := by
  intro s old hs
  exact (fits_list fits_scalar trivial s old hs).mono fun _ hx => ⟨hx.1, id⟩

theorem fits_filter : Fits (.named "Filter") filterSlot :=
  fits_record rfl (by
    simp only [List.forall_mem_cons]
    exact ⟨passes rfl fits_words, passes rfl fits_words, nofun⟩)

theorem fits_typeKinds : Fits (.named "TypeKinds") typeKindsSlot :=
  fits_record rfl (by
    simp only [List.forall_mem_cons]
    exact ⟨passes rfl fits_scalar, passes rfl fits_scalar, passes rfl fits_scalar,
      passes rfl fits_scalar, passes rfl fits_scalar, passes rfl fits_scalar, nofun⟩)

theorem fits_typeScan : Fits (.named "TypeScanConfig") typeScanSlot :=
  fits_record rfl (by
    simp only [List.forall_mem_cons]
    exact ⟨passes rfl fits_typeKinds, passes rfl fits_filter, passes rfl fits_filter, nofun⟩)

theorem fits_memberKinds : Fits (.named "MemberKinds") memberKindsSlot :=
  fits_record rfl (by
    simp only [List.forall_mem_cons]
    exact ⟨passes rfl fits_scalar, passes rfl fits_scalar, passes rfl fits_scalar,
      passes rfl fits_scalar, passes rfl fits_scalar, passes rfl fits_scalar,
      passes rfl fits_scalar, passes rfl fits_scalar, passes rfl fits_scalar, nofun⟩)

theorem fits_memberScan : Fits (.named "MemberScanConfig") memberScanSlot :=
  fits_record rfl (by
    simp only [List.forall_mem_cons]
    exact ⟨passes rfl fits_memberKinds, passes rfl fits_filter, passes rfl fits_filter,
      passes rfl fits_scalar, nofun⟩)

theorem fits_scan : Fits (.named "ScanConfig") scanSlot :=
  fits_record rfl (by
    simp only [List.forall_mem_cons]
    exact ⟨passes rfl fits_filter, passes rfl fits_typeScan, passes rfl fits_memberScan,
      passes rfl fits_words, nofun⟩)

theorem fits_selector : Fits (.named "Selector") selectorSlot :=
  fits_record rfl (by
    simp only [List.forall_mem_cons]
    exact ⟨passes rfl fits_words, passes rfl fits_words, passes rfl fits_words,
      passes rfl fits_words, passes rfl fits_words, passes rfl fits_words, passes rfl fits_words,
      passes rfl fits_words, passes rfl (fits_option fits_filter), nofun⟩)

theorem fits_override : Fits (.named "SeverityOverride") overrideSlot :=
  fits_record rfl (by
    simp only [List.forall_mem_cons]
    exact ⟨passes rfl (fits_option fits_selector), passes rfl fits_scalar, nofun⟩)

theorem fits_profile :
    FitsKeeping (fun p => KeysDistinct p.byVisibility) (.named "SeverityProfile") profileSlot :=
  fits_record rfl (by
    simp only [List.forall_mem_cons]
    exact ⟨passes_keeping rfl (fits_dict (fun _ _ => Visibility.mk.inj) fits_scalar)
        fun _ _ h hkeep => hkeep h,
      passes_keeping rfl (fits_list fits_override trivial) fun _ _ h _ => h, nofun⟩)

theorem fits_policy : Fits (.named "AnnotationPolicy") policySlot :=
  fits_record rfl (by
    simp only [List.forall_mem_cons]
    exact ⟨passes rfl fits_scalar, passes rfl fits_words, passes rfl fits_scalar,
      passes rfl fits_words, passes rfl fits_scalar, passes rfl (fits_option fits_scalar), nofun⟩)

theorem fits_defaults : FitsKeeping (fun d => KeysDistinct d.severity.byVisibility)
    (.named "DefaultsConfig") defaultsSlot :=
  fits_record rfl (by
    simp only [List.forall_mem_cons]
    exact ⟨passes_keeping rfl fits_profile fun _ _ h hkeep => hkeep h,
      passes_keeping rfl (fits_list fits_policy trivial) fun _ _ h _ => h, nofun⟩)

/-- Options that come from a document: something that stands there itself. -/
def SoundOptions (o : Option Node) : Prop :=
  ∀ m, o = some m → m.Sound ∧ m.isNull = false ∧ m.isAlias = false

theorem fits_options : FitsKeeping SoundOptions .free optionsSlot := by
  intro s old hs
  unfold optionsSlot
  refine .ite (fun _ => ?_) fun hnull => ?_
  · have hnone : Ensures s.inner (recordSlot true "config.RuleOptions" [] s.node ())
        fun _ => True := (heeds_record (P := fun _ _ => True) (G := fun _ => True) nofun
          (by rintro ⟨⟩) hs).mono fun _ _ => trivial
    exact .skip hnone fun x => .pure ⟨.free, id⟩
  · refine .pure ⟨.free, fun _ m hm => ?_⟩
    cases hm
    exact ⟨hs.node, Bool.eq_false_iff.mpr hnull, hs.plain⟩

theorem fits_rule : FitsKeeping (fun e => SoundOptions e.options) (.named "RuleConfig") ruleSlot :=
  fits_record rfl (by
    simp only [List.forall_mem_cons]
    exact ⟨passes_keeping rfl fits_scalar fun _ _ h _ => h,
      passes_keeping rfl (fits_option fits_scalar) fun _ _ h _ => h,
      passes_keeping rfl fits_scalar fun _ _ h _ => h,
      passes_keeping rfl (fits_option fits_selector) fun _ _ h _ => h,
      passes_keeping rfl fits_options fun _ _ h hkeep => hkeep h, nofun⟩)

theorem fits_failOn : Fits (.named "FailOnConfig") failOnSlot :=
  fits_record rfl (by
    simp only [List.forall_mem_cons]
    exact ⟨passes rfl fits_scalar, nofun⟩)

theorem fits_logging : Fits (.named "LoggingConfig") loggingSlot :=
  fits_record rfl (by
    simp only [List.forall_mem_cons]
    exact ⟨passes rfl fits_scalar, passes rfl fits_scalar, passes rfl fits_scalar, nofun⟩)

theorem fits_metrics : Fits (.named "MetricsConfig") metricsSlot :=
  fits_record rfl (by
    simp only [List.forall_mem_cons]
    exact ⟨passes rfl fits_scalar, passes rfl fits_scalar, passes rfl fits_scalar, nofun⟩)

theorem fits_tracing : Fits (.named "TracingConfig") tracingSlot :=
  fits_record rfl (by
    simp only [List.forall_mem_cons]
    exact ⟨passes rfl fits_scalar, passes rfl fits_scalar, passes rfl fits_scalar,
      passes rfl fits_scalar, passes rfl fits_scalar, nofun⟩)

theorem fits_telemetry : Fits (.named "TelemetryConfig") telemetrySlot :=
  fits_record rfl (by
    simp only [List.forall_mem_cons]
    exact ⟨passes rfl fits_logging, passes rfl fits_metrics, passes rfl fits_tracing, nofun⟩)

/-- **A configuration that comes from a document**: no visibility has two severities, and the rules
have options that come from there, if any. -/
structure Sound (c : Config) : Prop where
  visibilities : KeysDistinct c.defaults.severity.byVisibility
  options : ∀ e ∈ c.rules, SoundOptions e.options

/-- **The decoder of configurations knows no keys but those of the schema.** -/
theorem fits_config : FitsKeeping Sound (.named "Config") configSlot :=
  fits_record rfl (by
    simp only [List.forall_mem_cons]
    exact ⟨passes_keeping rfl fits_scalar fun _ _ h _ => ⟨h.visibilities, h.options⟩,
      passes_keeping rfl fits_scan fun _ _ h _ => ⟨h.visibilities, h.options⟩,
      passes_keeping rfl fits_defaults fun _ _ h hkeep => ⟨hkeep h.visibilities, h.options⟩,
      passes_keeping rfl (fits_list fits_rule nofun) fun _ _ h hkeep =>
        ⟨h.visibilities, hkeep h.options⟩,
      passes_keeping rfl fits_failOn fun _ _ h _ => ⟨h.visibilities, h.options⟩,
      passes_keeping rfl fits_telemetry fun _ _ h _ => ⟨h.visibilities, h.options⟩, nofun⟩)

theorem keys_of_decodeBytes {base c : Config} {bytes : ByteArray} (hbase : base.Sound)
    (h : decodeBytes base bytes = .ok c) :
    (∀ n, readDocument bytes = .ok (some n) → Covers (.named "Config") (.of [] n)) ∧
      c.Sound := by
  unfold decodeBytes at h
  split at h
  · cases h
  · rename_i hread
    cases h
    refine ⟨fun n hn => ?_, hbase⟩
    rw [hread] at hn
    cases hn
  · rename_i n hread
    have hsound : n.Sound := sound_of_readDocument hread
    obtain ⟨x, ⟨hcovers, hkeep⟩, rfl⟩ :=
      (fits_config.decode open_nil hsound).of_run (mapError_eq_ok_iff.mp h)
    refine ⟨fun m hm => ?_, hkeep hbase⟩
    rw [hread] at hm
    cases hm
    exact hcovers

theorem sound_default : default.Sound where
  visibilities := by
    unfold KeysDistinct
    decide
  options := by
    intro e he m hm
    simp only [default, List.mem_cons, List.not_mem_nil, or_false] at he
    obtain rfl | rfl := he
    · cases hm
    · cases hm

/-- **A document with a key that the schema does not know is refused**, as one that cannot be
decoded. -/
theorem parse_refuses {text : String} {n : Node} (hread : readDocument text.toUTF8 = .ok (some n))
    (hunknown : ¬Covers (.named "Config") (.of [] n)) :
    ∃ e, parse text = .error (.context "failed to parse configuration" (.yaml e)) := by
  have hdecode : decodeBytes default text.toUTF8 = (decodeOver default n).mapError Error.yaml := by
    unfold decodeBytes
    rw [hread]
  unfold parse
  cases hover : decodeOver default n with
  | error e =>
    rw [hdecode, hover]
    exact ⟨e, rfl⟩
  | ok c =>
    rw [hover] at hdecode
    exact absurd ((keys_of_decodeBytes sound_default hdecode).1 n hread) hunknown

/-! ## 5. The options of rules -/

/-- **The options of the rules**, by the ids of these. -/
def optionShapes : List RecordShape := [
  ⟨Rule.DocPresence.id, [("min_length", .whole)]⟩,
  ⟨Rule.DocNamePrefix.id, [("allow_articles", .truth), ("skip_kinds", .listOf .kind)]⟩]

/-- If a record has a key, the schema covers what stands under it. -/
def RecordShape.Admits (r : RecordShape) (key : String) (v : Spot) : Prop :=
  ∀ shape, r.under? key = some shape → Covers shape v

theorem RecordShape.Allows.admits {v : Spot} (h : r.Allows key v) : r.Admits key v := by
  obtain ⟨shape, hshape, hcovers⟩ := h
  intro shape' hshape'
  cases hshape.symm.trans hshape'
  exact hcovers

/-- The schema covers what stands under the keys that a record has.  Other keys may stand beside
them, with anything under them. -/
def RecordShape.CoversKnown (r : RecordShape) (s : Spot) : Prop :=
  s.isScalar = true ∨ s.isMapping = true ∧ Heeds r.Admits s

theorem coversKnown_of_run (hkeys : r.fields.map (·.1) = fields.map (·.key))
    (hfields : ∀ f ∈ fields, f.Passes (r.Allows f.key) fun _ => True) {m : Node} {old o : R}
    (hm : m.Sound) (h : (recordSlot false type fields).run m old = .ok o) :
    r.CoversKnown (.of [] m) := by
  have hpasses : ∀ f ∈ fields, f.Passes (r.Admits f.key) fun _ => True :=
    fun f hf around v old haround hv =>
      (hfields f hf around v old haround hv).mono fun _ hx => ⟨hx.1.admits, hx.2⟩
  have hother : ∀ w v, (∀ f ∈ fields, f.key ≠ w) → r.Admits w v := by
    intro w v hw shape hshape
    obtain ⟨l₁, l₂, heq, -⟩ := List.lookup_eq_some_iff.mp hshape
    have hmem : w ∈ fields.map (·.key) := by
      rw [← hkeys, heq]
      simp
    obtain ⟨f, hf, rfl⟩ := List.mem_map.mp hmem
    exact absurd rfl (hw f hf)
  have hdecode : Ensures [] ((recordSlot false type fields).decode m old) fun _ =>
      r.CoversKnown (.of [] m) :=
    .decode (fun _ h => h) hm open_nil fun hs =>
      (heeds_record hpasses (fun _ => hother) hs).mono fun _ hx => hx.1
  obtain ⟨-, hcovers, -⟩ := hdecode.of_run h
  exact hcovers

theorem readOptions_eq_ok_iff {id : String} {defaults a : α} {m : Node} :
    Rule.readOptions id slot defaults (some m) = .ok a ↔ slot.run m defaults = .ok a :=
  mapError_eq_ok_iff

/-- Options that a rule of the library accepts hold no unknown key under those that the rule has. -/
theorem coversKnown_of_prepare {rule : Rule} (hrule : rule ∈ Rule.Registry.builtin.rules) :
    ∃ r ∈ optionShapes, r.name = rule.id ∧ ∀ m look, m.Sound →
      rule.prepare (some m) = .ok look → r.CoversKnown (.of [] m) := by
  simp only [Rule.Registry.builtin, List.mem_cons, List.not_mem_nil, or_false] at hrule
  obtain rfl | rfl := hrule
  · refine ⟨_, List.mem_cons_self, rfl, fun m look hm h => ?_⟩
    obtain ⟨o, ho, -⟩ := bind_eq_ok_iff.mp h
    refine coversKnown_of_run rfl ?_ hm (readOptions_eq_ok_iff.mp ho)
    simp only [List.forall_mem_cons]
    exact ⟨passes rfl fits_scalar, nofun⟩
  · refine ⟨_, List.mem_cons_of_mem _ List.mem_cons_self, rfl, fun m look hm h => ?_⟩
    obtain ⟨o, ho, -⟩ := bind_eq_ok_iff.mp h
    refine coversKnown_of_run rfl ?_ hm (readOptions_eq_ok_iff.mp ho)
    simp only [List.forall_mem_cons]
    exact ⟨passes rfl fits_scalar, passes rfl fits_words, nofun⟩

/-! ## 6. The whole text -/

variable {cfg : Config} {c : Policy.Compiled} {v : Inventory} {runId : String}
  {t : Audit.Timing} {cancelled : Bool} {result : Audit.Result}

/-- An enabled entry of a configuration is run with its options. -/
theorem prepared_of_run (hcompile : Policy.compileChecked (some cfg) = .ok c)
    (hrun : (Audit.run c .builtin v runId t cancelled).1 = .ok result) {e : RuleEntry}
    (he : e ∈ cfg.rules) (henabled : e.isEnabled = true) :
    ∃ rule ∈ Rule.Registry.builtin.rules, rule.id = e.id ∧
      ∃ look, rule.prepare e.options = .ok look := by
  have hmap : c.rules.map (fun e => (e.id, e.enabled, e.options)) =
      cfg.rules.map fun e => (e.id, e.isEnabled, e.options) := by
    rw [Policy.eq_of_compile (Policy.compileChecked_eq_ok hcompile)]
    exact Policy.run_compileEach_map (fun _ _ _ => rfl) _ _ _
  have hmem : (e.id, e.isEnabled, e.options) ∈
      c.rules.map fun e => (e.id, e.enabled, e.options) := by
    rw [hmap]
    exact List.mem_map_of_mem he
  obtain ⟨e', he', heq⟩ := List.mem_map.mp hmem
  simp only [Prod.mk.injEq] at heq
  obtain ⟨hid, hon, hoptions⟩ := heq
  have henabled' : e' ∈ c.enabledRules := List.mem_filter.mpr ⟨he', hon.trans henabled⟩
  obtain ⟨fs, hfound⟩ := (Audit.run_eq_ok_iff.mp hrun).1 e' henabled'
  obtain ⟨-, rule, hlookup, heval⟩ := Audit.outcomeOf_eq_found_iff.mp hfound
  obtain ⟨look, hprepare⟩ := Rule.prepared_of_evaluate heval
  rw [hoptions] at hprepare
  refine ⟨rule, List.mem_of_find?_eq_some hlookup, ?_, look, hprepare⟩
  rw [← hid]
  simpa using List.find?_some hlookup

/-- **The keys of an accepted text are known.**  If a text is accepted and an audit with it gives a
result, the schema knows every key of the text's first document, null keys and entries that do not
count in a merge aside; every enabled entry names a rule, and the schema knows every key inside the
options that the rule has. -/
theorem keys_recognised {text : String} (hparse : parse text = .ok cfg)
    (hcompile : Policy.compileChecked (some cfg) = .ok c)
    (hrun : (Audit.run c .builtin v runId t cancelled).1 = .ok result) :
    (∀ n, readDocument text.toUTF8 = .ok (some n) → Covers (.named "Config") (.of [] n)) ∧
      ∀ e ∈ cfg.rules, e.isEnabled = true → ∃ r ∈ optionShapes, r.name = e.id ∧
        ∀ m, e.options = some m → r.CoversKnown (.of [] m) := by
  unfold parse at hparse
  obtain ⟨c₀, hdecode, hchecked⟩ := bind_eq_ok_iff.mp hparse
  obtain ⟨-, rfl⟩ := (Files.checked_eq_ok_iff _ _ _).mp hchecked
  obtain ⟨hcovers, hsound⟩ :=
    keys_of_decodeBytes sound_default (mapError_eq_ok_iff.mp hdecode)
  refine ⟨hcovers, fun e he henabled => ?_⟩
  obtain ⟨rule, hrule, hid, look, hprepare⟩ := prepared_of_run hcompile hrun he henabled
  obtain ⟨r, hr, hname, hknown⟩ := coversKnown_of_prepare hrule
  refine ⟨r, hr, hname.trans hid, fun m hm => ?_⟩
  rw [hm] at hprepare
  exact hknown m look (hsound.options e he m hm).1 hprepare

/-- An audit of nothing, with the rules of the library. -/
def auditOfNothing (cfg : Config) : Except Error Audit.Result := do
  let c ← Policy.compileChecked (some cfg)
  (Audit.run c .builtin ⟨[], []⟩ "" .none false).1

/-- A text that gives a rule an option. -/
def optionText : String := "rules:\n  - id: doc-presence\n    config:\n      min_length: 10\n"

theorem keys_recognised_option : ∃ cfg c result n, parse optionText = .ok cfg ∧
    Policy.compileChecked (some cfg) = .ok c ∧
    (Audit.run c .builtin ⟨[], []⟩ "" .none false).1 = .ok result ∧
    readDocument optionText.toUTF8 = .ok (some n) ∧ Covers (.named "Config") (.of [] n) ∧
    ∃ e ∈ cfg.rules, ∃ m, e.options = some m ∧
      ∃ r ∈ optionShapes, r.name = e.id ∧ r.CoversKnown (.of [] m) := by
  obtain ⟨hparse, hread⟩ : (parse optionText).toOption.any (fun cfg =>
        decide ((auditOfNothing cfg).isOk = true ∧
          ∃ e ∈ cfg.rules, e.isEnabled = true ∧ e.options.isSome = true)) = true ∧
      (readDocument optionText.toUTF8).toOption.any (fun root =>
        decide (root.isSome = true)) = true := by
    decide +kernel
  obtain ⟨cfg, hcfg, haudit, e, he, henabled, hoptions⟩ := exists_eq_ok_of_any hparse
  obtain ⟨root, hroot, hsome⟩ := exists_eq_ok_of_any hread
  obtain ⟨n, rfl⟩ := Option.isSome_iff_exists.mp hsome
  obtain ⟨m, hm⟩ := Option.isSome_iff_exists.mp hoptions
  obtain ⟨result, haudit⟩ := exists_eq_ok_of_isOk haudit
  obtain ⟨c, hc, hresult⟩ := bind_eq_ok_iff.mp haudit
  obtain ⟨hcovers, hrules⟩ := keys_recognised hcfg hc hresult
  obtain ⟨r, hr, hname, hknown⟩ := hrules e he henabled
  exact ⟨cfg, c, result, n, hcfg, hc, hresult, hroot, hcovers n hroot, e, he, m, hm, r, hr, hname,
    hknown m hm⟩

/-- A text that gives a rule an option under a name that no option has. -/
def typoText : String := "rules:\n  - id: doc-presence\n    config:\n      min_lenght: 10\n"

/-- Texts with an unknown key in their second document, a null key, and an unknown key under a key
that is set again. -/
def overlookedTexts : List String := [
  "project_root: .\n---\nbogus: 1\n",
  "~: 1\nproject_root: x\n",
  "<<: \x7bscan: \x7bbogus: 1\x7d\x7d\nscan: \x7b\x7d\n"]

/-- **Not every key is checked**: an option that a rule does not have is accepted by the rule, and
some keys outside of options are passed over. -/
theorem typo_accepted : (∃ cfg c result, parse typoText = .ok cfg ∧
    Policy.compileChecked (some cfg) = .ok c ∧
    (Audit.run c .builtin ⟨[], []⟩ "" .none false).1 = .ok result ∧
    (∃ e ∈ cfg.rules, e.isEnabled = true ∧ ∃ m ∈ e.options, ∃ k ∈ (Spot.of [] m).entries,
      k.1.word? = some "min_lenght") ∧
    ∀ r ∈ optionShapes, (r.under? "min_lenght").isNone = true) ∧
    ∀ text ∈ overlookedTexts, (parse text).isOk = true := by
  have hparse : (parse typoText).toOption.any (fun cfg =>
      decide ((auditOfNothing cfg).isOk = true ∧ ∃ e ∈ cfg.rules, e.isEnabled = true ∧
        ∃ m ∈ e.options, ∃ k ∈ (Spot.of [] m).entries, k.1.word? = some "min_lenght")) = true := by
    decide +kernel
  obtain ⟨cfg, hcfg, haudit, hkey⟩ := exists_eq_ok_of_any hparse
  obtain ⟨result, haudit⟩ := exists_eq_ok_of_isOk haudit
  obtain ⟨c, hc, hresult⟩ := bind_eq_ok_iff.mp haudit
  refine ⟨⟨cfg, c, result, hcfg, hc, hresult, hkey, ?_⟩, ?_⟩
  · decide
  · decide +kernel

end DocAudit.Config
