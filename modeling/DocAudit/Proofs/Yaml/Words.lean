import DocAudit.Proofs.Yaml.Merged

/-!
# The words of a mapping

A mapping that is decoded as a record or as a dictionary of words has been looked at key by key.

* `Heeds`: what has been looked at in a mapping and in those merged into it;
* `heeds_record`, `heeds_dict`: a run without faults has looked at everything.
-/

namespace DocAudit.Yaml

open Spot

variable {α β R κ : Type} {around : List Node} {P : String → Spot → Prop}

/-! ## 1. What has been looked at -/

/-- What a key gives: a word, in a type of its own, unless the key is null. -/
def Spot.Gives (mk : String → κ) (k : Spot) : Option κ → Prop
  | none => k.isNull = true
  | some a => k.word?.map mk = some a

/-- A key asks for a merge, or is null, or is a word of which something holds. -/
def Spot.Counts (ok : String → Prop) (k : Spot) : Prop :=
  k.node.isMerge = true ∨ k.isNull = true ∨ ∃ w, k.word? = some w ∧ ok w

/-- **Every key of a mapping and of those merged into it has been looked at.**  `P` holds of the
word and the value of an own entry; where an entry is merged in, it holds of the word and the value
that counts, which another entry may give. -/
structure Heeds (P : String → Spot → Prop) (s : Spot) : Prop where
  own : ∀ e ∈ s.entries, e.1.Counts fun w => P w e.2
  merged : ∀ t, Relation.TransGen Draws s t → ∀ e ∈ t.entries, e.1.Counts fun w =>
    w = "<<" ∨ ∃ u, Reaches s u ∧ ∃ e' ∈ u.entries, e'.1.word? = some w ∧ P w e'.2

theorem read_wordOf (mk : String → α) (s : Spot) : s.read? (wordOf mk) = s.word?.map mk := by
  unfold Spot.word? Spot.read?
  split
  · split
    · rfl
    · rfl
    · rename_i x _ _
      cases x <;> rfl
  · rfl

theorem word_of_isNull {k : Spot} (h : k.isNull = true) : k.word? = none := read?_of_isNull h

/-- A key that asks for a merge reads like one. -/
theorem word_of_isMerge {s : Spot} (h : s.node.isMerge = true) : s.word? = some "<<" := by
  obtain ⟨n, around⟩ := s
  match n with
  | .scalar hd style v =>
    simp only [Node.isMerge, Bool.and_eq_true, beq_iff_eq] at h
    obtain ⟨rfl, htag⟩ := h
    simp [Spot.word?, Spot.read?, scalarValue?, htag, valueUnder, formTags, wordOf]

/-- A text is a word. -/
theorem word_of_text {s : Spot} {w : String} (h : s.value? = some (.text w)) :
    s.word? = some w := by
  obtain ⟨n, around⟩ := s
  match n with
  | .scalar hd style v =>
    have hvalue : scalarValue? hd style v = some (.text w) := h
    simp [Spot.word?, Spot.read?, hvalue, wordOf]

/-- What is decoded of a key. -/
theorem ensures_key {type : String} {mk : String → κ} {fresh : κ}
    (haround : Open Node.Regular around) {k : Node} (hk : k.Sound) :
    Ensures around ((wordSlot type mk).decode k fresh) fun x =>
      (of around k).Gives mk (if x.2 then some x.1 else none) := by
  rw [wordSlot_eq]
  refine .decode (fun _ h => h) hk haround fun hs => (ensures_scalar _ _ hs).mono fun x hx => ?_
  split at hx
  · rename_i hnull
    subst hx
    exact hnull
  · obtain ⟨hword, hgood⟩ := hx
    rw [if_pos hgood, Spot.Gives, ← read_wordOf, hword]

/-- What has been taken in of a mapping has been looked at. -/
theorem heeds_of_taken {Q : κ → Spot → Prop} {held : κ → Prop} {s : Spot} {mk : String → κ}
    (h : TakenFrom (Spot.Gives mk) Q held s) (hmk : Function.Injective mk)
    (hQ : ∀ w v, Q (mk w) v → P w v)
    (hheld : ∀ w, held (mk w) → ∃ e ∈ s.entries, e.1.word? = some w) : Heeds P s := by
  have hback {k : Spot} {w : String} (hk : k.Gives mk (some (mk w))) : k.word? = some w := by
    obtain ⟨w', hw', heq⟩ := Option.map_eq_some_iff.mp hk
    rw [hw', hmk heq]
  have hown : ∀ e ∈ s.entries, e.1.Counts fun w => P w e.2 := by
    intro e he
    obtain hmerge | hnull | ⟨a, ha, hq⟩ := h.own e he
    · exact .inl hmerge
    · exact .inr (.inl hnull)
    · obtain ⟨w, hw, rfl⟩ := Option.map_eq_some_iff.mp ha
      exact .inr (.inr ⟨w, hw, hQ w e.2 hq⟩)
  refine ⟨hown, fun t ht e he => ?_⟩
  obtain ⟨u, hu, hut⟩ := Relation.TransGen.head'_iff.mp ht
  obtain hmerge | hnull | ⟨a, ha, hin⟩ := h.merged u hu t hut e he
  · exact .inl hmerge
  · exact .inr (.inl hnull)
  · obtain ⟨w, hw, rfl⟩ := Option.map_eq_some_iff.mp ha
    refine .inr (.inr ⟨w, hw, ?_⟩)
    obtain hin | ⟨t', ht', u', hu', e', he', hkey, hq⟩ := hin
    · -- The word is a key of the mapping itself.
      obtain ⟨e', he', hw'⟩ := hheld w hin
      obtain hmerge | hnull | ⟨w'', hw'', hp⟩ := hown e' he'
      · exact .inl (Option.some.inj (hw'.symm.trans (word_of_isMerge hmerge)))
      · rw [word_of_isNull hnull] at hw'
        cases hw'
      · cases hw'.symm.trans hw''
        exact .inr ⟨s, .refl, e', he', hw', hp⟩
    · exact .inr ⟨u', .head ht' hu', e', he', hback hkey, hQ w e'.2 hq⟩

/-! ## 2. Records -/

/-- Whether a scalar stands at a spot. -/
def Spot.isScalar (s : Spot) : Bool :=
  match s.node with
  | .scalar _ _ _ => true
  | _ => false

/-- Whether a sequence stands at a spot. -/
def Spot.isSequence (s : Spot) : Bool :=
  match s.node with
  | .seq _ _ _ => true
  | _ => false

/-- Whether a mapping stands at a spot. -/
def Spot.isMapping (s : Spot) : Bool :=
  match s.node with
  | .map _ _ _ => true
  | _ => false

/-- A field lets a value pass, and keeps a property of the record. -/
def FieldSlot.Passes (f : FieldSlot R) (V : Spot → Prop) (G : R → Prop) : Prop :=
  ∀ (around : List Node) (v : Node) (r : R), Open Node.Regular around → v.Sound →
    Ensures around (f.decode v r) fun r' => V (.of around v) ∧ (G r → G r')

variable {type : String} {strict : Bool} {fields : List (FieldSlot R)} {G : R → Prop}

theorem checks_record (hfields : ∀ f ∈ fields, f.Passes (P f.key) G)
    (hother : strict = false → ∀ w v, (∀ f ∈ fields, f.key ≠ w) → P w v) :
    (recordIntake strict type fields).Checks (Spot.Gives id) P fun s => G s.1 := by
  refine ⟨⟨fun around merged k haround hk => ?_, fun around w k v s haround _ hv => ?_⟩,
    fun _ _ hs => hs⟩
  · exact (ensures_key haround hk).bind fun x => .pure fun hx => hx
  · obtain ⟨r, done⟩ := s
    simp only [recordIntake]
    split
    · rename_i f hf
      have hkey : f.key = w := by simpa using List.find?_some hf
      refine .ite (fun _ => ?_) fun _ => ?_
      · exact (Ensures.report (R := fun _ => False)).bind fun _ => .pure False.elim
      · have hpass := hfields f (List.mem_of_find?_eq_some hf) around v r haround hv
        rw [hkey] at hpass
        exact hpass.bind fun r' => .pure id
    · rename_i hnone
      have hkeys : ∀ f ∈ fields, f.key ≠ w := by
        simpa [List.find?_eq_none] using hnone
      cases strict with
      | true => exact (Ensures.report (R := fun _ => False)).bind fun _ => .pure False.elim
      | false => exact .pure ⟨hother rfl w _ hkeys, id⟩

/-- The keys that the mappings merged into a record cannot set again are words of its own. -/
theorem ensures_recordKeys (haround : Open Node.Regular around) {es : List (Node × Node)}
    (hes : SoundEntries es) :
    Ensures around ((recordIntake strict type fields).keys es) fun ks =>
      ∀ w ∈ ks, ∃ e ∈ pairs around es, e.1.word? = some w := by
  refine (ensures_keyValues reveals_contentSlot haround hes).bind fun vs => .pure ?_
  intro hvs w hw
  obtain ⟨v, hv, hw⟩ := List.mem_filterMap.mp hw
  obtain ⟨e, he, hvalue⟩ := hvs v hv
  cases v with
  | text t =>
    cases hw
    exact ⟨e, he, word_of_text hvalue⟩
  | _ => cases hw

/-- **A record has been looked at**, if it is no scalar. -/
theorem heeds_record (hfields : ∀ f ∈ fields, f.Passes (P f.key) G)
    (hother : strict = false → ∀ w v, (∀ f ∈ fields, f.key ≠ w) → P w v) {s : Spot} {old : R}
    (hs : s.Good Node.Regular) :
    Ensures s.inner (recordSlot strict type fields s.node old) fun x =>
      (s.isScalar = true ∨ s.isMapping = true ∧ Heeds P s) ∧ (G old → G x.1) := by
  obtain ⟨n, around⟩ := s
  obtain ⟨hd, style, v, rfl⟩ | ⟨hd, flow, xs, rfl⟩ | ⟨hd, flow, es, rfl⟩ :=
    Node.forms_of_plain hs.plain
  · refine .skip (Ensures.scalarValue.mono fun _ _ => trivial) fun x => ?_
    split
    · exact .pure ⟨.inl rfl, id⟩
    · exact .mismatch (n := .scalar hd style v) rfl
  · exact .mismatch (n := .seq hd flow xs) rfl
  · have hkeys : Ensures (inner ⟨.map hd flow es, around⟩)
        ((recordIntake strict type fields).keys es) _ := ensures_recordKeys (hs.inner rfl) hs.node.2
    refine (ensures_take_merged (checks_record hfields hother) hs hkeys).bind fun x => .pure ?_
    rintro ⟨htaken, hkeep⟩
    refine ⟨.inr ⟨rfl, heeds_of_taken htaken Function.injective_id ?_ ?_⟩, hkeep⟩
    · exact fun w v hq => hq
    · exact fun w hw => hw

/-! ## 3. Dictionaries -/

section Dictionaries

variable [DecidableEq α] {value : Slot β} {V : Spot → Prop} {keyType : String} {mk : String → α}
  {freshKey : α} {fresh : β}

/-- The keys of a dictionary are distinct. -/
def KeysDistinct (d : List (α × β)) : Prop := (d.map (·.1)).Nodup

theorem mem_keys_setEntry {i k : α} {b : β} : ∀ {d : List (α × β)},
    i ∈ (setEntry k b d).map (·.1) → i = k ∨ i ∈ d.map (·.1)
  | [], h => .inl (List.mem_singleton.mp h)
  | (j, w) :: d, h => by
      rw [setEntry] at h
      split at h
      · exact .inr h
      · obtain rfl | h := List.mem_cons.mp h
        · exact .inr List.mem_cons_self
        · exact (mem_keys_setEntry h).imp_right (List.mem_cons_of_mem _)

theorem keysDistinct_setEntry {k : α} {b : β} : ∀ {d : List (α × β)}, KeysDistinct d →
    KeysDistinct (setEntry k b d)
  | [], _ => List.pairwise_singleton _ _
  | (j, w) :: d, h => by
      obtain ⟨hj, hd⟩ := List.nodup_cons.mp h
      rw [setEntry]
      split
      · exact h
      · rename_i hne
        refine List.nodup_cons.mpr ⟨fun hmem => ?_, keysDistinct_setEntry hd⟩
        obtain rfl | hmem := mem_keys_setEntry hmem
        · exact hne (beq_self_eq_true _)
        · exact hj hmem

theorem checks_dict (hvalue : ∀ (s : Spot) (old : β), s.Good Node.Regular →
      Ensures s.inner (value s.node old) fun _ => V s) :
    (dictIntake (wordSlot keyType mk) freshKey value fresh).Checks
      (Spot.Gives mk) (fun _ v => V v) fun s => KeysDistinct s.1 := by
  refine ⟨⟨fun around merged k haround hk => ?_, fun around a k v s haround _ hv => ?_⟩,
    fun _ _ h => h⟩
  · exact (ensures_key haround hk).bind fun x => .pure fun hx => hx
  · have hpass : Ensures around (value.decode v fresh) fun _ => V (of around v) :=
      .decode (fun _ h => h) hv haround (hvalue _ fresh)
    refine hpass.bind fun x => .pure fun hx => ⟨hx, fun hdistinct => ?_⟩
    split
    · exact keysDistinct_setEntry hdistinct
    · exact hdistinct

/-- **A dictionary has been looked at**, if it is no scalar, and no key of it stands twice. -/
theorem heeds_dict {type : String} (hmk : Function.Injective mk)
    (hvalue : ∀ (s : Spot) (old : β), s.Good Node.Regular →
      Ensures s.inner (value s.node old) fun _ => V s) {s : Spot} {old : List (α × β)}
    (hs : s.Good Node.Regular) :
    Ensures s.inner (dictSlot type (wordSlot keyType mk) freshKey value fresh s.node old) fun x =>
      (s.isScalar = true ∨ s.isMapping = true ∧ Heeds (fun _ v => V v) s) ∧
        (KeysDistinct old → KeysDistinct x.1) := by
  obtain ⟨n, around⟩ := s
  obtain ⟨hd, style, v, rfl⟩ | ⟨hd, flow, xs, rfl⟩ | ⟨hd, flow, es, rfl⟩ :=
    Node.forms_of_plain hs.plain
  · refine .skip (Ensures.scalarValue.mono fun _ _ => trivial) fun x => ?_
    split
    · exact .pure ⟨.inl rfl, fun _ => List.nodup_nil⟩
    · exact .mismatch (n := .scalar hd style v) rfl
  · exact .mismatch (n := .seq hd flow xs) rfl
  · have hkeys : Ensures (inner ⟨.map hd flow es, around⟩)
        ((dictIntake (wordSlot keyType mk) freshKey value fresh).keys es) fun ks =>
          ∀ a ∈ ks, False := by
      refine .skip ?_ fun vs => .pure fun _ h => nomatch h
      exact (ensures_keyValues reveals_contentSlot (hs.inner rfl) hs.node.2).mono
        fun _ _ => trivial
    refine (ensures_take_merged (checks_dict hvalue) hs hkeys).bind fun x => .pure ?_
    rintro ⟨htaken, hkeep⟩
    exact ⟨.inr ⟨rfl, heeds_of_taken htaken hmk (fun _ _ hq => hq) fun _ h => h.elim⟩, hkeep⟩

end Dictionaries

end DocAudit.Yaml
