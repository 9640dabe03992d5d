import DocAudit.Proofs.Yaml.Decode
import DocAudit.Yaml.Document

/-!
# Nodes of documents

What holds of every node that is read from a document, wherever in it the node stands.

* `Node.Throughout`: a property of a node and of everything in it, aliases followed;
* `Node.Sound`: an alias refers to a node that is none itself, and a scalar has a tag;
* `sound_of_readDocument`: the nodes of documents are sound throughout.
-/

namespace DocAudit.Yaml

variable {α β : Type}

/-! ## 1. Properties throughout a node -/

mutual

/-- **A node and everything in it has a property**, what its aliases stand for included. -/
def Node.Throughout (P : Node → Prop) : Node → Prop
  | .scalar h style v => P (.scalar h style v)
  | .seq h flow xs => P (.seq h flow xs) ∧ itemsThroughout P xs
  | .map h flow es => P (.map h flow es) ∧ entriesThroughout P es
  | .alias h name none => P (.alias h name none)
  | .alias h name (some t) => P (.alias h name (some t)) ∧ t.Throughout P

/-- Nodes that have a property throughout. -/
def itemsThroughout (P : Node → Prop) : List Node → Prop
  | [] => True
  | n :: ns => n.Throughout P ∧ itemsThroughout P ns

/-- Entries whose keys and values have a property throughout. -/
def entriesThroughout (P : Node → Prop) : List (Node × Node) → Prop
  | [] => True
  | (k, v) :: es => (k.Throughout P ∧ v.Throughout P) ∧ entriesThroughout P es

end

mutual

/-- Whether a node has a property throughout can be computed. -/
def Node.decThroughout (P : Node → Prop) [DecidablePred P] : ∀ n : Node, Decidable (n.Throughout P)
  | .scalar h style v => inferInstanceAs (Decidable (P (.scalar h style v)))
  | .seq h flow xs =>
    have := decItemsThroughout P xs
    inferInstanceAs (Decidable (P (.seq h flow xs) ∧ itemsThroughout P xs))
  | .map h flow es =>
    have := decEntriesThroughout P es
    inferInstanceAs (Decidable (P (.map h flow es) ∧ entriesThroughout P es))
  | .alias h name none => inferInstanceAs (Decidable (P (.alias h name none)))
  | .alias h name (some t) =>
    have := t.decThroughout P
    inferInstanceAs (Decidable (P (.alias h name (some t)) ∧ t.Throughout P))

def decItemsThroughout (P : Node → Prop) [DecidablePred P] :
    ∀ ns : List Node, Decidable (itemsThroughout P ns)
  | [] => inferInstanceAs (Decidable True)
  | n :: ns =>
    have := n.decThroughout P
    have := decItemsThroughout P ns
    inferInstanceAs (Decidable (n.Throughout P ∧ itemsThroughout P ns))

def decEntriesThroughout (P : Node → Prop) [DecidablePred P] :
    ∀ es : List (Node × Node), Decidable (entriesThroughout P es)
  | [] => inferInstanceAs (Decidable True)
  | (k, v) :: es =>
    have := k.decThroughout P
    have := v.decThroughout P
    have := decEntriesThroughout P es
    inferInstanceAs (Decidable ((k.Throughout P ∧ v.Throughout P) ∧ entriesThroughout P es))

end

instance (P : Node → Prop) [DecidablePred P] : DecidablePred (Node.Throughout P) :=
  Node.decThroughout P

variable {P : Node → Prop}

theorem itemsThroughout_iff {ns : List Node} :
    itemsThroughout P ns ↔ ∀ n ∈ ns, n.Throughout P := by
  induction ns with
  | nil => simp [itemsThroughout]
  | cons n ns ih => simp [itemsThroughout, ih]

theorem entriesThroughout_iff {es : List (Node × Node)} :
    entriesThroughout P es ↔ ∀ e ∈ es, e.1.Throughout P ∧ e.2.Throughout P := by
  induction es with
  | nil => simp [entriesThroughout]
  | cons e es ih =>
    obtain ⟨k, v⟩ := e
    simp [entriesThroughout, ih]

mutual

/-- Two properties throughout a node are one. -/
theorem Node.Throughout.and {Q : Node → Prop} : ∀ {n : Node}, n.Throughout P → n.Throughout Q →
    n.Throughout fun m => P m ∧ Q m
  | .scalar _ _ _, h, h' => ⟨h, h'⟩
  | .seq _ _ _, h, h' => ⟨⟨h.1, h'.1⟩, itemsThroughout_and h.2 h'.2⟩
  | .map _ _ _, h, h' => ⟨⟨h.1, h'.1⟩, entriesThroughout_and h.2 h'.2⟩
  | .alias _ _ none, h, h' => ⟨h, h'⟩
  | .alias _ _ (some _), h, h' => ⟨⟨h.1, h'.1⟩, h.2.and h'.2⟩

theorem itemsThroughout_and {Q : Node → Prop} : ∀ {ns : List Node}, itemsThroughout P ns →
    itemsThroughout Q ns → itemsThroughout (fun m => P m ∧ Q m) ns
  | [], _, _ => trivial
  | _ :: _, h, h' => ⟨h.1.and h'.1, itemsThroughout_and h.2 h'.2⟩

theorem entriesThroughout_and {Q : Node → Prop} : ∀ {es : List (Node × Node)},
    entriesThroughout P es → entriesThroughout Q es →
      entriesThroughout (fun m => P m ∧ Q m) es
  | [], _, _ => trivial
  | (_, _) :: _, h, h' =>
    ⟨⟨h.1.1.and h'.1.1, h.1.2.and h'.1.2⟩, entriesThroughout_and h.2 h'.2⟩

end

/-! ## 2. Sound nodes -/

/-- What a node of a document is by itself: if it is an alias, what it refers to is none, and if it
is a scalar, it has a tag. -/
def Node.Regular : Node → Prop
  | .scalar h _ _ => h.tag ≠ ""
  | .alias _ _ (some t) => t.isAlias = false
  | _ => True

/-- **A node that can stand in a document.** -/
def Node.Sound (n : Node) : Prop := n.Throughout Node.Regular

/-- Changing the comments of a node changes nothing else. -/
theorem sound_withFootnote {text : String} : ∀ {n : Node}, (n.withFootnote text).Sound ↔ n.Sound
  | .scalar _ _ _ => Iff.rfl
  | .seq _ _ _ => Iff.rfl
  | .map _ _ _ => Iff.rfl
  | .alias _ _ none => Iff.rfl
  | .alias _ _ (some _) => Iff.rfl

/-- Entries with sound keys and values. -/
def SoundEntries (es : List (Node × Node)) : Prop := entriesThroughout Node.Regular es

/-- Nodes that are sound. -/
def SoundItems (ns : List Node) : Prop := itemsThroughout Node.Regular ns

theorem soundEntries_cons {k v : Node} {es : List (Node × Node)} :
    SoundEntries ((k, v) :: es) ↔ (k.Sound ∧ v.Sound) ∧ SoundEntries es := Iff.rfl

theorem sound_raiseFoot {e : Node × Node} (hk : e.1.Sound) (hv : e.2.Sound) :
    (raiseFoot e).1.Sound ∧ (raiseFoot e).2.Sound := by
  unfold raiseFoot
  split
  · exact ⟨sound_withFootnote.mpr hk, sound_withFootnote.mpr hv⟩
  · exact ⟨hk, hv⟩

theorem sound_settleFeet (block : Bool) : ∀ (first : Bool) {es : List (Node × Node)},
    SoundEntries es → SoundEntries (settleFeet block first es)
  | _, [], _ => trivial
  | first, (k, v) :: rest, h => by
      rw [soundEntries_cons] at h
      obtain ⟨⟨hk, hv⟩, hrest⟩ := h
      have hkey : (if block && !first then k.withFootnote "" else k).Sound := by
        split
        · exact sound_withFootnote.mpr hk
        · exact hk
      obtain ⟨hk', hv'⟩ := sound_raiseFoot
        (e := (if block && !first then k.withFootnote "" else k, v)) hkey hv
      rw [settleFeet, soundEntries_cons]
      refine ⟨⟨?_, hv'⟩, sound_settleFeet block false hrest⟩
      split
      · split
        · exact sound_withFootnote.mpr hk'
        · exact hk'
      · exact hk'

theorem sound_withLastFoot (text : String) : ∀ {es : List (Node × Node)}, SoundEntries es →
    SoundEntries (withLastFoot text es)
  | [], _ => trivial
  | [(k, v)], h => by
      rw [soundEntries_cons] at h
      exact soundEntries_cons.mpr ⟨⟨sound_withFootnote.mpr h.1.1, h.1.2⟩, trivial⟩
  | (k, v) :: e :: rest, h => by
      rw [soundEntries_cons] at h
      exact soundEntries_cons.mpr ⟨h.1, sound_withLastFoot text h.2⟩

theorem sound_blockMapping {h : Head} {es : List (Node × Node)} {last : Remarks}
    (hes : SoundEntries es) :
    (blockMapping h es last).Sound ∧ (blockMapping h es last).isAlias = false := by
  have hfeet := sound_settleFeet true true hes
  simp only [blockMapping]
  split
  · exact ⟨⟨trivial, sound_withLastFoot _ hfeet⟩, rfl⟩
  · exact ⟨⟨trivial, hfeet⟩, rfl⟩

/-! ## 3. Reading -/

/-- The nodes that names have been given to are sound, and none of them is an alias. -/
def Progress.Sound (p : Progress) : Prop :=
  ∀ b ∈ p.bindings, ∀ n, b.node = some n → n.Sound ∧ n.isAlias = false

namespace Reading

variable {act : Reading α} {Q : α → Prop} {R : β → Prop}

/-- What is read has the property `Q`, and the nodes of all names are sound. -/
def Yields (act : Reading α) (Q : α → Prop) : Prop :=
  ∀ p a p', p.Sound → act p = some (a, p') → p'.Sound ∧ Q a

namespace Yields

theorem pure {a : α} (h : Q a) : Yields (Pure.pure a) Q := by
  rintro p _ _ hp ⟨⟩
  exact ⟨hp, h⟩

theorem fail : Yields Reading.fail Q := by
  rintro p a p' - ⟨⟩

theorem bind {x : Reading α} {f : α → Reading β} (hx : Yields x Q)
    (hf : ∀ a, Q a → Yields (f a) R) : Yields (x >>= f) R := by
  intro p b p' hp hrun
  obtain ⟨⟨a, p₁⟩, ha, hb⟩ := Option.bind_eq_some_iff.mp hrun
  obtain ⟨hp₁, hQ⟩ := hx p a p₁ hp ha
  exact hf a hQ p₁ b p' hp₁ hb

/-- What is read first does not matter. -/
theorem skip {x : Reading α} {f : α → Reading β} (hx : Yields x fun _ => True)
    (hf : ∀ a, Yields (f a) R) : Yields (x >>= f) R := hx.bind fun a _ => hf a

theorem ite {c : Prop} [Decidable c] {act' : Reading α} (h : Yields act Q) (h' : Yields act' Q) :
    Yields (if c then act else act') Q := by
  split
  · exact h
  · exact h'

/-- A step that gives no node a name. -/
theorem keep (h : ∀ p a p', act p = some (a, p') → p'.bindings = p.bindings) :
    Yields act fun _ => True := by
  intro p a p' hp hrun
  refine ⟨?_, trivial⟩
  unfold Progress.Sound
  rw [h p a p' hrun]
  exact hp

theorem peek : Yields Reading.peek fun _ => True := by
  refine keep fun p a p' hrun => ?_
  obtain ⟨⟨t, s⟩, -, heq⟩ := Option.bind_eq_some_iff.mp hrun
  cases heq
  rfl

theorem modify {f : Progress → Progress} (h : ∀ p, (f p).bindings = p.bindings) :
    Yields (modify f : Reading Unit) fun _ => True := by
  refine keep fun p a p' hrun => ?_
  cases hrun
  exact h p

theorem advance : Yields Reading.skip fun _ => True := modify fun _ => rfl

theorem remarks : Yields Reading.remarks fun _ => True := keep fun _ _ _ hrun => by
  cases hrun
  rfl

theorem stem : Yields Reading.stem fun _ => True := keep fun _ _ _ hrun => by
  cases hrun
  rfl

theorem nextIn (ts : List Tok) : Yields (Reading.nextIn ts) fun _ => True :=
  peek.skip fun _ => .pure trivial

theorem skipDash : Yields Reading.skipDash fun _ => True := by
  have hget : Yields (get : Reading Progress) fun _ => True := keep fun _ _ _ hrun => by
    cases hrun
    rfl
  refine hget.skip fun p => advance.skip fun _ => .ite (peek.skip fun t => ?_) (.pure trivial)
  exact .ite (modify fun _ => rfl) (.pure trivial)

theorem expandTag (handle suffix : String) :
    Yields (Yaml.expandTag handle suffix) fun _ => True := by
  refine keep fun p a p' hrun => ?_
  unfold Yaml.expandTag at hrun
  split at hrun
  · cases hrun
    rfl
  · split at hrun
    · split at hrun
      · cases hrun
      · cases hrun
        rfl
    · cases hrun

theorem target (name : String) :
    Yields (Reading.target name) fun t => ∀ n, t = some n → n.Sound ∧ n.isAlias = false := by
  intro p a p' hp hrun
  unfold Reading.target at hrun
  split at hrun
  · rename_i b hb
    cases hrun
    exact ⟨hp, hp b (List.mem_of_find?_eq_some hb)⟩
  · cases hrun

/-- A node is read under a name, which only nodes that are no aliases are given to. -/
theorem named {anchor : String} {body : Reading Node}
    (h : Yields body fun n => n.Sound ∧ n.isAlias = false) :
    Yields (Yaml.named anchor body) Node.Sound := by
  unfold Yaml.named
  split
  · exact fun p a p' hp hrun => ⟨(h p a p' hp hrun).1, (h p a p' hp hrun).2.1⟩
  · have hbind : Yields (bind_ anchor) fun _ => True := by
      rintro p _ _ hp ⟨⟩
      refine ⟨fun b hb n hn => ?_, trivial⟩
      rcases List.mem_cons.mp hb with rfl | hb
      · cases hn
      · exact hp b hb n hn
    have hcomplete : ∀ (id : Nat) (n : Node), n.Sound ∧ n.isAlias = false →
        Yields (complete id n) fun _ => True := by
      rintro id n hn p _ _ hp ⟨⟩
      refine ⟨fun b hb m hm => ?_, trivial⟩
      obtain ⟨b', hb', rfl⟩ := List.mem_map.mp hb
      split at hm
      · cases hm
        exact hn
      · exact hp b' hb' m hm
    refine hbind.skip fun id => h.bind fun n hn => (hcomplete id n hn).skip fun _ => ?_
    exact .pure hn.1

end Yields

end Reading

/-! ## 4. Nodes of documents -/

open Reading

theorem shortTag_ne {tag : String} (h : tag ≠ "") : shortTag tag ≠ "" := by
  unfold shortTag
  split
  · exact fun heq => by simpa using congrArg String.length heq
  · exact h

theorem headOf_tag_ne {tag fallback anchor : String} {line : Nat} {r : Remarks}
    (h : fallback ≠ "") : (headOf tag fallback anchor line r).tag ≠ "" := by
  unfold headOf
  split
  · exact h
  · rename_i hne
    exact shortTag_ne fun heq => hne (by simp [heq])

theorem tag_ne (v : Value) : v.tag ≠ "" := by
  cases v <;> simp [Value.tag]

theorem scalarTag_ne (style : ScalarStyle) (text : String) : scalarTag style text ≠ "" := by
  unfold scalarTag
  split
  · split
    · decide
    · exact tag_ne _
  · decide

theorem sound_emptyScalar (line : Nat) : (emptyScalar line).Sound := by
  change "!!null" ≠ ""
  decide

theorem yields_properties : Yields readProperties fun _ => True := by
  refine Yields.peek.skip fun t => ?_
  split
  · refine Yields.advance.skip fun _ => Yields.peek.skip fun t' => ?_
    split
    · exact Yields.advance.skip fun _ => (Yields.expandTag _ _).skip fun _ => .pure trivial
    · exact .pure trivial
  · refine Yields.advance.skip fun _ => Yields.peek.skip fun t' => ?_
    split
    · exact Yields.advance.skip fun _ => (Yields.expandTag _ _).skip fun _ => .pure trivial
    · exact (Yields.expandTag _ _).skip fun _ => .pure trivial
  · exact .pure trivial

theorem yields_emptyOr (p : Properties) (line : Nat) : Yields (emptyOr p line) Node.Sound := by
  unfold emptyOr
  refine .ite .fail (.named (.pure ⟨?_, rfl⟩))
  exact headOf_tag_ne (by decide)

theorem yields_closing : Yields readClosing fun _ => True := by
  unfold readClosing
  exact Yields.remarks.skip fun _ => Yields.advance.skip fun _ => .pure trivial

/-- What is read with some fuel is sound, whatever is read. -/
structure SoundWith (fuel : Nat) : Prop where
  node : ∀ ctx, Yields (readNode fuel ctx) Node.Sound
  unless_ : ∀ ctx stops line, Yields (readUnless fuel ctx stops line) Node.Sound
  blockItems : Yields (readBlockItems fuel) SoundItems
  indentless : Yields (readIndentless fuel) SoundItems
  blockEntries : Yields (readBlockEntries fuel) fun x => SoundEntries x.1
  blockValue : Yields (readBlockValue fuel) Node.Sound
  flowItems : ∀ first, Yields (readFlowItems fuel first) fun x => SoundItems x.1
  pairKey : Yields (readPairKey fuel) Node.Sound
  flowValue : ∀ stops, Yields (readFlowValue fuel stops) Node.Sound
  flowEntries : ∀ first, Yields (readFlowEntries fuel first) fun x => SoundEntries x.1

namespace SoundWith

variable {fuel : Nat}

theorem zero : SoundWith 0 := by
  refine ⟨?_, ?_, ?_, ?_, ?_, ?_, ?_, ?_, ?_, ?_⟩ <;>
    first
      | exact Yields.fail
      | exact fun _ => Yields.fail
      | exact fun _ _ _ => Yields.fail

theorem node_succ (h : SoundWith fuel) (ctx : Context) :
    Yields (readNode (fuel + 1) ctx) Node.Sound := by
  rw [readNode]
  refine Yields.peek.skip fun t => ?_
  split
  · rename_i name _
    refine Yields.remarks.skip fun r => Yields.advance.skip fun _ => ?_
    refine (Yields.target name).bind fun t ht => .pure ?_
    cases t with
    | none => trivial
    | some t => exact ⟨(ht t rfl).2, (ht t rfl).1⟩
  · refine yields_properties.skip fun p => Yields.peek.skip fun t => ?_
    split
    · refine .ite (.named ?_) (yields_emptyOr _ _)
      exact h.indentless.bind fun xs hxs => .pure ⟨⟨trivial, hxs⟩, rfl⟩
    · refine .named (Yields.remarks.skip fun r => Yields.advance.skip fun _ => .pure ⟨?_, rfl⟩)
      exact headOf_tag_ne (scalarTag_ne _ _)
    · refine .named (Yields.remarks.skip fun r => Yields.advance.skip fun _ => ?_)
      exact (h.flowItems true).bind fun x hx => .pure ⟨⟨trivial, hx⟩, rfl⟩
    · refine .named (Yields.remarks.skip fun r => Yields.advance.skip fun _ => ?_)
      exact (h.flowEntries true).bind fun x hx =>
        .pure ⟨⟨trivial, sound_settleFeet false true hx⟩, rfl⟩
    · refine .ite (yields_emptyOr _ _) (.named ?_)
      refine Yields.stem.skip fun r => Yields.advance.skip fun _ => ?_
      exact h.blockItems.bind fun xs hxs => .pure ⟨⟨trivial, hxs⟩, rfl⟩
    · refine .ite (yields_emptyOr _ _) (.named ?_)
      refine Yields.stem.skip fun r => Yields.advance.skip fun _ => ?_
      exact h.blockEntries.bind fun x hx => .pure (sound_blockMapping hx)
    · exact yields_emptyOr _ _

theorem unless_succ (h : SoundWith fuel) (ctx : Context) (stops : List Tok) (line : Nat) :
    Yields (readUnless (fuel + 1) ctx stops line) Node.Sound := by
  rw [readUnless]
  exact (Yields.nextIn stops).skip fun _ => .ite (.pure (sound_emptyScalar line)) (h.node ctx)

theorem blockItems_succ (h : SoundWith fuel) : Yields (readBlockItems (fuel + 1)) SoundItems := by
  rw [readBlockItems]
  refine Yields.peek.skip fun t => ?_
  split
  · refine Yields.skipDash.skip fun _ => (h.unless_ _ _ _).bind fun n hn => ?_
    exact h.blockItems.bind fun ns hns => .pure ⟨hn, hns⟩
  · exact Yields.advance.skip fun _ => .pure trivial
  · exact .fail

theorem indentless_succ (h : SoundWith fuel) :
    Yields (readIndentless (fuel + 1)) SoundItems := by
  rw [readIndentless]
  refine Yields.peek.skip fun t => ?_
  split
  · refine Yields.skipDash.skip fun _ => (h.unless_ _ _ _).bind fun n hn => ?_
    exact h.indentless.bind fun ns hns => .pure ⟨hn, hns⟩
  · exact .pure trivial

theorem blockEntries_succ (h : SoundWith fuel) :
    Yields (readBlockEntries (fuel + 1)) fun x => SoundEntries x.1 := by
  rw [readBlockEntries]
  refine Yields.peek.skip fun t => ?_
  split
  · refine Yields.advance.skip fun _ => (h.unless_ _ _ _).bind fun k hk => ?_
    refine h.blockValue.bind fun v hv => h.blockEntries.bind fun x hx => ?_
    exact .pure ⟨⟨hk, hv⟩, hx⟩
  · exact Yields.remarks.skip fun _ => Yields.advance.skip fun _ => .pure trivial
  · exact .fail

theorem blockValue_succ (h : SoundWith fuel) :
    Yields (readBlockValue (fuel + 1)) Node.Sound := by
  rw [readBlockValue]
  refine Yields.peek.skip fun t => .ite ?_ (.pure (sound_emptyScalar _))
  exact Yields.advance.skip fun _ => h.unless_ _ _ _

/-- In a flow collection every entry but the first follows a comma. -/
theorem comma (first : Bool) {next : Unit → Reading α} {Q : α → Prop}
    (h : ∀ u, Yields (next u) Q) :
    Yields (if !first then do
        if ← nextIn [.flowEntry] then do
          let u ← skip
          next u
        else do
          let u ← fail
          next u
      else next ()) Q := by
  refine .ite ((Yields.nextIn _).skip fun _ => .ite ?_ ?_) (h ())
  · exact Yields.advance.skip h
  · exact Yields.fail.skip h

theorem flowItems_succ (h : SoundWith fuel) (first : Bool) :
    Yields (readFlowItems (fuel + 1) first) fun x => SoundItems x.1 := by
  rw [readFlowItems]
  refine (Yields.nextIn _).skip fun _ => .ite ?_ (comma first fun _ => ?_)
  · exact yields_closing.skip fun _ => .pure trivial
  refine Yields.peek.skip fun t => ?_
  split
  · exact yields_closing.skip fun _ => .pure trivial
  · refine Yields.advance.skip fun _ => h.pairKey.bind fun k hk => ?_
    refine (h.flowValue _).bind fun v hv => (h.flowItems false).bind fun x hx => .pure ⟨?_, hx⟩
    exact ⟨trivial, sound_settleFeet false true (soundEntries_cons.mpr ⟨⟨hk, hv⟩, trivial⟩)⟩
  · refine (h.node _).bind fun n hn => ?_
    exact (h.flowItems false).bind fun x hx => .pure ⟨hn, hx⟩

theorem pairKey_succ (h : SoundWith fuel) : Yields (readPairKey (fuel + 1)) Node.Sound := by
  rw [readPairKey]
  refine Yields.peek.skip fun t => (Yields.nextIn _).skip fun _ => .ite ?_ (h.node _)
  exact Yields.advance.skip fun _ => .pure (sound_emptyScalar _)

theorem flowValue_succ (h : SoundWith fuel) (stops : List Tok) :
    Yields (readFlowValue (fuel + 1) stops) Node.Sound := by
  rw [readFlowValue]
  refine Yields.peek.skip fun t => .ite ?_ (.pure (sound_emptyScalar _))
  exact Yields.advance.skip fun _ => h.unless_ _ _ _

theorem flowEntries_succ (h : SoundWith fuel) (first : Bool) :
    Yields (readFlowEntries (fuel + 1) first) fun x => SoundEntries x.1 := by
  rw [readFlowEntries]
  refine (Yields.nextIn _).skip fun _ => .ite ?_ (comma first fun _ => ?_)
  · exact yields_closing.skip fun _ => .pure trivial
  refine Yields.peek.skip fun t => ?_
  split
  · exact yields_closing.skip fun _ => .pure trivial
  · refine Yields.advance.skip fun _ => (h.unless_ _ _ _).bind fun k hk => ?_
    refine (h.flowValue _).bind fun v hv => (h.flowEntries false).bind fun x hx => ?_
    exact .pure ⟨⟨hk, hv⟩, hx⟩
  · refine (h.node _).bind fun k hk => (h.flowEntries false).bind fun x hx => ?_
    exact .pure ⟨⟨hk, sound_emptyScalar _⟩, hx⟩

theorem succ (h : SoundWith fuel) : SoundWith (fuel + 1) where
  node := h.node_succ
  unless_ := h.unless_succ
  blockItems := h.blockItems_succ
  indentless := h.indentless_succ
  blockEntries := h.blockEntries_succ
  blockValue := h.blockValue_succ
  flowItems := h.flowItems_succ
  pairKey := h.pairKey_succ
  flowValue := h.flowValue_succ
  flowEntries := h.flowEntries_succ

theorem all : ∀ fuel : Nat, SoundWith fuel
  | 0 => zero
  | fuel + 1 => (all fuel).succ

end SoundWith

/-! ## 5. Documents -/

theorem yields_directives : ∀ (fuel : Nat) (versioned : Bool) (handles : List (String × String)),
    Yields (readDirectives fuel versioned handles) fun _ => True
  | 0, _, _ => .fail
  | fuel + 1, versioned, handles => by
      rw [readDirectives]
      refine Yields.peek.skip fun t => ?_
      split
      · refine .ite (Yields.fail.skip fun _ => ?_) ?_
        all_goals exact Yields.advance.skip fun _ => yields_directives fuel _ _
      · refine .ite (Yields.fail.skip fun _ => ?_) ?_
        all_goals exact Yields.advance.skip fun _ => yields_directives fuel _ _
      · exact Yields.modify fun _ => rfl

/-- What a stream comes to, if it holds a document. -/
def SoundRoot (n : Option Node) : Prop := ∀ m, n = some m → m.Sound

theorem soundRoot_none : SoundRoot none := fun _ h => nomatch h

theorem soundRoot_some {n : Node} (h : n.Sound) : SoundRoot (some n) := by
  rintro _ ⟨⟩
  exact h

theorem yields_root (fuel : Nat) : Yields (readRoot fuel) SoundRoot := by
  refine ((SoundWith.all fuel).node .block).bind fun n hn => ?_
  exact (Yields.peek.skip fun _ => .pure trivial).skip fun _ => .pure (soundRoot_some hn)

/-- What follows the directives of a document: the mark of its start, and its root. -/
theorem yields_directed (fuel : Nat) {rest : Token → Reading (Option Node)}
    (h : ∀ t, Yields (rest t) SoundRoot) :
    Yields (do
      readDirectives fuel false []
      if !(← nextIn [.documentStart]) then do
        let u ← fail
        (fun _ : Unit => do skip; rest (← peek)) u
      else (fun _ : Unit => do skip; rest (← peek)) ()) SoundRoot := by
  have hnext : Yields (do skip; rest (← peek)) SoundRoot :=
    Yields.advance.skip fun _ => Yields.peek.skip h
  refine (yields_directives _ _ _).skip fun _ => (Yields.nextIn _).skip fun _ => .ite ?_ hnext
  exact Yields.fail.skip fun _ => hnext

theorem yields_stream (fuel : Nat) : Yields (readStream fuel) SoundRoot := by
  have hpeek : Yields (discard peek) fun _ => True := Yields.peek.skip fun _ => .pure trivial
  have hempty (c : Bool) (line : Nat) :
      Yields (if c then return some (emptyScalar line) else readRoot fuel) SoundRoot :=
    .ite (.pure (soundRoot_some (sound_emptyScalar line))) (yields_root fuel)
  unfold readStream
  refine hpeek.skip fun _ => Yields.advance.skip fun _ => Yields.peek.skip fun t => ?_
  split
  · exact .pure soundRoot_none
  · exact yields_directed fuel fun t => hempty _ t.line
  · exact yields_directed fuel fun t => hempty _ t.line
  · exact yields_directed fuel fun t => hempty _ t.line
  · refine (yields_directives _ _ _).skip fun _ => ?_
    refine .skip (.modify ?_) fun _ => yields_root fuel
    exact fun _ => rfl

theorem soundRoot_of_run {fuel : Nat} {start : Progress} (hstart : start.Sound)
    {root : Option Node} {p : Progress} (h : (readStream fuel).run start = some (root, p)) :
    SoundRoot root := (yields_stream fuel start root p hstart h).2

/-- **The nodes of documents are sound.** -/
theorem sound_of_readDocument {bytes : ByteArray} {n : Node}
    (h : readDocument bytes = .ok (some n)) : n.Sound := by
  have hstart (s : Scanner) (budget : Nat) :
      Progress.Sound ⟨s, budget, [], 0, [], .none, ""⟩ := fun b hb => nomatch hb
  unfold readDocument at h
  extract_lets cells budget start at h
  split at h
  · rename_i root p hres
    cases h
    exact soundRoot_of_run (hstart _ _) hres n rfl
  · cases h

end DocAudit.Yaml
