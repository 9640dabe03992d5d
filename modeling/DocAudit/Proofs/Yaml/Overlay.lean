import DocAudit.Proofs.Yaml.Intake
import Mathlib.Data.List.Forall2
import Mathlib.Data.List.Nodup
import Mathlib.Data.List.Pairwise

/-!
# What a document changes

A document is decoded over a value that is there.  The value is seen as the leaves that it is made
of: a document that does not get to the path of a leaf leaves it as it is, and what stands at the
path says what becomes of it.

* `Leaf`: a leaf with its path, and `Leaf.Follows`: what a document makes of it;
* `scalarChange`, `listChange`, `optionChange`, `dictChange`: the kinds of leaves;
* `follows_record`: the leaves of a record follow a document if those of its fields do.

No mapping merges another one in here.
-/

namespace DocAudit.Yaml

variable {α β R : Type}

/-! ## 1. Leaves -/

/-- **A leaf of a value**: the path of keys under which a document sets it, how it is had from the
value, and what a node at the path changes. -/
structure Leaf (R : Type) where
  Value : Type
  path : List String
  get : R → Value
  /-- How the value before and the value after go with what stands at the path. -/
  change : Spot → Value → Value → Prop

namespace Leaf

/-- What a document at a spot makes of a leaf: nothing if it does not get to the path. -/
def Follows (l : Leaf R) (s : Spot) (old new : R) : Prop :=
  match s.at? l.path with
  | none => l.get new = l.get old
  | some t => l.change t (l.get old) (l.get new)

/-- A value that is a leaf as a whole. -/
def whole (change : Spot → α → α → Prop) : Leaf α := ⟨α, [], id, change⟩

/-- A leaf of a field is a leaf of the record. -/
def within (key : String) (get : R → α) (l : Leaf α) : Leaf R :=
  ⟨l.Value, key :: l.path, fun r => l.get (get r), l.change⟩

/-- All leaves follow a document. -/
def AllFollow (ls : List (Leaf R)) (s : Spot) (old new : R) : Prop :=
  ∀ l ∈ ls, l.Follows s old new

/-- Values whose leaves are equal are equal. -/
def Full (ls : List (Leaf R)) : Prop := ∀ a b : R, (∀ l ∈ ls, l.get a = l.get b) → a = b

theorem full_whole (change : Spot → α → α → Prop) : Full [whole change] :=
  fun _ _ h => h _ (List.mem_singleton.mpr rfl)

end Leaf

/-- Null leaves a scalar as it was, and any other scalar replaces it. -/
def scalarChange (accept : Value → String → Option α) (s : Spot) (old new : α) : Prop :=
  if s.isNull then new = old else s.read? accept = some new

/-- Null clears a list, and a sequence replaces it: its items in order without those that are null,
each decoded over the same fresh value. -/
def listChange (leaves : List (Leaf α)) (fresh : α) (s : Spot) (_ new : List α) : Prop :=
  if s.isNull then new = []
  else List.Forall₂ (fun t a => Leaf.AllFollow leaves t fresh a)
    (s.items.filter fun t => !t.isNull) new

/-- Null clears an optional value, and anything else is decoded over the one that was there. -/
def optionChange (leaves : List (Leaf α)) (fresh : α) (s : Spot) (old new : Option α) : Prop :=
  if s.isNull then new = none
  else ∃ a, new = some a ∧ Leaf.AllFollow leaves s (old.getD fresh) a

/-- A dictionary after an entry.  One with a null key does not count, and one with a null value
counts only if its key is not there yet, or if the dictionary was made for these entries. -/
def enter [BEq α] (key : Spot → Option α) (value : Spot → Option β) (fresh : β) (made : Bool)
    (d : List (α × β)) (e : Spot × Spot) : List (α × β) :=
  match key e.1 with
  | none => d
  | some a =>
    match value e.2 with
    | some b => setEntry a b d
    | none => if made || !(d.any fun e => e.1 == a) then setEntry a fresh d else d

/-- Null clears a dictionary, and a mapping updates it entry by entry. -/
def dictChange [BEq α] (key : Spot → Option α) (value : Spot → Option β) (fresh : β) (s : Spot)
    (old new : List (α × β)) : Prop :=
  if s.isNull then new = []
  else new = s.entries.foldl (enter key value fresh old.isEmpty) old

/-! ## 2. Slots -/

/-- What a node of a document without merged mappings is by itself, if it is sound. -/
def Node.Plain (n : Node) : Prop := n.Regular ∧ n.Unmerged

/-- **What a slot decodes follows the document**, leaf by leaf. -/
def Slot.Follows (slot : Slot α) (leaves : List (Leaf α)) : Prop :=
  ∀ (s : Spot) (old : α), s.Good Node.Plain →
    Ensures s.inner (slot s.node old) fun x => Leaf.AllFollow leaves s old x.1

/-- A slot gives a value for every node but null. -/
def Slot.Tells (slot : Slot α) : Prop :=
  ∀ (s : Spot) (old : α), s.Good Node.Plain →
    Ensures s.inner (slot s.node old) fun x => x.2 = !s.isNull

variable {slot elem : Slot α} {leaves : List (Leaf α)} {around : List Node} {n : Node} {old : α}

/-- What a slot ensures at every spot, it ensures of every node that it decodes. -/
theorem ensures_decode {Q : Spot → α × Bool → Prop} (hn : n.Throughout Node.Plain)
    (haround : Open Node.Plain around)
    (h : ∀ s : Spot, s.Good Node.Plain → Ensures s.inner (slot s.node old) (Q s)) :
    Ensures around (slot.decode n old) (Q (.of around n)) :=
  .decode (fun _ h => h.1) hn haround (h _)

theorem allFollow_whole {change : Spot → α → α → Prop} {s : Spot} {new : α} :
    Leaf.AllFollow [Leaf.whole change] s old new ↔ change s old new := List.forall_mem_singleton

theorem follows_scalar {type : String} {accept : Value → String → Option α} :
    (scalarSlot type accept).Follows [.whole (scalarChange accept)] := by
  intro s old hs
  refine (ensures_scalar type accept hs).mono fun x hx => allFollow_whole.mpr ?_
  unfold scalarChange
  split
  · rename_i hnull
    rw [if_pos hnull] at hx
    rw [hx]
  · rename_i hnull
    rw [if_neg hnull] at hx
    exact hx.1

theorem tells_scalar {type : String} {accept : Value → String → Option α} :
    (scalarSlot type accept).Tells := by
  intro s old hs
  refine (ensures_scalar type accept hs).mono fun x hx => ?_
  split at hx
  · rename_i hnull
    rw [hx, hnull]
    rfl
  · rename_i hnull
    simp [hx.2, hnull]

/-- The items of a list that are not null, in order. -/
theorem ensures_items (h : elem.Follows leaves) (ht : elem.Tells) {fresh : α}
    (haround : Open Node.Plain around) : ∀ {xs : List Node}, (∀ x ∈ xs, x.Throughout Node.Plain) →
      Ensures around (itemsOf elem fresh xs) fun as =>
        List.Forall₂ (fun t a => Leaf.AllFollow leaves t fresh a)
          ((xs.map (Spot.of around)).filter fun t => !t.isNull) as
  | [], _ => .pure .nil
  | x :: xs, hxs => by
      rw [List.forall_mem_cons] at hxs
      have helem : Ensures around (elem.decode x fresh) fun a =>
          Leaf.AllFollow leaves (.of around x) fresh a.1 ∧ a.2 = !(Spot.of around x).isNull :=
        (ensures_decode hxs.1 haround (h · fresh)).and (ensures_decode hxs.1 haround (ht · fresh))
      refine helem.bind fun a => (ensures_items h ht haround hxs.2).bind fun as => .pure ?_
      rintro has ⟨ha, htells⟩
      rw [List.map_cons, List.filter_cons, htells]
      split
      · exact .cons ha has
      · exact has

theorem follows_list {type : String} {fresh : α} (h : elem.Follows leaves) (ht : elem.Tells) :
    (listSlot type elem fresh).Follows [.whole (listChange leaves fresh)] := by
  intro ⟨n, around⟩ old hs
  refine Ensures.mono ?_ fun x => allFollow_whole.mpr
  obtain ⟨hd, style, v, rfl⟩ | ⟨hd, flow, xs, rfl⟩ | ⟨hd, flow, es, rfl⟩ :=
    Node.forms_of_plain hs.plain
  · refine Ensures.scalarValue.bind fun x => ?_
    split
    · refine .pure fun hx => ?_
      simp [listChange, Spot.isNull, Spot.value?, hx]
    · exact .mismatch (n := .scalar hd style v) rfl
  · have hxs := itemsThroughout_iff.mp hs.node.2
    exact (ensures_items h ht (hs.inner rfl) hxs).bind fun as => .pure fun has => has
  · exact .mismatch (n := .map hd flow es) rfl

/-- Where a run without faults has read a value, null by the tag is null by the value. -/
theorem isNull_scalar {hd : Head} {style : ScalarStyle} {v : String} {x : Value}
    (hs : Spot.Good Node.Plain ⟨.scalar hd style v, around⟩)
    (hx : scalarValue? hd style v = some x) :
    Spot.isNull ⟨.scalar hd style v, around⟩ = (Node.scalar hd style v).isNull := by
  have hiff := null_iff_tag hs.node.1 hx
  rw [Bool.eq_iff_iff]
  simp [Spot.isNull, Spot.value?, Node.isNull, Node.tag, hx, hiff]

/-- What is null by its value is null by its tag. -/
theorem not_isNull {s : Spot} (hs : s.Good Node.Plain) (h : s.node.isNull = false) :
    s.isNull = false := by
  obtain ⟨n, around⟩ := s
  obtain ⟨hd, style, v, rfl⟩ | ⟨hd, flow, xs, rfl⟩ | ⟨hd, flow, es, rfl⟩ :=
    Node.forms_of_plain hs.plain
  · cases hx : scalarValue? hd style v with
    | none => simp [Spot.isNull, Spot.value?, hx]
    | some x =>
      rw [isNull_scalar hs hx]
      exact h
  · rfl
  · rfl

theorem follows_option {type : String} {fresh : α} (h : slot.Follows leaves) :
    (optionSlot type slot fresh).Follows [.whole (optionChange leaves fresh)] := by
  intro s old hs
  refine Ensures.mono ?_ fun x => allFollow_whole.mpr
  unfold optionSlot
  refine .ite (fun hnull => ?_) fun hnull => ?_
  · obtain ⟨n, around⟩ := s
    obtain ⟨hd, style, v, rfl⟩ | ⟨hd, flow, xs, rfl⟩ | ⟨hd, flow, es, rfl⟩ :=
      Node.forms_of_plain hs.plain
    · refine Ensures.scalarValue.bind fun x => .pure fun hx => ?_
      have hspot := isNull_scalar hs hx
      rw [hnull] at hspot
      simp [optionChange, hspot]
    · exact .mismatch (n := .seq hd flow xs) rfl
    · exact .mismatch (n := .map hd flow es) rfl
  · have hspot := not_isNull hs (by simpa using hnull)
    refine (h s (old.getD fresh) hs).bind fun x => .pure fun hx => ?_
    unfold optionChange
    rw [hspot]
    exact ⟨x.1, rfl, hx⟩

/-! ## 3. Records -/

/-- A slot with the leaves of what it decodes: they are all of it, and each follows the document. -/
structure Piece (α : Type) where
  slot : Slot α
  leaves : List (Leaf α)
  full : Leaf.Full leaves
  follows : slot.Follows leaves

/-- **A field of a record**: what is set is what is had afterwards. -/
structure RecordPart (R : Type) where
  key : String
  Value : Type
  piece : Piece Value
  get : R → Value
  set : R → Value → R
  get_set : ∀ (r : R) (a : Value), get (set r a) = a

/-- The field under a key, with the piece that its value is. -/
def part (key : String) (piece : Piece α) (get : R → α) (set : R → α → R)
    (h : ∀ (r : R) (a : α), get (set r a) = a := by exact fun _ _ => rfl) : RecordPart R :=
  ⟨key, α, piece, get, set, h⟩

namespace RecordPart

/-- The field of a record that a part is. -/
def toField (p : RecordPart R) : FieldSlot R := field p.key p.piece.slot p.get p.set

/-- The leaves of a part, as leaves of the record. -/
def leavesWithin (p : RecordPart R) : List (Leaf R) := p.piece.leaves.map (Leaf.within p.key p.get)

/-- Setting either of two parts leaves the other as it was. -/
def Apart (p q : RecordPart R) : Prop :=
  (∀ (r : R) (a : p.Value), q.get (p.set r a) = q.get r) ∧
    ∀ (r : R) (b : q.Value), p.get (q.set r b) = p.get r

/-- What becomes of a part: it stays without an entry, and follows the entry that there is. -/
def Follows (p : RecordPart R) (found : Option Spot) (old new : R) : Prop :=
  match found with
  | none => p.get new = p.get old
  | some v => Leaf.AllFollow p.piece.leaves v (p.get old) (p.get new)

/-- The leaves of all parts of a record. -/
def allLeaves (ps : List (RecordPart R)) : List (Leaf R) := ps.flatMap leavesWithin

variable {p q : RecordPart R} {ps : List (RecordPart R)}

theorem follows_within {s : Spot} {old new : R} (h : p.Follows (s.under? p.key) old new) :
    Leaf.AllFollow p.leavesWithin s old new := by
  intro l hl
  obtain ⟨l, hmem, rfl⟩ := List.mem_map.mp hl
  unfold RecordPart.Follows at h
  unfold Leaf.Follows
  simp only [Leaf.within, Spot.at?]
  cases hfound : s.under? p.key with
  | none =>
    rw [hfound] at h
    exact congrArg l.get h
  | some v =>
    rw [hfound] at h
    exact h l hmem

theorem mem_allLeaves {l : Leaf p.Value} (hp : p ∈ ps) (hl : l ∈ p.piece.leaves) :
    l.within p.key p.get ∈ allLeaves ps :=
  List.mem_flatMap.mpr ⟨p, hp, List.mem_map.mpr ⟨l, hl, rfl⟩⟩

/-- A scalar has no entries, so every leaf of a record stays. -/
theorem follows_scalar {hd : Head} {style : ScalarStyle} {v : String} {around : List Node} {r : R} :
    Leaf.AllFollow (allLeaves ps) ⟨.scalar hd style v, around⟩ r r := by
  intro l hl
  obtain ⟨p, -, hl⟩ := List.mem_flatMap.mp hl
  exact p.follows_within (s := ⟨.scalar hd style v, around⟩) rfl l hl

/-- Leaves that tell the values of every part tell the record. -/
theorem full_allLeaves (hps : ∀ a b : R, (∀ p ∈ ps, p.get a = p.get b) → a = b) :
    Leaf.Full (allLeaves ps) := by
  intro a b h
  exact hps a b fun p hp => p.piece.full _ _ fun l hl => h _ (mem_allLeaves hp hl)

theorem apart_symm (h : Apart p q) : Apart q p := ⟨h.2, h.1⟩

theorem apart_of_key_ne (hapart : ps.Pairwise Apart) (hp : p ∈ ps) (hq : q ∈ ps)
    (hne : p.key ≠ q.key) : Apart p q := by
  have hsymm : Std.Symm (Apart (R := R)) := ⟨fun _ _ => apart_symm⟩
  exact hapart.forall hp hq fun heq => hne (heq ▸ rfl)

/-- What an entry of a record does: it sets the part under its word, which was not set before. -/
def Enters (ps : List (RecordPart R)) (w : String) (v : Spot) (s t : R × List String) : Prop :=
  w ∉ s.2 ∧ t.2 = w :: s.2 ∧ ∃ p ∈ ps, p.key = w ∧ ∃ a,
    Leaf.AllFollow p.piece.leaves v (p.get s.1) a ∧ t.1 = p.set s.1 a

variable {w : String} {v : Spot} {s t : R × List String}

/-- The part under the word of an entry follows the value of the entry. -/
theorem Enters.follows (h : Enters ps w v s t) (hkeys : (ps.map key).Nodup) (hp : p ∈ ps)
    (hw : p.key = w) : Leaf.AllFollow p.piece.leaves v (p.get s.1) (p.get t.1) := by
  obtain ⟨-, -, q, hq, hqkey, a, hfollow, htaken⟩ := h
  have hsame : q = p := List.inj_on_of_nodup_map hkeys hq hp (hqkey.trans hw.symm)
  subst hsame
  rw [htaken, q.get_set]
  exact hfollow

/-- The other parts stay. -/
theorem Enters.stays (h : Enters ps w v s t) (hapart : ps.Pairwise Apart) (hp : p ∈ ps)
    (hw : p.key ≠ w) : p.get t.1 = p.get s.1 := by
  obtain ⟨-, -, q, hq, hqkey, a, -, htaken⟩ := h
  rw [htaken]
  exact (apart_of_key_ne hapart hp hq fun heq => hw (heq.trans hqkey)).2 s.1 a

end RecordPart

/-- The value of the first entry under a word. -/
def underIn (around : List Node) (es : List (Node × Node)) (w : String) : Option Spot :=
  ((Spot.pairs around es).find? fun e => e.1.word? == some w).map (·.2)

theorem underIn_cons {k v : Node} {es : List (Node × Node)} {w : String} :
    underIn around ((k, v) :: es) w =
      if (Spot.of around k).word? = some w then some (.of around v) else underIn around es w := by
  unfold underIn Spot.pairs
  rw [List.map_cons]
  by_cases h : (Spot.of around k).word? = some w
  · rw [List.find?_cons_of_pos (by simp [h]), if_pos h, Option.map_some]
  · rw [List.find?_cons_of_neg (by simp [h]), if_neg h]

open RecordPart in
/-- Every part follows the first entry under its key, unless it was set before. -/
theorem follows_of_owns {ps : List (RecordPart R)} (hkeys : (ps.map RecordPart.key).Nodup)
    (hapart : ps.Pairwise RecordPart.Apart) {es : List (Node × Node)}
    {set : Option (List String)} {s : R × List String}
    {x : Option (List String) × (R × List String)}
    (h : Intake.Owns around (fun k o => o = k.word?) (fun w _ => Enters ps w) es set s x)
    (hset : set = none) (hmerge : ∀ e ∈ es, e.1.isMerge = false) :
    ∀ p ∈ ps, (p.key ∈ s.2 → p.get x.2.1 = p.get s.1) ∧
      (p.key ∉ s.2 → p.Follows (underIn around es p.key) s.1 x.2.1) := by
  induction h with
  | nil => exact fun p _ => ⟨fun _ => rfl, fun _ => rfl⟩
  | merge hk =>
    rw [List.forall_mem_cons] at hmerge
    rw [hmerge.1] at hk
    cases hk
  | held _ _ hheld =>
    subst hset
    cases hheld
  | skip _ hkey _ ih =>
    intro p hp
    rw [List.forall_mem_cons] at hmerge
    rw [underIn_cons, ← hkey, if_neg (by simp)]
    exact ih hset hmerge.2 p hp
  | @take k v w es set s t x _ hkey _ hentry _ ih =>
    intro p hp
    subst hset
    rw [List.forall_mem_cons] at hmerge
    have hnew : w ∉ s.2 := hentry.1
    have hdone : t.2 = w :: s.2 := hentry.2.1
    obtain ⟨hkeep, hrest⟩ := ih rfl hmerge.2 p hp
    rw [underIn_cons, ← hkey]
    rw [hdone] at hkeep hrest
    by_cases hword : p.key = w
    · refine ⟨fun hin => absurd (hword ▸ hin) hnew, fun _ => ?_⟩
      rw [if_pos (congrArg some hword.symm)]
      change Leaf.AllFollow p.piece.leaves (.of around v) (p.get s.1) (p.get x.2.1)
      rw [hkeep (hword ▸ List.mem_cons_self)]
      exact hentry.follows hkeys hp hword
    · have hstay : p.get t.1 = p.get s.1 := hentry.stays hapart hp hword
      rw [if_neg fun heq => hword (Option.some.inj heq).symm]
      refine ⟨fun hin => ?_, fun hnot => ?_⟩
      · rw [hkeep (List.mem_cons_of_mem _ hin), hstay]
      · have hnot' : p.key ∉ w :: s.2 := by
          rw [List.mem_cons, not_or]
          exact ⟨hword, hnot⟩
        have hfollows := hrest hnot'
        unfold RecordPart.Follows at hfollows ⊢
        rw [hstay] at hfollows
        exact hfollows

/-- A field sets its part to a value that follows what stands there. -/
theorem ensures_toField (p : RecordPart R) {v : Node} {r : R} (haround : Open Node.Plain around)
    (hv : v.Throughout Node.Plain) :
    Ensures around (p.toField.decode v r) fun r' =>
      ∃ a, Leaf.AllFollow p.piece.leaves (.of around v) (p.get r) a ∧ r' = p.set r a :=
  (ensures_decode hv haround (p.piece.follows · (p.get r))).bind fun x =>
    .pure fun hx => ⟨x.1, hx, rfl⟩

/-- The intake of a record of parts. -/
theorem ensuring_record {type : String} {ps : List (RecordPart R)} :
    (recordIntake true type (ps.map RecordPart.toField)).Ensuring Node.Plain
      (fun k o => o = k.word?) fun w _ => RecordPart.Enters ps w := by
  refine ⟨fun around merged k haround hk => ?_, fun around w k v s haround _ hv => ?_⟩
  · exact (ensures_word (fun _ h => h.1) haround hk).bind fun x => .pure fun hx => hx
  · obtain ⟨r, done⟩ := s
    simp only [recordIntake]
    split
    · rename_i f hf
      obtain ⟨p, hp, rfl⟩ := List.mem_map.mp (List.mem_of_find?_eq_some hf)
      have hkey : p.toField.key = w := by simpa using List.find?_some hf
      refine .ite (fun _ => ?_) fun hnew => ?_
      · exact (Ensures.report (R := fun _ => False)).bind fun _ => .pure False.elim
      · refine (ensures_toField p haround hv).bind fun r' => .pure fun hleft => ?_
        obtain ⟨a, ha, hr'⟩ := hleft
        exact ⟨by simpa using hnew, rfl, p, hp, hkey, a, ha, hr'⟩
    · exact (Ensures.report (R := fun _ => False)).bind fun _ => .pure False.elim

theorem follows_record {type : String} {ps : List (RecordPart R)}
    (hkeys : (ps.map RecordPart.key).Nodup) (hapart : ps.Pairwise RecordPart.Apart) :
    (recordSlot true type (ps.map RecordPart.toField)).Follows (RecordPart.allLeaves ps) := by
  intro ⟨n, around⟩ old hs
  obtain ⟨hd, style, v, rfl⟩ | ⟨hd, flow, xs, rfl⟩ | ⟨hd, flow, es, rfl⟩ :=
    Node.forms_of_plain hs.plain
  · refine Ensures.scalarValue.bind fun x => ?_
    split
    · exact .pure fun _ => RecordPart.follows_scalar
    · exact .mismatch (n := .scalar hd style v) rfl
  · exact .mismatch (n := .seq hd flow xs) rfl
  · have hes := entriesThroughout_iff.mp hs.node.2
    have hmerge : ∀ e ∈ es, e.1.isMerge = false := hs.node.1.2
    refine (ensures_take ensuring_record (hs.inner rfl) hes hmerge).bind fun x => .pure ?_
    rintro ⟨hx, -⟩ l hl
    obtain ⟨p, hp, hl⟩ := List.mem_flatMap.mp hl
    have hpart := (follows_of_owns hkeys hapart hx rfl hmerge p hp).2 (by simp [recordIntake])
    exact p.follows_within (s := ⟨.map hd flow es, around⟩) hpart l hl

theorem tells_record {type : String} {ps : List (RecordPart R)} :
    (recordSlot true type (ps.map RecordPart.toField)).Tells := by
  intro ⟨n, around⟩ old hs
  obtain ⟨hd, style, v, rfl⟩ | ⟨hd, flow, xs, rfl⟩ | ⟨hd, flow, es, rfl⟩ :=
    Node.forms_of_plain hs.plain
  · refine Ensures.scalarValue.bind fun x => ?_
    split
    · refine .pure fun hx => ?_
      simp [Spot.isNull, Spot.value?, hx]
    · exact .mismatch (n := .scalar hd style v) rfl
  · exact .mismatch (n := .seq hd flow xs) rfl
  · have hes := entriesThroughout_iff.mp hs.node.2
    refine (ensures_take ensuring_record (hs.inner rfl) hes hs.node.1.2).bind fun x => .pure ?_
    exact fun hx => hx.2

/-! ## 4. Dictionaries -/

section Dictionaries

variable [BEq α] {accept : Value → String → Option α} {acceptValue : Value → String → Option β}
  {keyType valueType : String} {freshKey : α} {fresh : β}

/-- Null at a spot is null by the node that stands there in the document: an alias without a target
stands for a collection. -/
theorem isNull_of_spot (haround : Open Node.Plain around) (hs : (Spot.of around n).Good Node.Plain)
    (h : (Spot.of around n).isNull = true) : n.isNull = true := by
  have hnode : (Spot.of around n).node.isNull = true := by
    by_contra hne
    rw [not_isNull hs (Bool.not_eq_true _ ▸ hne)] at h
    cases h
  match n with
  | .scalar _ _ _ => exact hnode
  | .seq _ _ _ => exact hnode
  | .map _ _ _ => exact hnode
  | .alias _ _ (some _) => exact hnode
  | .alias hd name none =>
    cases hfound : around.find? (·.head.anchor == name) with
    | none =>
      simp only [Spot.of, hfound, Option.getD_none] at hs
      cases hs.plain
    | some t =>
      have hcollection := (haround t (List.mem_of_find?_eq_some hfound)).2
      simp only [Spot.of, hfound, Option.getD_some, Spot.isNull, Spot.value?] at h
      split at h
      · cases hcollection
      · cases h

/-- What an entry does to a dictionary. -/
def EntersInto (value : Spot → Option β) (fresh : β) (a : α) (v : Spot)
    (s t : List (α × β) × Bool) : Prop :=
  t = (match value v with
    | some b => setEntry a b s.1
    | none => if s.2 || !(s.1.any fun e => e.1 == a) then setEntry a fresh s.1 else s.1, s.2)

theorem ensuring_dict :
    (dictIntake (scalarSlot keyType accept) freshKey (scalarSlot valueType acceptValue)
      fresh).Ensuring Node.Plain (fun k o => o = k.read? accept)
        fun a _ => EntersInto (Spot.read? acceptValue) fresh a := by
  refine ⟨fun around merged k haround hk => ?_, fun around a k v s haround _ hv => ?_⟩
  · have hread : Ensures around ((scalarSlot keyType accept).decode k freshKey) fun x =>
        (if x.2 then some x.1 else none) = (Spot.of around k).read? accept :=
      .decode (fun _ h => h.1) hk haround ensures_read
    exact hread.bind fun x => .pure fun hx => hx
  · obtain ⟨d, made⟩ := s
    have hvalue : Ensures around ((scalarSlot valueType acceptValue).decode v fresh) fun x =>
        if (Spot.of around v).isNull then x = (fresh, false) ∧ v.isNull = true
        else (Spot.of around v).read? acceptValue = some x.1 ∧ x.2 = true := by
      refine .decode (fun _ h => h.1) hv haround fun hs => ?_
      refine (ensures_scalar valueType acceptValue hs).mono fun x hx => ?_
      split at hx
      · rename_i hnull
        rw [if_pos hnull]
        exact ⟨hx, isNull_of_spot haround hs hnull⟩
      · rename_i hnull
        rw [if_neg hnull]
        exact hx
    refine hvalue.bind fun x => .pure fun hx => ?_
    unfold EntersInto
    split at hx
    · rename_i hnull
      obtain ⟨rfl, hnode⟩ := hx
      rw [Spot.read?_of_isNull hnull, hnode]
      simp only [Bool.false_or, Bool.true_and]
      split <;> rfl
    · rw [hx.1, hx.2]
      rfl

theorem foldl_enter_of_owns {value : Spot → Option β} {key : Spot → Option α}
    {es : List (Node × Node)} {set : Option (List α)} {s : List (α × β) × Bool}
    {x : Option (List α) × (List (α × β) × Bool)}
    (h : Intake.Owns around (fun k o => o = key k) (fun a _ => EntersInto value fresh a) es set s x)
    (hset : set = none) (hmerge : ∀ e ∈ es, e.1.isMerge = false) :
    x.2.1 = (Spot.pairs around es).foldl (enter key value fresh s.2) s.1 := by
  unfold Spot.pairs
  induction h with
  | nil => rfl
  | merge hk =>
    rw [List.forall_mem_cons] at hmerge
    rw [hmerge.1] at hk
    cases hk
  | held _ _ hheld =>
    subst hset
    cases hheld
  | skip _ hkey _ ih =>
    rw [List.forall_mem_cons] at hmerge
    rw [List.map_cons, List.foldl_cons, enter, ← hkey]
    exact ih hset hmerge.2
  | take _ hkey _ hentry _ ih =>
    subst hset
    rw [List.forall_mem_cons] at hmerge
    rw [List.map_cons, List.foldl_cons, enter, ← hkey, ih rfl hmerge.2, hentry]

theorem follows_dict {type : String} :
    (dictSlot type (scalarSlot keyType accept) freshKey (scalarSlot valueType acceptValue)
      fresh).Follows [.whole (dictChange (Spot.read? accept) (Spot.read? acceptValue) fresh)] := by
  intro ⟨n, around⟩ old hs
  refine Ensures.mono ?_ fun x => allFollow_whole.mpr
  obtain ⟨hd, style, v, rfl⟩ | ⟨hd, flow, xs, rfl⟩ | ⟨hd, flow, es, rfl⟩ :=
    Node.forms_of_plain hs.plain
  · refine Ensures.scalarValue.bind fun x => ?_
    split
    · refine .pure fun hx => ?_
      simp [dictChange, Spot.isNull, Spot.value?, hx]
    · exact .mismatch (n := .scalar hd style v) rfl
  · exact .mismatch (n := .seq hd flow xs) rfl
  · have hes := entriesThroughout_iff.mp hs.node.2
    have hmerge : ∀ e ∈ es, e.1.isMerge = false := hs.node.1.2
    refine (ensures_take ensuring_dict (hs.inner rfl) hes hmerge).bind fun x => .pure ?_
    rintro ⟨hx, -⟩
    have hentered := foldl_enter_of_owns hx rfl hmerge
    simpa [dictChange, Spot.isNull, Spot.value?, Spot.entries, dictIntake] using hentered

/-- The value of the last entry under a key that gives one. -/
def written (key : Spot → Option α) (value : Spot → Option β) (es : List (Spot × Spot)) (a : α) :
    Option β :=
  es.reverse.findSome? fun e => if key e.1 == some a then value e.2 else none

end Dictionaries

section Lookup

variable [DecidableEq α] (key : Spot → Option α) (value : Spot → Option β) (fresh : β) (a : α)

/-- An entry gives its key its value; besides, null may enter the fresh one. -/
theorem lookup_enter (d : List (α × β)) (e : Spot × Spot) :
    (enter key value fresh false d e).lookup a =
        (if key e.1 == some a then value e.2 else none).or (d.lookup a) ∨
      (enter key value fresh false d e).lookup a = some fresh := by
  unfold enter
  cases hkey : key e.1 with
  | none => exact .inl (by simp)
  | some j =>
    cases hvalue : value e.2 with
    | some b =>
      simp only [lookup_setEntry]
      by_cases hj : a = j
      · exact .inl (by simp [hj])
      · exact .inl (by simp [hj, Ne.symm hj])
    | none =>
      simp only
      split
      · rw [lookup_setEntry]
        by_cases hj : a = j
        · exact .inr (by simp [hj])
        · exact .inl (by simp [hj])
      · exact .inl (by simp)

/-- **A dictionary that had something before** has the values that the entries give it, and where
they give none those that it had; besides, null may have entered the fresh one. -/
theorem lookup_foldl_enter : ∀ (es : List (Spot × Spot)) (d : List (α × β)),
    (es.foldl (enter key value fresh false) d).lookup a =
        (written key value es a).or (d.lookup a) ∨
      (es.foldl (enter key value fresh false) d).lookup a = some fresh
  | [], d => .inl rfl
  | e :: es, d => by
      have hwritten : written key value (e :: es) a =
          (written key value es a).or (if key e.1 == some a then value e.2 else none) := by
        simp [written, List.findSome?_append]
      rw [List.foldl_cons, hwritten, Option.or_assoc]
      rcases lookup_foldl_enter es (enter key value fresh false d e) with h | h
      · rw [h]
        rcases lookup_enter key value fresh a d e with hentry | hentry
        · exact .inl (by rw [hentry])
        · cases hlater : written key value es a with
          | none => exact .inr (by rw [hentry]; rfl)
          | some b => exact .inl rfl
      · exact .inr h

end Lookup

/-! ## 5. Pieces -/

namespace Piece

/-- A scalar. -/
def scalar (type : String) (accept : Value → String → Option α) : Piece α :=
  ⟨scalarSlot type accept, [.whole (scalarChange accept)], Leaf.full_whole _, follows_scalar⟩

/-- A text with a type of its own. -/
def word (type : String) (mk : String → α) : Piece α :=
  ⟨wordSlot type mk, [.whole (scalarChange (wordOf mk))], Leaf.full_whole _,
    wordSlot_eq type mk ▸ follows_scalar⟩

/-- A list. -/
def list (type : String) (elem : Piece α) (fresh : α) (h : elem.slot.Tells) : Piece (List α) :=
  ⟨listSlot type elem.slot fresh, [.whole (listChange elem.leaves fresh)], Leaf.full_whole _,
    follows_list elem.follows h⟩

/-- An optional value. -/
def optional (type : String) (inner : Piece α) (fresh : α) : Piece (Option α) :=
  ⟨optionSlot type inner.slot fresh, [.whole (optionChange inner.leaves fresh)],
    Leaf.full_whole _, follows_option inner.follows⟩

/-- A dictionary of words. -/
def dict [BEq α] (type keyType : String) (mkKey : String → α) (freshKey : α) (valueType : String)
    (mkValue : String → β) (fresh : β) : Piece (List (α × β)) :=
  ⟨dictSlot type (wordSlot keyType mkKey) freshKey (wordSlot valueType mkValue) fresh,
    [.whole (dictChange (Spot.read? (wordOf mkKey)) (Spot.read? (wordOf mkValue)) fresh)],
    Leaf.full_whole _, by
      rw [wordSlot_eq, wordSlot_eq]
      exact follows_dict⟩

/-- A record. -/
def record (type : String) (parts : List (RecordPart R)) (hkeys : (parts.map RecordPart.key).Nodup)
    (hapart : parts.Pairwise RecordPart.Apart)
    (hfull : ∀ a b : R, (∀ p ∈ parts, p.get a = p.get b) → a = b) : Piece R :=
  ⟨recordSlot true type (parts.map RecordPart.toField), RecordPart.allLeaves parts,
    RecordPart.full_allLeaves hfull,
    follows_record hkeys hapart⟩

theorem tells_word (type : String) (mk : String → α) : (word type mk).slot.Tells := by
  change (wordSlot type mk).Tells
  rw [wordSlot_eq]
  exact tells_scalar

/-- Words of one type. -/
def words (listType type : String) (mk : String → α) (fresh : α) : Piece (List α) :=
  list listType (word type mk) fresh (tells_word type mk)

end Piece

end DocAudit.Yaml
