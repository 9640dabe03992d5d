import DocAudit.Proofs.Source.Forward

/-!
# What is read comes from the tokens

What a reader reads is put together from the tokens it is given.  If all tokens have a property,
then what is read has a property that follows from it, and this can be shown along the steps of the
reader, since readers go forward.

* `Draws Q P m`: given tokens that are all `Q`, the reader `m` reads what is `P`;
* `Yields P m`: what it reads is `P` for any tokens;
* `Established`: the readers of struct and interface types read types with a property, which all
  other types have;
* `eq_of_parse?`: then the declarations of a parsed file have types with that property, and their
  names are those of its tokens.
-/

namespace DocAudit.Source

theorem forall_mem_concat {α : Type} {P : α → Prop} {xs : List α} {x : α} (hxs : ∀ y ∈ xs, P y)
    (hx : P x) : ∀ y ∈ xs ++ [x], P y :=
  List.forall_mem_append.mpr ⟨hxs, List.forall_mem_singleton.mpr hx⟩

namespace Reader

variable {α β : Type} {Q : Item → Prop} {P : α → Prop} {P' : β → Prop} {m m' : Reader α}
  {g : α → Reader β} {body : α → Reader (α × Bool)}

/-! ## 1. Steps of a reader -/

/-- From tokens that all have the property `Q` the reader reads what has the property `P`. -/
def Draws (Q : Item → Prop) (P : α → Prop) (m : Reader α) : Prop :=
  ∀ s a s', (∀ i ∈ s.items, Q i) → m s = some (a, s') → P a

/-- Whatever the reader reads has the property `P`. -/
abbrev Yields (P : α → Prop) (m : Reader α) : Prop := Draws (fun _ => True) P m

/-- The reader leaves tokens that all have the property `Q` if it is given such tokens. -/
class Keeps (Q : Item → Prop) (m : Reader α) : Prop where
  keeps : ∀ {s a s'}, (∀ i ∈ s.items, Q i) → m s = some (a, s') → ∀ i ∈ s'.items, Q i

instance keeps_true : Keeps (fun _ => True) m where
  keeps _ _ _ _ := trivial

instance keeps_of_forward [h : Forward m] : Keeps Q m where
  keeps hs hrun i hi := hs i ((h.suffix hrun).mem hi)

theorem Yields.draws (h : Yields P m) : Draws Q P m := fun s a s' _ hrun =>
  h s a s' (fun _ _ => trivial) hrun

namespace Draws

theorem pure {a : α} (h : P a) : Draws Q P (pure a : Reader α) := by
  intro s a' s' _ hrun
  cases hrun
  exact h

theorem refuse : Draws Q P (Reader.refuse : Reader α) := by
  intro s a s' _ hrun
  cases hrun

theorem any : Draws Q (fun _ => True) m := fun _ _ _ _ _ => trivial

theorem imp {P₁ : α → Prop} (hm : Draws Q P m) (h : ∀ a, P a → P₁ a) : Draws Q P₁ m :=
  fun s a s' hs hrun => h a (hm s a s' hs hrun)

theorem bind [hk : Keeps Q m] (hm : Draws Q P m) (hg : ∀ a, P a → Draws Q P' (g a)) :
    Draws Q P' (m >>= g) := by
  intro s b s' hs hrun
  obtain ⟨⟨a, t⟩, ha, hb⟩ := Option.bind_eq_some_iff.mp hrun
  exact hg a (hm s a t hs ha) t b s' (hk.keeps hs ha) hb

/-- What is read first does not matter. -/
theorem skip [Keeps Q m] (hg : ∀ a, Draws Q P' (g a)) : Draws Q P' (m >>= g) :=
  any.bind fun a _ => hg a

theorem after (hm : Forward m) (hg : ∀ a, Draws Q P' (g a)) : Draws Q P' (m >>= g) := skip hg

theorem map {f : α → β} (hm : Draws Q P m) (hf : ∀ a, P a → P' (f a)) :
    Draws Q P' (f <$> m) := by
  intro s b s' hs hrun
  obtain ⟨⟨a, t⟩, ha, hb⟩ := Option.bind_eq_some_iff.mp hrun
  cases hb
  exact hf a (hm s a _ hs ha)

theorem ite {c : Bool} (h : Draws Q P m) (h' : Draws Q P m') :
    Draws Q P (if c = true then m else m') := by
  split
  · exact h
  · exact h'

theorem rounds [∀ a, Keeps Q (body a)] (hbody : ∀ a, P a → Draws Q (fun x => P x.1) (body a)) :
    ∀ (fuel : Nat) {a : α}, P a → Draws Q P (Reader.rounds body fuel a)
  | 0, _, _ => refuse
  | n + 1, a, ha => by
      rw [Reader.rounds]
      refine (hbody a ha).bind fun x hx => ?_
      obtain ⟨a', more⟩ := x
      exact ite (rounds hbody n hx) (pure hx)

/-- What every round of a repetition keeps. -/
theorem repeated [∀ a, Keeps Q (body a)] {a : α} (ha : P a)
    (hbody : ∀ a, P a → Draws Q (fun x => P x.1) (body a)) :
    Draws Q P (Reader.repeated a body) :=
  skip fun _ => rounds hbody _ ha

/-- Behind the reader nothing is asked of the tokens any more. -/
theorem last (hm : Draws Q P m) (hg : ∀ a, P a → Yields P' (g a)) : Draws Q P' (m >>= g) := by
  intro s b s' hs hrun
  obtain ⟨⟨a, t⟩, ha, hb⟩ := Option.bind_eq_some_iff.mp hrun
  exact hg a (hm s a t hs ha) t b s' (fun _ _ => trivial) hb

theorem measured (hm : Draws Q P m) : Draws Q (fun x => P x.1) (Reader.measured m) := by
  have hnesting (n : Nat) : Forward (modify fun s => { s with nesting := n } : Reader Unit) :=
    .of_modify fun _ => List.suffix_rfl
  refine .skip fun _ => .skip fun _ => hm.last fun a ha => ?_
  exact .skip fun _ => .skip fun _ => .pure ha

theorem inScope (hm : Draws Q P m) : Draws Q P (Reader.inScope m) := by
  refine hm.measured.last fun x hx => ?_
  obtain ⟨a, inner⟩ := x
  exact .skip fun _ => .pure hx

end Draws

end Reader

open Reader

variable {Q : Item → Prop} {P : Expr → Prop} {r : Rules} {lev : Int}

/-! ## 2. Names -/

theorem Ident.letters_ne_nil (n : Ident) : n.text.toList ≠ [] := by
  intro h
  have hvalid := n.valid
  rw [h] at hvalid
  cases hvalid

theorem Ident.text_ne_empty (n : Ident) : n.text ≠ "" := by
  intro h
  exact n.letters_ne_nil (by rw [h]; rfl)

/-- A name is that of a token with the property `Q`, and stands where it stands. -/
def Name.From (Q : Item → Prop) (n : Name) : Prop :=
  ∃ i, Q i ∧ i.tok = .ident n.toIdent ∧ i.pos = n.pos

/-- The token at the front is one of the stream; at its end it stands for the end of the file. -/
theorem eq_of_item {s t : Stream} {i : Item} (h : item s = some (i, t)) :
    t = s ∧ (i.tok = .eof ∨ i ∈ s.items) := by
  obtain ⟨items, nesting⟩ := s
  cases items with
  | nil =>
    cases h
    exact ⟨rfl, .inl rfl⟩
  | cons j js =>
    cases h
    exact ⟨rfl, .inr List.mem_cons_self⟩

theorem ident_eq_some {s t : Stream} {n : Name} (h : ident s = some (n, t)) :
    ∃ i, item s = some (i, s) ∧ i.tok = .ident n.toIdent ∧ i.pos = n.pos := by
  obtain ⟨⟨i, u⟩, hitem, hrun⟩ := Option.bind_eq_some_iff.mp h
  obtain ⟨rfl, -⟩ := eq_of_item hitem
  refine ⟨i, hitem, ?_⟩
  obtain ⟨tok, pos, lead, trail⟩ := i
  cases tok with
  | ident m =>
    cases hrun
    exact ⟨rfl, rfl⟩
  | _ => cases hrun

theorem ident_from : Draws Q (Name.From Q) ident := by
  intro s n t hs h
  obtain ⟨i, hitem, htok, hpos⟩ := ident_eq_some h
  refine ⟨i, hs i ?_, htok, hpos⟩
  rcases (eq_of_item hitem).2 with heof | hmem
  · rw [heof] at htok
    cases htok
  · exact hmem

/-- A name and more names behind it, with commas between them. -/
theorem moreIdents_from {n : Name} (hn : n.From Q) :
    Draws Q (fun ns => ns ≠ [] ∧ ∀ n ∈ ns, n.From Q) (repeated [n] fun acc => do
      if ← trySym "," then
        let m ← ident
        pure (acc ++ [m], true)
      else pure (acc, false)) := by
  refine .repeated ⟨List.cons_ne_nil _ _, List.forall_mem_singleton.mpr hn⟩ fun acc hacc => ?_
  refine .skip fun _ => .ite (ident_from.bind fun m hm => ?_) (.pure hacc)
  exact .pure ⟨by simp, forall_mem_concat hacc.2 hm⟩

/-! ## 3. Types -/

/-- Neither a struct nor an interface type. -/
def Expr.Plain (x : Expr) : Prop := (∀ fs, x ≠ .struct fs) ∧ ∀ fs, x ≠ .interface fs

/-- All other types have the property `P`, and the readers of struct and interface types read types
that have it. -/
structure Established (Q : Item → Prop) (P : Expr → Prop) : Prop where
  plain : ∀ x, x.Plain → P x
  struct : ∀ r lev, (∀ p l, Forward (r p l)) → Draws Q P (readStruct r lev)
  interface : ∀ r lev, (∀ p l, Forward (r p l)) → Draws Q P (readInterface r lev)

theorem readNamedType_plain : Yields Expr.Plain (readNamedType r lev) := by
  have hname : Yields Expr.Plain readTypeName := by
    unfold readTypeName
    refine .skip fun n => .skip fun _ => .ite ?_ ?_
    · exact .skip fun m => .pure ⟨nofun, nofun⟩
    · exact .pure ⟨nofun, nofun⟩
  have hinstance : ∀ x, Yields Expr.Plain (readInstance r lev x) := by
    intro x
    unfold readInstance
    refine .skip fun _ => .skip fun args => .skip fun _ => .ite .refuse ?_
    exact .pure ⟨nofun, nofun⟩
  unfold readNamedType
  exact hname.bind fun x hx => .skip fun _ => .ite (hinstance x) (.pure hx)

theorem readArray_plain (len : Option Expr) : Yields Expr.Plain (readArray r lev len) := by
  have hend : ∀ len, Yields Expr.Plain (do
      sym "]"
      let elem ← readType r lev
      pure (.array len elem)) :=
    fun len => .skip fun _ => .skip fun elem => .pure ⟨nofun, nofun⟩
  unfold readArray
  cases len with
  | some l => exact .skip fun len => hend len
  | none =>
    refine .skip fun _ => .ite (.skip fun len => hend len) (.skip fun _ => .ite ?_ ?_)
    · exact .skip fun len => hend len
    · exact .skip fun len => hend len

theorem readMap_plain : Yields Expr.Plain (readMap r lev) := by
  unfold readMap
  refine .skip fun _ => .skip fun _ => .skip fun k => .skip fun _ => .skip fun v => ?_
  exact .pure ⟨nofun, nofun⟩

theorem readChan_plain : Yields Expr.Plain (readChan r lev) := by
  have hchan : ∀ dir, Yields Expr.Plain (do
      let t ← readType r lev
      pure (.chan dir t)) :=
    fun dir => .skip fun t => .pure ⟨nofun, nofun⟩
  unfold readChan
  refine .skip fun _ => .ite ?_ ?_
  · refine .skip fun _ => .skip fun _ => .ite ?_ ?_
    · exact .skip fun dir => hchan dir
    · exact .skip fun dir => hchan dir
  · exact .skip fun _ => .skip fun _ => hchan .receive

section Rules

variable [hr : ∀ p l, Forward (r p l)]

instance rule_type_keeps : @Keeps (Option Expr) Q (r .type lev) := keeps_of_forward

/-- A struct type has the fields that are read. -/
theorem readStruct_all {F : Field → Prop} (hfield : Draws Q F (readField r lev)) :
    Draws Q (fun x => ∃ fs, x = .struct fs ∧ ∀ f ∈ fs, F f) (readStruct r lev) := by
  have hnext : ∀ acc : List Field, (∀ f ∈ acc, F f) →
      Draws Q (fun y : List Field × Bool => ∀ f ∈ y.1, F f) (do
        let f ← readField r lev
        pure (acc ++ [f], true)) :=
    fun acc hacc => hfield.bind fun f hf => .pure (forall_mem_concat hacc hf)
  have hround (acc : List Field) : Forward (readFieldAfter r lev acc) := inferInstance
  have hfields : Draws Q (fun fs => ∀ f ∈ fs, F f) (repeated [] (readFieldAfter r lev)) := by
    refine .repeated (List.forall_mem_nil _) fun acc hacc => .skip fun t => ?_
    split
    · exact hnext acc hacc
    · exact hnext acc hacc
    · exact hnext acc hacc
    · exact .pure hacc
  unfold readStruct
  refine .inScope (.skip fun _ => .skip fun _ => hfields.last fun fs hfs => ?_)
  exact .skip fun _ => .pure ⟨fs, rfl, hfs⟩

variable (h : Established Q P)

include h

theorem typeRule_established : Draws Q (fun t => ∀ x, t = some x → P x) (typeRule r lev) := by
  have hsome : ∀ {m : Reader Expr}, Draws Q P m →
      Draws Q (fun t => ∀ x, t = some x → P x) (some <$> m) := by
    intro m hm
    refine hm.map fun x hx y heq => ?_
    cases heq
    exact hx
  have hplain : ∀ {m : Reader Expr}, Yields Expr.Plain m →
      Draws Q (fun t => ∀ x, t = some x → P x) (some <$> m) :=
    fun hm => hsome (hm.draws.imp h.plain)
  have hother : ∀ {x : Expr}, x.Plain →
      Draws Q (fun t => ∀ x, t = some x → P x) (pure (some x) : Reader _) := by
    intro x hx
    refine .pure fun y heq => ?_
    cases heq
    exact h.plain _ hx
  unfold typeRule
  refine .skip fun t => ?_
  split
  · exact hplain readNamedType_plain
  · exact .skip fun _ => hplain (readArray_plain none)
  · exact hsome (h.struct r lev hr)
  · exact .skip fun _ => .skip fun x => hother ⟨nofun, nofun⟩
  · exact .skip fun sig => hother ⟨nofun, nofun⟩
  · exact hsome (h.interface r lev hr)
  · exact hplain readMap_plain
  · exact hplain readChan_plain
  · exact hplain readChan_plain
  · exact .skip fun _ => .skip fun x => .skip fun _ => hother ⟨nofun, nofun⟩
  · exact .pure nofun

end Rules

/-- The rules go forward, and the types that they read have the property `P`. -/
structure Rules.Establish (Q : Item → Prop) (P : Expr → Prop) (r : Rules) : Prop where
  plain : ∀ x, x.Plain → P x
  forward : ∀ p lev, Forward (r p lev)
  type : ∀ lev, Draws Q (fun t => ∀ x, t = some x → P x) (r .type lev)

theorem rulesAt_establish (h : Established Q P) : ∀ depth, (rulesAt depth).Establish Q P
  | 0 => ⟨h.plain, rulesAt_forward 0, fun _ => .refuse⟩
  | n + 1 => by
      refine ⟨h.plain, rulesAt_forward (n + 1), fun lev => ?_⟩
      have hr : ∀ p l, Forward (rulesAt n p l) := rulesAt_forward n
      exact typeRule_established h

/-! ## 4. Declarations -/

/-- What a declaration declares has names of tokens, and types with the property `P`. -/
def Decl.From (Q : Item → Prop) (P : Expr → Prop) : Decl → Prop
  | .imports => True
  | .types _ specs => ∀ t ∈ specs, t.name.From Q ∧ P t.type
  | .values _ _ specs => ∀ v ∈ specs, ∀ n ∈ v.names, n.From Q
  | .func f => f.name.From Q

theorem readValueSpec_from [∀ p l, Forward (r p l)] (kind : ValueKind)
    (doc : Option CommentGroup) :
    Draws Q (fun v => ∀ n ∈ v.names, n.From Q) (readValueSpec r lev kind doc) := by
  have hend : ∀ {names : List Name} (type : Option Expr), (∀ n ∈ names, n.From Q) →
      Draws Q (fun v => ∀ n ∈ v.names, n.From Q) (do
        if ← trySym "=" then let _ ← readExprs r lev
        let trail ← endOfLine
        pure (⟨doc, names, type, trail⟩ : ValueSpec)) := by
    refine fun type hnames => .skip fun _ => ?_
    dsimp only
    refine .ite (.skip fun _ => .skip fun _ => ?_) (.skip fun _ => ?_)
    · exact .pure hnames
    · exact .pure hnames
  unfold readValueSpec
  refine ident_from.bind fun n hn => ?_
  refine (moreIdents_from hn).bind fun names hnames => ?_
  cases kind with
  | const => exact .skip fun type => hend type hnames.2
  | var =>
    refine .skip fun _ => .ite ?_ ?_
    · exact .after (.pure none) fun type => hend type hnames.2
    · exact .after .map fun type => hend type hnames.2

theorem readFunc_from [∀ p l, Forward (r p l)] :
    Draws Q (fun f => f.name.From Q) (readFunc r) := by
  have hsig : ∀ (i : Item) (receiver : Option (List Field)), Draws Q (fun f => f.name.From Q) (do
      let n ← ident
      let tps ← readTypeParams r 0
      let ps ← readParams r 0 true
      let rs ← readResults r 0
      pure (⟨i.lead, receiver, n, .mk tps ps rs⟩ : FuncDecl)) := by
    refine fun i receiver => ident_from.bind fun n hn => .skip fun tps => ?_
    exact .skip fun ps => .skip fun rs => .pure hn
  unfold readFunc
  refine .skip fun i => .skip fun _ => .bind (P := fun f => f.name.From Q) ?_ fun f hf => ?_
  · refine .inScope (.skip fun _ => .ite ?_ ?_)
    · exact .skip fun receiver => hsig i receiver
    · exact .skip fun receiver => hsig i receiver
  · refine .skip fun t => ?_
    dsimp only
    split
    · exact .skip fun _ => .skip fun _ => .pure hf
    · exact .skip fun _ => .skip fun _ => .ite .refuse (.pure hf)
    · exact .skip fun _ => .pure hf

section Types

variable (hr : r.Establish Q P)

include hr

theorem readType_established : Draws Q P (readType r lev) := by
  have hforward := hr.forward
  unfold readType
  refine (hr.type lev).bind fun t ht => ?_
  split
  · exact .pure (ht _ rfl)
  · exact .refuse

theorem readArrayType_established (len : Option Expr) :
    Draws Q (fun y : List Field × Bool × Expr => P y.2.2) (do
      let x ← readArray r lev len
      pure ([], false, x)) := by
  have hforward := hr.forward
  exact (readArray_plain len).draws.bind fun x hx => .pure (hr.plain x hx)

theorem readGeneric_established (first : List Param) (more : Bool) :
    Draws Q (fun y => P y.2.2) (readBracketType.generic r lev first more) := by
  have hforward := hr.forward
  have hend : ∀ ps : List Param, Draws Q (fun y => P y.2.2) (do
      sym "]"
      let fs ← checkedFields true false ps
      let isAlias ← trySym "="
      let t ← readType r lev
      pure (fs, isAlias, t)) := by
    refine fun ps => .skip fun _ => .skip fun fs => .skip fun isAlias => ?_
    exact (readType_established hr).bind fun t ht => .pure ht
  unfold readBracketType.generic
  exact .ite (.skip fun ps => hend ps) (.skip fun ps => hend ps)

theorem readBracketRest_established (n : Name) (x : Expr) :
    Draws Q (fun y => P y.2.2) (readBracketRest r lev n x) := by
  have hforward := hr.forward
  unfold readBracketRest
  refine .skip fun force => .skip fun closed => ?_
  split
  · exact .skip fun c => .skip fun more => readGeneric_established hr _ more
  · refine .ite (readArrayType_established hr _) ?_
    exact .skip fun p => .skip fun more => readGeneric_established hr _ more
  · exact readArrayType_established hr _

theorem readBracketType_established : Draws Q (fun y => P y.2.2) (readBracketType r lev) := by
  have hforward := hr.forward
  unfold readBracketType
  refine .skip fun _ => .skip fun _ => .ite ?_ (readArrayType_established hr none)
  refine .skip fun n => .skip fun _ => .ite ?_ ?_
  · exact .skip fun x => readBracketRest_established hr n x
  · exact .skip fun lhs => .skip fun x => readBracketRest_established hr n x

theorem readTypeSpec_from (doc : Option CommentGroup) :
    Draws Q (fun t => t.name.From Q ∧ P t.type) (readTypeSpec r lev doc) := by
  have hforward := hr.forward
  have hend : ∀ {n : Name} (params : List Field) (isAlias : Bool) {t : Expr}, n.From Q → P t →
      Draws Q (fun t => t.name.From Q ∧ P t.type) (do
        let _ ← endOfLine
        pure (⟨doc, n, params, isAlias, t⟩ : TypeSpec)) :=
    fun params isAlias _ hn ht => .skip fun _ => .pure ⟨hn, ht⟩
  unfold readTypeSpec
  refine ident_from.bind fun n hn => .skip fun _ => .ite ?_ ?_
  · refine (readBracketType_established hr).bind fun y hy => ?_
    obtain ⟨params, isAlias, t⟩ := y
    exact hend params isAlias hn hy
  · refine .skip fun isAlias => (readType_established hr).bind fun t ht => ?_
    exact hend [] isAlias hn ht

end Types

section Specs

variable {α : Type} {P : α → Prop} {opens : α → Bool} {spec : Option CommentGroup → Reader α}
  [∀ doc, Forward (spec doc)] (hspec : ∀ doc, Draws Q P (spec doc))

include hspec

theorem readSpecAfter_all {acc : List α} (doc : Option CommentGroup) (hacc : ∀ x ∈ acc, P x) :
    Draws Q (fun xs => ∀ x ∈ xs, P x) (readSpecAfter opens spec acc doc) := by
  refine (hspec doc).measured.bind fun y hy => ?_
  obtain ⟨x, inner⟩ := y
  exact .skip fun _ => .pure (forall_mem_concat hacc hy)

theorem readSpecs_all : Draws Q (fun xs => ∀ x ∈ xs, P x) (readSpecs opens spec) := by
  have hnil : ∀ x ∈ ([] : List α), P x := List.forall_mem_nil _
  unfold readSpecs
  refine .skip fun _ => .ite ?_ (readSpecAfter_all hspec none hnil)
  refine .bind (P := fun xs => ∀ x ∈ xs, P x) ?_ fun xs hxs => ?_
  · refine .repeated hnil fun acc hacc => .skip fun _ => .ite (.pure hacc) ?_
    exact .skip fun i => (readSpecAfter_all hspec i.lead hacc).bind fun xs hxs => .pure hxs
  · exact .skip fun _ => .skip fun _ => .pure hxs

end Specs

section Files

variable (hr : r.Establish Q P)

include hr

theorem readGeneral_from : Draws Q (Decl.From Q P) (readGeneral r lev) := by
  have hforward := hr.forward
  unfold readGeneral
  refine .skip fun i => ?_
  split
  · exact .skip fun _ => .skip fun _ => .pure trivial
  · refine .skip fun _ => (readSpecs_all (readTypeSpec_from hr)).bind fun specs hspecs => ?_
    exact .pure hspecs
  · refine .skip fun _ => (readSpecs_all (readValueSpec_from .const)).bind fun specs hspecs => ?_
    exact .pure hspecs
  · refine .skip fun _ => (readSpecs_all (readValueSpec_from .var)).bind fun specs hspecs => ?_
    exact .pure hspecs
  · exact .refuse

theorem readDeclAfter_from {acc : List Decl} (imports : Bool) (hacc : ∀ d ∈ acc, d.From Q P) :
    Draws Q (fun y => ∀ d ∈ y.1.1, d.From Q P) (readDeclAfter r acc imports) := by
  have hforward := hr.forward
  unfold readDeclAfter
  refine .skip fun t => ?_
  split
  · exact .pure hacc
  · have himport : Draws Q (fun y : (List Decl × Bool) × Bool => ∀ d ∈ y.1.1, d.From Q P) (do
        let d ← readGeneral r 0
        pure ((acc ++ [d], true), true)) :=
      (readGeneral_from hr).bind fun d hd => .pure (forall_mem_concat hacc hd)
    exact .ite (.skip fun _ => himport) himport
  · exact readFunc_from.bind fun f hf => .pure (forall_mem_concat hacc hf)
  · exact (readGeneral_from hr).bind fun d hd => .pure (forall_mem_concat hacc hd)

theorem readDecls_from : Draws Q (fun ds => ∀ d ∈ ds, d.From Q P) (readDecls r) := by
  have hforward := hr.forward
  have hround (y : List Decl × Bool) : Forward (readDeclAfter r y.1 y.2) := inferInstance
  have hdecls : Draws Q (fun y => ∀ d ∈ y.1, d.From Q P)
      (repeated ([], true) fun y => readDeclAfter r y.1 y.2) :=
    .repeated (List.forall_mem_nil _) fun y hy => readDeclAfter_from hr y.2 hy
  exact hdecls.bind fun y hy => .pure hy

theorem readFile_from : Draws Q (fun y => ∀ d ∈ y.2.2, d.From Q P) (readFile r) := by
  have hforward := hr.forward
  unfold readFile
  refine .skip fun _ => .skip fun _ => .skip fun n => .skip fun _ => ?_
  refine (readDecls_from hr).bind fun ds hds => .skip fun _ => ?_
  split
  · exact .pure hds
  · exact .refuse

end Files

theorem eq_of_parse? {path text : String} {f : File} (h : File.parse? path text = some f) :
    ∃ xs, lex text = some xs ∧ f.path = path ∧ f.lines = lineCount text.toList ∧
      ∀ {Q : Item → Prop} {P : Expr → Prop}, Established Q P → (∀ i ∈ attach xs, Q i) →
        ∀ d ∈ f.decls, d.From Q P := by
  simp only [File.parse?, Option.bind_eq_bind, Option.bind_eq_some_iff] at h
  obtain ⟨xs, hlex, marks, -, ⟨⟨p, package, decls⟩, s⟩, hread, heq⟩ := h
  cases heq
  refine ⟨xs, hlex, rfl, rfl, fun hP hQ => ?_⟩
  exact readFile_from (rulesAt_establish hP _) _ _ _ hQ hread

end DocAudit.Source
