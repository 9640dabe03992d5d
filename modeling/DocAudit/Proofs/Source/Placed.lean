import DocAudit.Proofs.Source.Draws
import DocAudit.Proofs.Source.Lexed

/-!
# Declared names stand in the text

In a parsed file every declaration has the position of its name, and the text has the name there.
An embedded field has no name of its own; its position is where its type starts.

* `Expr.From`: the fields and methods of a type come from tokens;
* `decls_stand`: so do all declarations of a parsed file, and the tokens stand in its text.
-/

namespace DocAudit.Source

open Reader

variable {Q : Item → Prop} {r : Rules} {lev : Int}

/-! ## 1. The token at the front -/

namespace Reader

variable {α β : Type} {P : α → Prop} {i : Item} {m : Reader α} {g : Name → Reader α}

/-- From tokens that all have the property `Q`, with `i` at their front, the reader reads what has
the property `P`. -/
def DrawsAt (Q : Item → Prop) (i : Item) (P : α → Prop) (m : Reader α) : Prop :=
  ∀ s a s', item s = some (i, s) → (∀ j ∈ s.items, Q j) → m s = some (a, s') → P a

theorem DrawsAt.of_draws (h : Draws Q P m) : DrawsAt Q i P m := fun s a s' _ hs hrun =>
  h s a s' hs hrun

/-- Looking at the front takes nothing. -/
theorem Draws.front {g : Item → Reader α}
    (hg : ∀ i, (i.tok ≠ .eof → Q i) → DrawsAt Q i P (g i)) : Draws Q P (item >>= g) := by
  intro s a s' hs hrun
  obtain ⟨⟨i, t⟩, hitem, ha⟩ := Option.bind_eq_some_iff.mp hrun
  obtain ⟨rfl, hfront⟩ := eq_of_item hitem
  exact hg i (fun hne => hs i (hfront.resolve_left hne)) _ a s' hitem hs ha

/-- The name that is taken is the one at the front. -/
theorem DrawsAt.ident
    (hg : ∀ n, i.tok = .ident n.toIdent → i.pos = n.pos → Draws Q P (g n)) :
    DrawsAt Q i P (ident >>= g) := by
  intro s a s' hi hs hrun
  obtain ⟨⟨n, t⟩, hident, ha⟩ := Option.bind_eq_some_iff.mp hrun
  obtain ⟨j, hj, htok, hpos⟩ := ident_eq_some hident
  obtain ⟨rfl, -⟩ := Prod.mk.inj (Option.some.inj (hi.symm.trans hj))
  exact hg n htok hpos t a s'
    (fun j hjt => hs j ((Forward.ident.suffix hident).mem hjt)) ha

end Reader

/-! ## 2. Fields -/

/-- The names of a field are those of tokens, and an embedded type starts with the letters of the
token at its position. -/
def Field.From (Q : Item → Prop) (f : Field) : Prop :=
  (∀ n ∈ f.names, n.From Q) ∧
    (f.names = [] → ∃ i, Q i ∧ i.pos = f.typePos ∧ i.tok.letters ≠ [] ∧
      i.tok.letters <+: f.type.render.toList)

/-- The fields and methods of a type come from tokens. -/
def Expr.From (Q : Item → Prop) (x : Expr) : Prop :=
  (∀ fs, x = .struct fs → ∀ f ∈ fs, f.From Q) ∧
    ∀ fs, x = .interface fs → ∀ f ∈ fs, ∀ n ∈ f.names, n.From Q

/-- A type is written with a name in front. -/
def Expr.StartsWith (n : Ident) (x : Expr) : Prop := n.text.toList <+: x.render.toList

theorem startsWith_ident (n : Ident) : (Expr.ident n).StartsWith n := by
  unfold Expr.StartsWith
  simp [Expr.render]

theorem startsWith_select (n m : Ident) : (Expr.select (.ident n) m).StartsWith n := by
  unfold Expr.StartsWith
  simp [Expr.render]

theorem Expr.StartsWith.index {n : Ident} {x : Expr} (h : x.StartsWith n) (args : List Expr) :
    (Expr.index x args).StartsWith n := by
  unfold Expr.StartsWith at h ⊢
  simp only [Expr.render, String.toList_append, List.append_assoc]
  exact h.trans (List.prefix_append _ _)

theorem readInstance_startsWith {n : Ident} {x : Expr} (h : x.StartsWith n) :
    Yields (Expr.StartsWith n) (readInstance r lev x) := by
  unfold readInstance
  refine .skip fun _ => .skip fun args => .skip fun _ => ?_
  exact .ite .refuse (.pure (h.index args))

theorem readQualified_startsWith (n : Name) :
    Yields (Expr.StartsWith n.toIdent) (readQualified r lev n) := by
  have hinstance : ∀ {x : Expr}, x.StartsWith n.toIdent →
      Yields (Expr.StartsWith n.toIdent) (do
        if ← atSym "[" then readInstance r lev x else pure x) :=
    fun hx => .skip fun _ => .ite (readInstance_startsWith hx) (.pure hx)
  unfold readQualified
  refine .skip fun _ => .ite ?_ ?_
  · exact .skip fun m => hinstance (startsWith_select n.toIdent m.toIdent)
  · exact hinstance (startsWith_ident n.toIdent)

/-- A field before a bracket keeps its name, or it is an embedded type of that name. -/
theorem readFieldOrInstance_startsWith (x : Name) :
    Yields (fun y => (∀ m, y.1 = some m → m = x) ∧ (y.1 = none → y.2.StartsWith x.toIdent))
      (readFieldOrInstance r lev x) := by
  have hnamed : ∀ t : Expr, (∀ m, some x = some m → m = x) ∧
      (some x = none → t.StartsWith x.toIdent) :=
    fun t => ⟨fun m heq => (Option.some.inj heq).symm, nofun⟩
  have hembedded : ∀ args : List Expr, (∀ m, none = some m → m = x) ∧
      ((none : Option Name) = none → (Expr.index (.ident x.toIdent) args).StartsWith x.toIdent) :=
    fun args => ⟨nofun, fun _ => .index (startsWith_ident x.toIdent) args⟩
  unfold readFieldOrInstance
  refine .skip fun _ => .skip fun y => ?_
  obtain ⟨args, trailing⟩ := y
  refine .skip fun _ => ?_
  split
  · exact .skip fun elem => .pure (hnamed _)
  · refine .skip fun elem => ?_
    split
    · exact .ite .refuse (.pure (hnamed _))
    · exact .pure (hembedded _)
  · exact .pure (hembedded _)

theorem readFieldEnd_from (first : Item) {names : List Name} {type : Expr}
    (hnames : ∀ n ∈ names, n.From Q)
    (hstart : names = [] → Q first ∧ first.tok.letters ≠ [] ∧
      first.tok.letters <+: type.render.toList) :
    Draws Q (Field.From Q) (readFieldEnd first names type) := by
  have hfield : ∀ {typePos : Pos} trail, typePos = first.pos →
      (Field.mk first.lead names type typePos trail).From Q := by
    refine fun trail hpos => ⟨hnames, fun hnil => ?_⟩
    obtain ⟨hfirst, hne, hprefix⟩ := hstart hnil
    exact ⟨first, hfirst, hpos.symm, hne, hprefix⟩
  unfold readFieldEnd
  refine .bind (P := fun typePos => typePos = first.pos) (.pure rfl) fun typePos hpos => ?_
  refine .skip fun t => ?_
  dsimp only
  split
  · exact .skip fun _ => .skip fun trail => .pure (hfield trail hpos)
  · exact .skip fun trail => .pure (hfield trail hpos)

section Rules

variable [hr : ∀ p l, Forward (r p l)]

theorem readField_from : Draws Q (Field.From Q) (readField r lev) := by
  unfold readField
  refine .front fun first hfirst => ?_
  dsimp only
  split
  · rename_i htok
    have hfirst : Q first := hfirst (by simp [htok])
    refine .ident fun n hn hpos => .skip fun t => ?_
    have hletters : first.tok.letters = n.text.toList := by rw [hn]; rfl
    have hembedded : ∀ {x : Expr}, x.StartsWith n.toIdent →
        Draws Q (Field.From Q) (readFieldEnd first [] x) := by
      refine fun hx => readFieldEnd_from first (List.forall_mem_nil _) fun _ => ?_
      rw [hletters]
      exact ⟨hfirst, n.toIdent.letters_ne_nil, hx⟩
    split
    · exact (readQualified_startsWith n).draws.bind fun x hx => hembedded hx
    · exact hembedded (startsWith_ident n.toIdent)
    · exact hembedded (startsWith_ident n.toIdent)
    · exact hembedded (startsWith_ident n.toIdent)
    · have hname : n.From Q := ⟨first, hfirst, hn, hpos⟩
      refine (moreIdents_from hname).bind fun names hnames => .skip fun _ => .ite ?_ ?_
      · refine (readFieldOrInstance_startsWith n).draws.bind fun y hy => ?_
        obtain ⟨m, x⟩ := y
        cases m with
        | none => exact hembedded (hy.2 rfl)
        | some m =>
          obtain rfl : m = n := hy.1 m rfl
          exact readFieldEnd_from first (List.forall_mem_singleton.mpr hname)
            fun hnil => absurd hnil (List.cons_ne_nil m [])
      · refine .skip fun x => ?_
        exact readFieldEnd_from first hnames.2 fun hnil => absurd hnil hnames.1
  · rename_i htok
    have hfirst : Q first := hfirst (by simp [htok])
    refine .of_draws (.skip fun _ => .skip fun _ => .skip fun _ => ?_)
    refine readFieldEnd_from first (List.forall_mem_nil _) fun _ => ?_
    rw [htok]
    exact ⟨hfirst, by decide, by simp [Tok.letters, Expr.render]⟩
  · exact .of_draws (.bind (P := fun _ : List Name × Expr => False) .refuse fun _ h => h.elim)

theorem readStruct_from : Draws Q (Expr.From Q) (readStruct r lev) := by
  refine (readStruct_all readField_from).imp ?_
  rintro x ⟨fs, rfl, hfs⟩
  refine ⟨fun fs' heq => ?_, nofun⟩
  cases heq
  exact hfs

/-! ## 3. Methods of interfaces -/

theorem readMethod_from : Draws Q (fun y => ∀ n ∈ y.1, n.From Q) (readMethod r lev) := by
  unfold readMethod
  refine ident_from.bind fun n hn => .skip fun _ => .ite ?_ (.skip fun _ => .ite ?_ ?_)
  · exact .skip fun t => .pure (by simp)
  · refine .skip fun _ => .skip fun x => .skip fun more => .ite ?_ ?_
    · exact .skip fun args => .skip fun _ => .pure (by simp)
    · exact .skip fun args => .skip fun _ => .pure (by simp)
  · refine .skip fun _ => .ite (.inScope (.skip fun ps => .skip fun rs => ?_)) (.pure (by simp))
    exact .pure (List.forall_mem_singleton.mpr hn)

theorem readElementAfter_from {acc : List Field} (hacc : ∀ f ∈ acc, ∀ n ∈ f.names, n.From Q) :
    Draws Q (fun y => ∀ f ∈ y.1, ∀ n ∈ f.names, n.From Q) (readElementAfter r lev acc) := by
  unfold readElementAfter
  refine .skip fun i => ?_
  have hunnamed : ∀ (t : Expr) (trail : Option CommentGroup),
      ∀ f ∈ acc ++ [Field.mk none [] t i.pos trail], ∀ n ∈ f.names, n.From Q :=
    fun t trail => forall_mem_concat hacc (List.forall_mem_nil _)
  split
  · refine readMethod_from.bind fun y hy => ?_
    obtain ⟨names, t⟩ := y
    have hmethod : ∀ (t : Expr) (trail : Option CommentGroup),
        ∀ f ∈ acc ++ [Field.mk i.lead names t i.pos trail], ∀ n ∈ f.names, n.From Q :=
      fun t trail => forall_mem_concat hacc hy
    refine .ite ?_ ?_
    · exact .skip fun t => .skip fun trail => .pure (hmethod t trail)
    · exact .skip fun t => .skip fun trail => .pure (hmethod t trail)
  · exact .skip fun t => .skip fun trail => .pure (hunnamed t trail)
  · refine .skip fun t => ?_
    split
    · exact .skip fun t => .skip fun trail => .pure (hunnamed t trail)
    · exact .pure hacc

theorem readInterface_from : Draws Q (Expr.From Q) (readInterface r lev) := by
  have hround (acc : List Field) : Forward (readElementAfter r lev acc) := inferInstance
  have helements : Draws Q (fun fs => ∀ f ∈ fs, ∀ n ∈ f.names, n.From Q)
      (repeated [] (readElementAfter r lev)) :=
    .repeated (List.forall_mem_nil _) fun acc hacc => readElementAfter_from hacc
  unfold readInterface
  refine .inScope (.skip fun _ => .skip fun _ => helements.last fun fs hfs => ?_)
  refine .skip fun _ => .pure ⟨nofun, fun fs' heq => ?_⟩
  cases heq
  exact hfs

end Rules

/-! ## 4. Files -/

theorem established_from : Established Q (Expr.From Q) where
  plain _ hx := ⟨fun fs heq => absurd heq (hx.1 fs), fun fs heq => absurd heq (hx.2 fs)⟩
  struct _ _ _ := readStruct_from
  interface _ _ _ := readInterface_from

/-- **What a parsed file declares stands in its text.** -/
theorem decls_stand {path text : String} {f : File} (h : File.parse? path text = some f) :
    ∀ d ∈ f.decls, d.From (Item.StandsIn text) (Expr.From (Item.StandsIn text)) := by
  obtain ⟨xs, hlex, -, -, hdecls⟩ := eq_of_parse? h
  exact hdecls established_from (standsIn_attach hlex)

/-- Where no line directive takes effect, places are physical ones. -/
theorem File.place_of_no_mark {f : File} {pos : Pos} (h : ∀ m ∈ f.marks, pos.offset < m.offset) :
    f.place pos = ⟨f.path, pos.line⟩ := by
  have hnone : f.marks.reverse.find? (fun m => decide (m.offset ≤ pos.offset)) = none := by
    refine List.find?_eq_none.mpr fun m hm => ?_
    have hlt := h m (List.mem_reverse.mp hm)
    simp only [decide_eq_true_eq]
    omega
  unfold File.place Source.place
  rw [hnone]

end DocAudit.Source
