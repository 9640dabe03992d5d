import DocAudit.Proofs.Source.Draws

/-!
# Embedded fields have a name

The grammar takes a type name for an embedded field, behind a pointer or with type arguments, and
nothing else: in a parsed file the type of an embedded field refers to a named type.

* `readField_namesEmbedded`: so it is for each field that is read;
* `namesEmbedded_of_parse?`: no struct of a parsed file embeds a type without a name.
-/

namespace DocAudit.Source

open Reader

variable {r : Rules} {lev : Int}

/-! ## 1. Fields -/

/-- An expression that refers to a named type. -/
def Expr.Named (x : Expr) : Prop := x.baseName ≠ ""

/-- An embedded field has a type with a name. -/
def Field.NamesEmbedded (f : Field) : Prop := f.names = [] → f.type.Named

/-- The embedded fields of a struct type have types with names. -/
def Expr.NamesEmbedded (x : Expr) : Prop := ∀ fs, x = .struct fs → ∀ f ∈ fs, f.NamesEmbedded

theorem readInstance_named {x : Expr} (hx : x.Named) :
    Yields Expr.Named (readInstance r lev x) := by
  unfold readInstance
  refine .skip fun _ => .skip fun args => .skip fun _ => ?_
  exact .ite .refuse (.pure hx)

theorem readQualified_named (n : Name) : Yields Expr.Named (readQualified r lev n) := by
  have hinstance : ∀ {x : Expr}, x.Named → Yields Expr.Named (do
      if ← atSym "[" then readInstance r lev x else pure x) := by
    intro x hx
    exact .skip fun _ => .ite (readInstance_named hx) (.pure hx)
  unfold readQualified
  refine .skip fun _ => .ite ?_ ?_
  · exact .skip fun m => hinstance m.toIdent.text_ne_empty
  · exact hinstance n.toIdent.text_ne_empty

/-- What is embedded is a type with type arguments, not an array. -/
theorem readFieldOrInstance_named (x : Name) :
    Yields (fun y => y.1 = none → y.2.Named) (readFieldOrInstance r lev x) := by
  unfold readFieldOrInstance
  refine .skip fun _ => .skip fun y => ?_
  obtain ⟨args, trailing⟩ := y
  refine .skip fun _ => ?_
  split
  · exact .skip fun _ => .pure fun h => absurd h (Option.some_ne_none _)
  · refine .skip fun elem => ?_
    split
    · exact .ite .refuse (.pure fun h => absurd h (Option.some_ne_none _))
    · exact .pure fun _ => x.toIdent.text_ne_empty
  · exact .pure fun _ => x.toIdent.text_ne_empty

theorem readFieldEnd_namesEmbedded (first : Item) {names : List Name} {type : Expr}
    (h : names = [] → type.Named) :
    Yields Field.NamesEmbedded (readFieldEnd first names type) := by
  unfold readFieldEnd
  refine .skip fun _ => .skip fun t => ?_
  dsimp only
  split
  · exact .skip fun _ => .skip fun _ => .pure h
  · exact .skip fun _ => .pure h

theorem readField_namesEmbedded : Yields Field.NamesEmbedded (readField r lev) := by
  unfold readField
  refine .skip fun first => ?_
  dsimp only
  split
  · refine ident_from.bind fun n hn => .skip fun t => ?_
    have hname : Yields Field.NamesEmbedded (readFieldEnd first [] (.ident n.toIdent)) :=
      readFieldEnd_namesEmbedded first fun _ => n.toIdent.text_ne_empty
    split
    · refine (readQualified_named n).bind fun x hx => ?_
      exact readFieldEnd_namesEmbedded first fun _ => hx
    · exact hname
    · exact hname
    · exact hname
    · refine (moreIdents_from hn).bind fun names hnames => .skip fun _ => .ite ?_ ?_
      · refine (readFieldOrInstance_named n).bind fun y hy => ?_
        obtain ⟨m, x⟩ := y
        have hnone : m.toList = [] → x.Named := fun hnil => hy (Option.toList_eq_nil_iff.mp hnil)
        exact readFieldEnd_namesEmbedded first hnone
      · refine .skip fun x => ?_
        exact readFieldEnd_namesEmbedded first fun hnil => absurd hnil hnames.1
  · refine .skip fun _ => .skip fun n => (readQualified_named n).bind fun x hx => ?_
    exact readFieldEnd_namesEmbedded first fun _ => hx
  · refine .bind (P := fun y : List Name × Expr => y.1 = [] → y.2.Named) .refuse fun y hy => ?_
    obtain ⟨names, type⟩ := y
    exact readFieldEnd_namesEmbedded first hy

theorem readStruct_namesEmbedded [∀ p l, Forward (r p l)] :
    Yields Expr.NamesEmbedded (readStruct r lev) := by
  refine (readStruct_all readField_namesEmbedded).imp ?_
  rintro x ⟨fs, rfl, hfs⟩ fs' heq
  cases heq
  exact hfs

/-! ## 2. Files -/

theorem established_namesEmbedded : Established (fun _ => True) Expr.NamesEmbedded where
  plain x hx := fun fs heq => absurd heq (hx.1 fs)
  struct r lev hr := readStruct_namesEmbedded
  interface r lev hr := by
    unfold readInterface
    refine .inScope (.skip fun _ => .skip fun _ => .skip fun fs => .skip fun _ => ?_)
    exact .pure nofun

/-- The types of a declaration name what they embed. -/
def Decl.NamesEmbedded (d : Decl) : Prop :=
  ∀ doc specs, d = .types doc specs → ∀ t ∈ specs, t.type.NamesEmbedded

/-- **No struct of a parsed file embeds a type without a name.** -/
theorem namesEmbedded_of_parse? {path text : String} {f : File}
    (h : File.parse? path text = some f) : ∀ d ∈ f.decls, d.NamesEmbedded := by
  obtain ⟨xs, -, -, -, hdecls⟩ := eq_of_parse? h
  intro d hd doc specs heq t ht
  have hfrom := hdecls established_namesEmbedded (fun _ _ => trivial) d hd
  rw [heq] at hfrom
  exact (hfrom t ht).2

end DocAudit.Source
