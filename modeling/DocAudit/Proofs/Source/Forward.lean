import DocAudit.Source.Grammar.Rules
import Mathlib.Data.List.Infix

/-!
# Readers go forward

A reader takes tokens off the front of its stream and puts none back: what it leaves is an end of
what it was given.  So whatever holds of all tokens of a file holds of all tokens that any part of
the grammar is given.

* `Forward` is this property; as a class, it follows the steps of a reader by instance search;
* `rulesAt_forward`: the rules of the grammar go forward at every depth.
-/

namespace DocAudit.Source

namespace Reader

variable {α β : Type} {m m' : Reader α} {g : α → Reader β} {body : α → Reader (α × Bool)}

/-- What the reader leaves of the tokens is an end of them. -/
class Forward (m : Reader α) : Prop where
  suffix : ∀ {s a s'}, m s = some (a, s') → s'.items <:+ s.items

/-! ## 1. Steps of a reader -/

namespace Forward

instance pure (a : α) : Forward (pure a : Reader α) where
  suffix h := by
    cases h
    exact List.suffix_rfl

instance refuse : Forward (refuse : Reader α) where
  suffix h := nomatch h

instance bind [hm : Forward m] [hg : ∀ a, Forward (g a)] : Forward (m >>= g) where
  suffix h := by
    obtain ⟨⟨a, t⟩, ha, hb⟩ := Option.bind_eq_some_iff.mp h
    exact ((hg a).suffix hb).trans (hm.suffix ha)

theorem seq (hm : Forward m) (hg : ∀ a, Forward (g a)) : Forward (m >>= g) := inferInstance

/-- A step whose continuation is looked at by cases. -/
theorem step [Forward m] (hg : ∀ a, Forward (g a)) : Forward (m >>= g) := inferInstance

instance map {f : α → β} [hm : Forward m] : Forward (f <$> m) where
  suffix h := by
    obtain ⟨⟨a, t⟩, ha, hb⟩ := Option.bind_eq_some_iff.mp h
    cases hb
    exact hm.suffix ha

instance ite {c : Prop} [Decidable c] [hm : Forward m] [hm' : Forward m'] :
    Forward (if c then m else m') := by
  split
  · exact hm
  · exact hm'

/-- A branch whose sides are looked at one by one. -/
theorem branch {c : Prop} [Decidable c] (hm : Forward m) (hm' : Forward m') :
    Forward (if c then m else m') := inferInstance

instance get : Forward (get : Reader Stream) where
  suffix h := by
    cases h
    exact List.suffix_rfl

theorem of_modify {f : Stream → Stream} (hf : ∀ s, (f s).items <:+ s.items) :
    Forward (modify f : Reader Unit) where
  suffix h := by
    cases h
    exact hf _

instance next : Forward next := of_modify fun s => by
  split
  · rename_i h
    exact h ▸ List.suffix_cons _ _
  · exact List.suffix_rfl

instance reach (n : Nat) : Forward (reach n) := of_modify fun _ => List.suffix_rfl

theorem rounds (h : ∀ a, Forward (body a)) : ∀ fuel a, Forward (rounds body fuel a)
  | 0, _ => refuse
  | n + 1, a => by
      have ih := rounds h n
      unfold Reader.rounds
      infer_instance

theorem repeated_of (h : ∀ a, Forward (body a)) (a : α) : Forward (repeated a body) := by
  have hrounds := rounds h
  unfold repeated
  infer_instance

instance repeated {a : α} [h : ∀ a, Forward (body a)] : Forward (repeated a body) := repeated_of h a

instance measured [Forward m] : Forward (measured m) := by
  have hnesting (n : Nat) : Forward (modify fun s => { s with nesting := n } : Reader Unit) :=
    of_modify fun _ => List.suffix_rfl
  unfold Reader.measured
  infer_instance

instance inScope [Forward m] : Forward (inScope m) := by
  unfold Reader.inScope
  infer_instance

/-! ## 2. Single tokens -/

instance item : Forward item := by
  unfold Reader.item
  refine .step fun s => ?_
  split <;> infer_instance

instance tok : Forward tok := by unfold Reader.tok; infer_instance

instance pos : Forward pos := by unfold Reader.pos; infer_instance

instance atSym (s : String) : Forward (atSym s) := by unfold Reader.atSym; infer_instance

instance atWord (w : String) : Forward (atWord w) := by unfold Reader.atWord; infer_instance

instance atIdent : Forward atIdent := by
  unfold Reader.atIdent
  refine .step fun t => ?_
  split <;> infer_instance

instance atSemi : Forward atSemi := by
  unfold Reader.atSemi
  refine .step fun t => ?_
  split <;> infer_instance

instance sym (s : String) : Forward (sym s) := by unfold Reader.sym; infer_instance

instance word (w : String) : Forward (word w) := by unfold Reader.word; infer_instance

instance trySym (s : String) : Forward (trySym s) := by unfold Reader.trySym; infer_instance

instance ident : Forward ident := by
  unfold Reader.ident
  refine .step fun i => ?_
  split <;> infer_instance

instance endOfLine : Forward endOfLine := by
  unfold Reader.endOfLine
  refine .step fun i => ?_
  split <;> infer_instance

instance comma (closing : String) : Forward (comma closing) := by
  unfold Reader.comma
  infer_instance

end Forward

end Reader

open Reader

variable {r : Rules} {lev : Int}

instance readTypeName_forward : Forward readTypeName := by unfold readTypeName; infer_instance

section Rules

variable [hr : ∀ p lev, Forward (r p lev)]

/-! ## 3. Types -/

instance rule_type : @Forward (Option Expr) (r .type lev) := hr _ _

instance rule_unary : @Forward Expr (r .unary lev) := hr _ _

instance rule_binary (prec : Nat) : @Forward Expr (r (.binary prec) lev) := hr _ _

instance rule_elements : @Forward Bool (r .elements lev) := hr _ _

instance rule_stmt : @Forward Unit (r .stmt lev) := hr _ _

instance rule_cond : @Forward Unit (r .cond lev) := hr _ _

instance readType_forward : Forward (readType r lev) := by
  unfold readType
  refine .step fun t => ?_
  split <;> infer_instance

instance readExpr_forward : Forward (readExpr r lev) := by unfold readExpr; infer_instance

instance readTypes_forward (closing : String) (start : List Expr) :
    Forward (readTypes r lev closing start) := by
  unfold readTypes
  infer_instance

instance readInstance_forward (x : Expr) : Forward (readInstance r lev x) := by
  unfold readInstance
  infer_instance

instance readNamedType_forward : Forward (readNamedType r lev) := by
  unfold readNamedType
  infer_instance

instance readQualified_forward (n : Name) : Forward (readQualified r lev n) := by
  unfold readQualified
  infer_instance

instance readArray_forward (len : Option Expr) : Forward (readArray r lev len) := by
  have hend (len : Option Expr) : Forward (do
      sym "]"
      let elem ← readType r lev
      pure (Expr.array len elem)) := inferInstance
  unfold readArray
  cases len with
  | some l => exact hend (some l)
  | none =>
    dsimp only
    infer_instance

instance readFieldOrInstance_forward (x : Name) : Forward (readFieldOrInstance r lev x) := by
  unfold readFieldOrInstance
  refine .step fun _ => .seq (.repeated_of (fun (acc, _) => inferInstance) _) ?_
  rintro ⟨args, trailing⟩
  refine .step fun _ => ?_
  split
  · infer_instance
  · refine .step fun t => ?_
    split <;> infer_instance
  · infer_instance

/-- The end of a field, behind its names and its type. -/
def readFieldEnd (first : Item) (names : List Name) (type : Expr) : Reader Field := do
  let typePos ← pure first.pos
  match ← tok with
  | .lit .string _ => next
  | _ => pure ()
  let trail ← endOfLine
  pure (.mk first.lead names type typePos trail)

instance readFieldEnd_forward (first : Item) (names : List Name) (x : Expr) :
    Forward (readFieldEnd first names x) := by
  unfold readFieldEnd
  refine .step fun _ => .step fun t => ?_
  dsimp only
  split <;> infer_instance

instance readField_forward : Forward (readField r lev) := by
  have hend := readFieldEnd_forward
  unfold readFieldEnd at hend
  unfold readField
  refine .step fun first => ?_
  dsimp only at hend ⊢
  split
  · refine .step fun n => .step fun t => ?_
    split <;> infer_instance
  · infer_instance
  · infer_instance

/-- A round of reading the fields of a struct. -/
def readFieldAfter (r : Rules) (lev : Int) (acc : List Field) : Reader (List Field × Bool) := do
  match ← tok with
  | .ident _ | .sym "*" | .sym "(" =>
    let f ← readField r lev
    pure (acc ++ [f], true)
  | _ => pure (acc, false)

instance readFieldAfter_forward (acc : List Field) : Forward (readFieldAfter r lev acc) := by
  unfold readFieldAfter
  refine .step fun t => ?_
  split <;> infer_instance

instance readStruct_forward : Forward (readStruct r lev) := by
  have hround (acc : List Field) : Forward (readFieldAfter r lev acc) := inferInstance
  unfold readStruct
  refine @Forward.inScope _ _ (.step fun _ => .step fun _ => .seq ?_ fun fs => inferInstance)
  exact .repeated_of hround []

instance readTerm_forward : Forward (readTerm r lev) := by unfold readTerm; infer_instance

instance readUnionFrom_forward (x : Expr) : Forward (readUnionFrom r lev x) := by
  unfold readUnionFrom
  infer_instance

instance readUnion_forward : Forward (readUnion r lev) := by unfold readUnion; infer_instance

/-! ## 4. Parameters and functions -/

instance readParamAfter_forward (sets : Bool) (n : Name) :
    Forward (readParamAfter r lev sets n) := by
  unfold readParamAfter
  refine .step fun t => ?_
  dsimp only
  split <;> infer_instance

instance readParam_forward (sets : Bool) : Forward (readParam r lev sets) := by
  unfold readParam
  refine .step fun i => ?_
  dsimp only
  split <;> infer_instance

instance readParamsFrom_forward (closing : String) (first : List Param) :
    Forward (readParamsFrom r lev closing first) := by
  unfold readParamsFrom
  infer_instance

instance checkedFields_forward (typeParams variadic : Bool) (ps : List Param) :
    Forward (checkedFields typeParams variadic ps) := by
  unfold checkedFields
  split <;> infer_instance

instance readParams_forward (variadic : Bool) : Forward (readParams r lev variadic) := by
  unfold readParams
  infer_instance

instance readTypeParams_forward : Forward (readTypeParams r lev) := by
  unfold readTypeParams
  infer_instance

instance readResults_forward : Forward (readResults r lev) := by
  have htype (p : Pos) : Forward (do
      match ← r .type lev with
      | some t => pure [Field.bare t p]
      | none => pure []) := by
    refine .step fun t => ?_
    split <;> infer_instance
  unfold readResults
  infer_instance

instance readFuncType_forward : Forward (readFuncType r lev) := by
  unfold readFuncType
  infer_instance

/-! ## 5. The other types -/

instance readMethod_forward : Forward (readMethod r lev) := by
  unfold readMethod
  refine .step fun n => .step fun _ => .branch inferInstance (.step fun _ => .branch ?_ ?_)
  · dsimp only
    infer_instance
  · infer_instance

/-- A round of reading the elements of an interface. -/
def readElementAfter (r : Rules) (lev : Int) (acc : List Field) :
    Reader (List Field × Bool) := do
  let i ← item
  match i.tok with
  | .ident _ =>
    let (names, t) ← readMethod r lev
    let t ← if names.isEmpty then readUnionFrom r lev t else pure t
    let trail ← endOfLine
    pure (acc ++ [.mk i.lead names t i.pos trail], true)
  | .sym "~" =>
    let t ← readUnion r lev
    let trail ← endOfLine
    pure (acc ++ [.mk none [] t i.pos trail], true)
  | _ =>
    match ← r .type lev with
    | some t =>
      let t ← readUnionFrom r lev t
      let trail ← endOfLine
      pure (acc ++ [.mk none [] t i.pos trail], true)
    | none => pure (acc, false)

instance readElementAfter_forward (acc : List Field) :
    Forward (readElementAfter r lev acc) := by
  unfold readElementAfter
  refine .step fun i => ?_
  split
  · refine .step fun (names, t) => ?_
    dsimp only
    infer_instance
  · infer_instance
  · refine .step fun t => ?_
    split <;> infer_instance

instance readInterface_forward : Forward (readInterface r lev) := by
  have hround (acc : List Field) : Forward (readElementAfter r lev acc) := inferInstance
  unfold readInterface
  refine @Forward.inScope _ _ (.step fun _ => .step fun _ => .seq ?_ fun fs => inferInstance)
  exact .repeated_of hround []

instance readMap_forward : Forward (readMap r lev) := by unfold readMap; infer_instance

instance readChan_forward : Forward (readChan r lev) := by
  unfold readChan
  dsimp only
  refine .step fun _ => .branch ?_ inferInstance
  infer_instance

theorem typeRule_forward : Forward (typeRule r lev) := by
  unfold typeRule
  refine .step fun t => ?_
  split <;> infer_instance

/-! ## 6. Expressions -/

instance readStmts_forward : Forward (readStmts r lev) := by
  unfold readStmts
  refine .repeated_of (fun _ => .step fun t => ?_) _
  split
  iterate 4 infer_instance
  exact .step fun _ => inferInstance

instance readBlock_forward : Forward (readBlock r lev) := by unfold readBlock; infer_instance

instance readOperand_forward : Forward (readOperand r lev) := by
  unfold readOperand
  refine .step fun t => ?_
  split <;> infer_instance

instance readIndex_forward (x : Expr) : Forward (readIndex r lev x) := by
  have hstop : Forward (do
      match ← tok with
      | .sym ":" | .sym "]" | .eof => pure none
      | _ => some <$> readExpr r (lev + 1)) := by
    refine .step fun t => ?_
    split <;> infer_instance
  unfold readIndex
  dsimp only
  refine .step fun _ => .step fun b => ?_
  refine .branch ?_ ?_
  · refine .step fun first => .step fun t => ?_
    split <;> infer_instance
  · refine .step fun first => .step fun t => ?_
    split <;> infer_instance

instance readCall_forward (f : Expr) : Forward (readCall r lev f) := by
  unfold readCall
  infer_instance

instance readPrimaryFrom_forward (x : Expr) : Forward (readPrimaryFrom r lev x) := by
  unfold readPrimaryFrom
  refine .repeated_of (fun x => .step fun t => ?_) _
  split
  · refine .step fun _ => .step fun t => ?_
    split <;> infer_instance
  · infer_instance
  · infer_instance
  · split <;> infer_instance
  · infer_instance

theorem elementsRule_forward : Forward (elementsRule r lev) := by
  have hvalue : Forward (do
      if ← atSym "\x7b" then let _ ← r .elements (lev + 1)
      else let _ ← readExpr r (lev + 1)) := by
    refine .step fun b => .branch ?_ ?_
    · infer_instance
    · infer_instance
  unfold elementsRule
  refine .step fun _ => .seq (.repeated_of (fun filled => .step fun b => ?_) _) ?_
  · refine .branch inferInstance (.seq hvalue fun _ => .step fun b => ?_)
    infer_instance
  · infer_instance

theorem unaryRule_forward : Forward (unaryRule r lev) := by
  unfold unaryRule
  refine .step fun t => ?_
  split
  · refine .step fun _ => .step fun x => ?_
    split
    · split <;> infer_instance
    · infer_instance
  · exact .step fun _ => .step fun x => inferInstance
  · exact .branch (.step fun _ => .step fun x => inferInstance) inferInstance
  · infer_instance

instance readBinaryFrom_forward (prec : Nat) (x : Expr) :
    Forward (readBinaryFrom r lev prec x) := by
  unfold readBinaryFrom
  refine .repeated_of (fun x => .step fun t => ?_) _
  dsimp only
  split <;> infer_instance

instance readExprs_forward : Forward (readExprs r lev) := by unfold readExprs; infer_instance

/-! ## 7. Declarations -/

instance readGeneric_forward (first : List Param) (more : Bool) :
    Forward (readBracketType.generic r lev first more) := by
  unfold readBracketType.generic
  dsimp only
  infer_instance

/-- The rest of a type declaration, behind its name, a bracket and the expression `x`, which starts
with the name `n`. -/
def readBracketRest (r : Rules) (lev : Int) (n : Name) (x : Expr) :
    Reader (List Field × Bool × Expr) := do
  let force ← atSym ","
  let closed ← atSym "]"
  match x.asTypeParam force with
  | some (_, some c) =>
    let c ← readUnionFrom r lev c
    readBracketType.generic r lev [⟨some n, some c, n.pos⟩] (← comma "]")
  | some (_, none) =>
    if closed then pure ([], false, ← readArray r lev (some x))
    else
      let p ← readParamAfter r lev true n
      readBracketType.generic r lev [p] (← comma "]")
  | none => pure ([], false, ← readArray r lev (some x))

instance readBracketRest_forward (n : Name) (x : Expr) :
    Forward (readBracketRest r lev n x) := by
  unfold readBracketRest
  refine .step fun force => .step fun closed => ?_
  split <;> infer_instance

instance readBracketType_forward : Forward (readBracketType r lev) := by
  have hrest (n : Name) (x : Expr) : Forward (readBracketRest r lev n x) := inferInstance
  unfold readBracketType
  refine .step fun _ => .step fun _ => .branch ?_ inferInstance
  refine .step fun n => .step fun _ => .branch ?_ ?_
  · exact .step fun x => hrest n x
  · exact .step fun lhs => .step fun x => hrest n x

instance readTypeSpec_forward (doc : Option CommentGroup) : Forward (readTypeSpec r lev doc) := by
  unfold readTypeSpec
  refine .step fun n => .step fun b => .branch (.step fun (params, isAlias, t) => ?_) ?_
  · dsimp only
    infer_instance
  · infer_instance

instance readValueSpec_forward (kind : ValueKind) (doc : Option CommentGroup) :
    Forward (readValueSpec r lev kind doc) := by
  have hend (n : Name) (names : List Name) (type : Option Expr) : Forward (do
      if ← trySym "=" then let _ ← readExprs r lev
      let trail ← endOfLine
      pure (⟨doc, names, type, trail⟩ : ValueSpec)) := by
    dsimp only
    infer_instance
  unfold readValueSpec
  refine .step fun n => .step fun names => ?_
  cases kind with
  | const => exact .step fun type => hend n names type
  | var =>
    refine .step fun _ => .branch ?_ ?_
    · exact .seq (.pure none) fun type => hend n names type
    · exact .seq .map fun type => hend n names type

instance readImport_forward : Forward readImport := by
  unfold readImport
  refine .step fun t => ?_
  have hrest : Forward (do
      match ← tok with
      | .lit .string _ => next
      | _ => refuse
      let _ ← endOfLine) := by
    refine .step fun t => ?_
    dsimp only
    split <;> infer_instance
  dsimp only
  split <;> infer_instance

/-- A further line of a declaration behind the lines `acc`. -/
def readSpecAfter {α : Type} (opens : α → Bool) (spec : Option CommentGroup → Reader α)
    (acc : List α) (doc : Option CommentGroup) : Reader (List α) := do
  let (x, inner) ← measured (spec doc)
  let xs := acc ++ [x]
  reach (inner + xs.countP opens)
  pure xs

section Specs

variable {α : Type} {opens : α → Bool} {spec : Option CommentGroup → Reader α}
  [∀ doc, Forward (spec doc)]

instance readSpecAfter_forward (acc : List α) (doc : Option CommentGroup) :
    Forward (readSpecAfter opens spec acc doc) := by
  unfold readSpecAfter
  refine .step fun (x, inner) => ?_
  infer_instance

instance readSpecs_forward : Forward (readSpecs opens spec) := by
  have hread (acc : List α) (doc : Option CommentGroup) :
      Forward (readSpecAfter opens spec acc doc) := inferInstance
  unfold readSpecs
  refine .step fun _ => .branch ?_ (hread [] none)
  refine .seq (.repeated_of (fun acc => .step fun _ => .branch ?_ ?_) _) ?_
  · infer_instance
  · exact .step fun i => .seq (hread acc i.lead) inferInstance
  · infer_instance

end Specs

instance readGeneral_forward : Forward (readGeneral r lev) := by
  unfold readGeneral
  refine .step fun i => ?_
  split <;> infer_instance

/-! ## 8. Statements -/

instance readTargets_forward : Forward (readTargets r lev) := by
  unfold readTargets
  refine .step fun (xs, inner) => ?_
  infer_instance

instance readSimple_forward (at_ : SimplePlace) : Forward (readSimple r lev at_) := by
  unfold readSimple
  refine .step fun (xs, inner) => .step fun t => ?_
  split
  · refine .step fun _ => ?_
    split
    · exact .branch (.step fun _ => inferInstance) inferInstance
    · infer_instance
  iterate 3 infer_instance
  · refine .branch inferInstance ?_
    split <;> infer_instance
  · infer_instance
  · infer_instance

instance asExpr_forward (s : Simple) : Forward (asExpr s) := by
  unfold asExpr
  split <;> infer_instance

instance readCallStmt_forward : Forward (readCallStmt r lev) := by
  unfold readCallStmt
  refine .step fun _ => .step fun x => ?_
  split <;> infer_instance

/-- The tag of a conditional statement, which no brace may stand for. -/
def readCondTag (r : Rules) : Reader Unit := do
  if ← atSym "\x7b" then refuse
  let s ← readSimple r (-1) .plain
  asExpr s

/-- The rest of the header of a conditional statement, behind its first statement. -/
def readCondRest (r : Rules) (first : Option Simple) : Reader Unit := do
  if ← atSym "\x7b" then
    match first with
    | some s => asExpr s
    | none => refuse
  else
    if ← atSemi then next else refuse
    readCondTag r

instance readCondTag_forward : Forward (readCondTag r) := by
  unfold readCondTag
  dsimp only
  infer_instance

instance readCondRest_forward (first : Option Simple) : Forward (readCondRest r first) := by
  unfold readCondRest
  refine .step fun _ => .branch ?_ ?_
  · split <;> infer_instance
  · dsimp only
    infer_instance

instance readCondHeader_forward : Forward (readCondHeader r) := by
  have hfirst : Forward (do
      let first ← if ← atSemi then pure none else some <$> readSimple r (-1) .plain
      readCondRest r first) := by
    dsimp only
    infer_instance
  unfold readCondHeader
  exact .step fun _ => .branch (.step fun _ => hfirst) hfirst

theorem condRule_forward : Forward (condRule r lev) := by
  unfold condRule
  refine @Forward.inScope _ _ ?_
  refine .step fun _ => .step fun _ => .step fun _ => .step fun _ => .branch (.step fun _ => ?_) ?_
  · exact .step fun _ => .branch inferInstance inferInstance
  · infer_instance

instance checkTag_forward (s : Option Simple) : Forward (checkTag s) := by
  unfold checkTag
  split <;> infer_instance

instance readClauses_forward (clause : Reader Unit) [Forward clause] :
    Forward (readClauses r lev clause) := by
  have hround : ∀ _ : Unit, Forward (do
      match ← tok with
      | .word "case" =>
        next
        clause
        sym ":"
        inScope (readStmts r lev)
        pure ((), true)
      | .word "default" =>
        next
        sym ":"
        inScope (readStmts r lev)
        pure ((), true)
      | _ => pure ((), false)) := by
    refine fun _ => .step fun t => ?_
    split <;> infer_instance
  unfold readClauses
  infer_instance

/-- The clauses of a switch behind its tag. -/
def readSwitchBody (r : Rules) (lev : Int) (tag : Option Simple) : Reader Unit := do
  checkTag tag
  readClauses r lev do let _ ← readExprs r lev

/-- The rest of a switch behind its first statement. -/
def readSwitchRest (r : Rules) (lev : Int) (first : Option Simple) : Reader Unit := do
  if ← atSemi then
    next
    if ← atSym "\x7b" then readSwitchBody r lev none
    else
      let tagged : Reader Unit := do
        let tag ← readSimple r (-1) .plain
        readSwitchBody r lev (some tag)
      if first.isSome then inScope tagged else tagged
  else readSwitchBody r lev first

instance readSwitchBody_forward (tag : Option Simple) : Forward (readSwitchBody r lev tag) := by
  unfold readSwitchBody
  infer_instance

instance readSwitchRest_forward (first : Option Simple) :
    Forward (readSwitchRest r lev first) := by
  unfold readSwitchRest
  refine .step fun _ => .branch (.step fun _ => .step fun _ => ?_) inferInstance
  dsimp only
  infer_instance

instance readSwitch_forward : Forward (readSwitch r lev) := by
  have hbody (tag : Option Simple) : Forward (readSwitchBody r lev tag) := inferInstance
  have hrest (first : Option Simple) : Forward (readSwitchRest r lev first) := inferInstance
  unfold readSwitch
  refine @Forward.inScope _ _ (.step fun _ => .step fun _ => .branch (hbody none) ?_)
  refine .step fun _ => .branch ?_ ?_
  · exact .step fun first => hrest first
  · exact .step fun first => hrest first

instance readComm_forward : Forward (readComm r lev) := by
  unfold readComm
  refine .step fun (lhs, _) => .step fun t => ?_
  dsimp only
  split <;> infer_instance

/-- The last clause of a loop header, behind its condition. -/
def readLoopEnd (r : Rules) (middle : Option Simple) : Reader Unit := do
  let _ ← endOfLine
  if !(← atSym "\x7b") then let _ ← readSimple r (-1) .plain
  match middle with
  | some s => asExpr s
  | none => pure ()

/-- The rest of a loop header that ranges over nothing, behind its first statement. -/
def readLoopRest (r : Rules) (first : Option Simple) : Reader Unit := do
  if ← atSemi then
    next
    let middle ←
      if ← atSemi then pure none
      else if ← atSym "\x7b" then refuse
      else some <$> readSimple r (-1) .plain
    readLoopEnd r middle
  else match first with
    | some s => asExpr s
    | none => pure ()

instance readLoopEnd_forward (middle : Option Simple) : Forward (readLoopEnd r middle) := by
  unfold readLoopEnd
  cases middle <;> dsimp only <;> infer_instance

instance readLoopRest_forward (first : Option Simple) : Forward (readLoopRest r first) := by
  unfold readLoopRest
  refine .step fun _ => .branch (.step fun _ => .step fun _ => .step fun _ => ?_) ?_
  · dsimp only
    infer_instance
  · split <;> infer_instance

instance readLoopHeader_forward : Forward (readLoopHeader r) := by
  have hrest (first : Option Simple) : Forward (do
      match first with
      | some (.range n) => if n > 2 then refuse
      | _ => readLoopRest r first) := by
    split <;> infer_instance
  unfold readLoopHeader
  refine .step fun _ => .branch inferInstance (.step fun _ => .step fun _ => .branch ?_ ?_)
  · exact .step fun first => hrest first
  · refine .branch (.step fun _ => .step fun _ => ?_) ?_
    · exact .step fun first => hrest first
    · exact .step fun first => hrest first

/-- A simple statement goes on to the end of its line, a label does not. -/
theorem simpleLine_forward : Forward (do
    match ← readSimple r lev .labels with
    | .labelled => pure ()
    | _ => let _ ← endOfLine) := by
  refine .step fun s => ?_
  split <;> infer_instance

theorem stmtRule_forward : Forward (stmtRule r lev) := by
  obtain ⟨cond, hcond⟩ : ∃ cond : Reader Unit, cond = r .cond lev := ⟨_, rfl⟩
  have hforward : Forward cond := hcond ▸ rule_cond
  unfold stmtRule
  rw [← hcond]
  refine .step fun t => ?_
  split
  iterate 3 infer_instance
  iterate 7 exact simpleLine_forward
  iterate 2 infer_instance
  · refine .step fun _ => .step fun t => ?_
    dsimp only
    split <;> infer_instance
  · infer_instance
  iterate 2
    dsimp only
    infer_instance
  iterate 8 infer_instance
  · exact .branch simpleLine_forward .refuse
  · infer_instance

/-! ## 9. Files -/

instance readFunc_forward : Forward (readFunc r) := by
  have hbody (f : FuncDecl) : Forward (do
      match ← tok with
      | .sym "\x7b" =>
        readBlock r 0
        let _ ← endOfLine
      | .semi _ =>
        next
        if ← atSym "\x7b" then refuse
      | _ =>
        let _ ← endOfLine
      pure f) := by
    refine .step fun t => ?_
    dsimp only
    split <;> infer_instance
  unfold readFunc
  refine .step fun i => .step fun _ => .seq ?_ hbody
  dsimp only
  infer_instance

/-- A round of reading declarations. -/
def readDeclAfter (r : Rules) (acc : List Decl) (imports : Bool) :
    Reader ((List Decl × Bool) × Bool) := do
  match ← tok with
  | .eof => pure ((acc, imports), false)
  | .word "import" =>
    if !imports then refuse
    let d ← readGeneral r 0
    pure ((acc ++ [d], true), true)
  | .word "func" =>
    let f ← readFunc r
    pure ((acc ++ [.func f], false), true)
  | _ =>
    let d ← readGeneral r 0
    pure ((acc ++ [d], false), true)

instance readDeclAfter_forward (acc : List Decl) (imports : Bool) :
    Forward (readDeclAfter r acc imports) := by
  unfold readDeclAfter
  refine .step fun t => ?_
  dsimp only
  split <;> infer_instance

instance readDecls_forward : Forward (readDecls r) := by
  unfold readDecls
  refine .seq (.repeated_of (fun (acc, imports) => ?_) _) fun (ds, _) => .pure ds
  exact readDeclAfter_forward acc imports

end Rules

/-- **The rules of the grammar go forward**, however deep they nest. -/
theorem rulesAt_forward : ∀ depth p lev, Forward (rulesAt depth p lev)
  | 0, _, _ => .refuse
  | n + 1, p, lev => by
      have hr : ∀ q l, Forward (rulesAt n q l) := rulesAt_forward n
      cases p with
      | type => exact typeRule_forward
      | unary => exact unaryRule_forward
      | binary prec =>
        exact .step fun x => readBinaryFrom_forward prec x
      | elements => exact elementsRule_forward
      | stmt => exact stmtRule_forward
      | cond => exact condRule_forward

end DocAudit.Source
