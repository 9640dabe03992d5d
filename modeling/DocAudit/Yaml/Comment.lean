import DocAudit.Yaml.Cell

/-!
# Comments of a document

A comment belongs to a token: it stands in the lines above it (a head), behind it on its line, or
below it (a foot).  Which of these it is shows only in what follows: comment lines are gathered
together, and the first empty line or a change of the column divides the foot of what came before
from the head of what comes next.

* `gatherComments` reads the comment lines from a place on.
* `lineComment?` reads the comment behind a token.
-/

namespace DocAudit.Yaml

/-! ## 1. Comments -/

/-- Where a comment stands with regard to its token. -/
inductive CommentKind where
  | head
  | line
  | foot
deriving Repr, DecidableEq, Inhabited

/-- A comment. -/
structure Comment where
  kind : CommentKind
  text : String
  /-- The index where the search for it started. -/
  scan : Nat
  /-- The index from which on a token takes it. -/
  token : Nat
  /-- Where it starts; in heads and feet the column counts from one. -/
  start : Mark
  /-- The index where it ends; zero for the comment of a line. -/
  stop : Nat
deriving Repr, DecidableEq, Inhabited

/-- How far a comment is looked for. -/
def commentReach : Nat := 512

/-- The text of a comment at the start of some cells, and the cells from the line's end on. -/
def takeComment (cs : List Cell) : String × List Cell :=
  (String.ofList ((cs.takeWhile fun c => !isLineEnd c.char).map (·.char)),
    cs.dropWhile fun c => !isLineEnd c.char)

/-- The cells behind at most `room` blanks. -/
def skipGaps : (room : Nat) → List Cell → List Cell
  | 0, cs => cs
  | _ + 1, [] => []
  | room + 1, c :: cs => if isGap c.char then skipGaps room cs else c :: cs

/-- The comment behind a token that starts at an index, if there is one, and the cells behind
it; fails where they cannot be looked at. -/
def lineComment? (token : Nat) (cs : List Cell) : Option (Option Comment × List Cell) :=
  if breaksAt cs > 0 then some (none, cs)
  else
    let next := skipGaps (commentReach - 1) cs
    if next.isEmpty then none
    else if startsAt '#' next then
      let (text, rest) := takeComment next
      some (some ⟨.line, text, 0, token, markAt next, 0⟩, rest)
    else some (none, cs)

/-! ## 2. Gathering comment lines -/

/-- What is seen when looking ahead: a line break of several bytes shows its later bytes as
something that is neither blank nor break. -/
inductive Glimpse where
  | gap
  | break_
  | end_
  | closing
  | hash
  | other
deriving Repr, DecidableEq

/-- What is seen behind the first byte of a line break, or at the end. -/
def Cell.after (c : Cell) : List Glimpse :=
  if c.char == endMark then [.end_]
  else match c.form with
    | .one => []
    | .pair => [.break_]
    | .wide => [.other]

/-- What is seen of a cell; in flow context a closing bracket counts. -/
def Cell.glimpse (flow : Bool) (c : Cell) : Glimpse :=
  if isGap c.char then .gap
  else if isBreak c.char then .break_
  else if c.char == endMark then .end_
  else if flow && (c.char == ']' || c.char == '\x7d') then .closing
  else if c.char == '#' then .hash
  else .other

/-- What decides between foot and head. -/
structure CommentContext where
  /-- Whether a flow collection is open. -/
  flow : Bool
  /-- The column of the innermost block collection, zero outside. -/
  indent : Nat
  /-- The line on which a foot of what came before would start, if it can have one. -/
  footLine : Option Nat

/-- What has been gathered. -/
structure Gathering where
  scan : Nat
  token : Nat
  start : Mark
  text : String
  /-- Whether the next empty line is the first one. -/
  first : Bool
  /-- Whether the last line was empty. -/
  empty : Bool
  /-- The comments that are complete, the last one first. -/
  found : List Comment

/-- Whether a comment starts before the column of the block. -/
def Gathering.isDedented (g : Gathering) (ctx : CommentContext) : Bool :=
  decide (g.start.column < ctx.indent + 1)

/-- What has been gathered is a foot that ends at an index. -/
def Gathering.close (g : Gathering) (token stop : Nat) : Gathering :=
  { g with
    found := ⟨.foot, g.text, g.scan, token, g.start, stop⟩ :: g.found
    scan := stop
    token := stop
    text := "" }

/-- What has been gathered when a line ends, a collection is closed or the stream ends. -/
def Gathering.atLineEnd (ctx : CommentContext) (g : Gathering) (seen : Glimpse) (index : Nat) :
    Gathering :=
  let isFoot := seen == .closing ||
    (g.first && (some g.start.line == ctx.footLine || g.isDedented ctx))
  if seen == .closing || !g.empty then
    if isFoot then
      if g.text == "" then g
      else g.close (if g.isDedented ctx then g.start.index else g.token) index
    else if g.text != "" && seen != .end_ then { g with text := g.text ++ "\n" }
    else g
  else g

/-- Where looking ahead has come: the index, the line and the column, which counts from one. -/
structure Lookout where
  index : Nat
  line : Nat
  column : Nat

/-- Looks ahead for the next comment line.  The last part of the result is the cells from it on, if
there is one. -/
def lookAhead (ctx : CommentContext) : (room : Nat) → Lookout → Gathering → List Glimpse →
    List Cell → Option (Gathering × Lookout × Option (List Cell))
  | 0, at_, g, _, _ => some (g, at_, none)
  | room + 1, at_, g, ahead, cs =>
    let next : Option (Glimpse × List Glimpse × List Cell) := match ahead, cs with
      | s :: ahead, cs => some (s, ahead, cs)
      | [], [] => none
      | [], c :: cs =>
        some (c.glimpse ctx.flow, if isBreak c.char then c.after else [], cs)
    match next with
    | none => none
    | some (seen, ahead', cs') =>
      let at_ := { at_ with column := at_.column + 1 }
      let further : Lookout := { at_ with index := at_.index + 1 }
      match seen with
      | .gap => lookAhead ctx room further g ahead' cs'
      | .break_ =>
        let g := { g.atLineEnd ctx seen at_.index with first := false, empty := true }
        lookAhead ctx room { further with line := at_.line + 1, column := 0 } g ahead' cs'
      | .end_ | .closing => some (g.atLineEnd ctx seen at_.index, at_, none)
      | .hash | .other =>
        let g := if g.text != "" && decide (at_.column < ctx.indent + 1) &&
            at_.column != g.start.column then g.close g.token at_.index else g
        some (g, at_, if seen == .hash then some cs else none)

/-- Reads comment lines one after the other; `rest` is what stands behind the last one read. -/
def gatherLines (ctx : CommentContext) : (fuel : Nat) → (room : Nat) → Lookout → Gathering →
    List Glimpse → (ahead rest : List Cell) → Option (List Comment × List Cell)
  | 0, _, _, _, _, _, _ => none
  | fuel + 1, room, at_, g, glimpses, ahead, rest => do
    let (g, at_, next) ← lookAhead ctx room at_ g glimpses ahead
    match next with
    | none =>
      let found := if g.text == "" then g.found
        else ⟨.head, g.text, g.scan, g.start.index, g.start, at_.index - 1⟩ :: g.found
      return (found.reverse, rest)
    | some cells =>
      let g := if g.text == "" then { g with start := ⟨at_.index, at_.line, at_.column⟩ }
        else { g with text := g.text ++ "\n" }
      let (text, rest) := takeComment cells
      let g := { g with text := g.text ++ text, empty := false }
      match rest with
      | [] => none
      | c :: after =>
        let m := c.mark
        gatherLines ctx fuel (commentReach - 1) ⟨m.index + 1, m.line, 0⟩ g c.after
          (if c.char == endMark then [] else after) rest

/-- **The comments of the lines from a place on**, and the cells behind the last of them.  `scan`
is the index where the search started, and `token` that of the token before; `fuel` bounds the
number of lines. -/
def gatherComments (ctx : CommentContext) (fuel : Nat) (scan token : Nat) (cs : List Cell) :
    Option (List Comment × List Cell) :=
  let m := markAt cs
  gatherLines ctx fuel commentReach ⟨m.index, m.line, m.column⟩
    ⟨scan, token, m, "", decide (breaksAt cs ≤ 1), false, []⟩ [] cs cs

end DocAudit.Yaml
