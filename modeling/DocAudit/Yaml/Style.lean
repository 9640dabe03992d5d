import DocAudit.Yaml.Node

/-!
# In which style a text is written

A scalar is written in the style asked for as far as its text allows it: a plain text must not look
like something else, quotes and blocks need characters that can be written as they are, and between
double quotes everything has a form.

* `allowedStyles` says what a text allows, and `chooseStyle` which style it gets.
-/

namespace DocAudit.Yaml

open DocAudit.Text

/-- A character that is written as it is. -/
def isWritable (c : Char) : Bool :=
  let n := c.toNat
  n == 0x0A || (0x20 ≤ n && n ≤ 0x7E) || (0xA0 ≤ n && n ≤ 0xD7FF) ||
    (0xE000 ≤ n && n ≤ 0xFFFD && n != 0xFEFF)

/-- Line breaks of a scalar's text. -/
def isTextBreak (c : Char) : Bool := isBreakChar c || c == '\r' || c.toNat == 0x85
where
  /-- A newline or a separator of lines or paragraphs. -/
  isBreakChar (c : Char) : Bool := c == '\n' || c.toNat == 0x2028 || c.toNat == 0x2029

/-- In which styles a text can be written. -/
structure Allowed where
  multiline : Bool
  flowPlain : Bool
  blockPlain : Bool
  single : Bool
  block : Bool
deriving Repr, DecidableEq

/-- Whether a list has two neighbours of the given kinds. -/
def hasPair {α : Type} (p q : α → Bool) : List α → Bool
  | a :: b :: r => (p a && q b) || hasPair p q (b :: r)
  | _ => false

/-- A blank in a line, or nothing. -/
def blankOrEnd : List Char → Bool
  | c :: _ => c == ' ' || c == '\t'
  | [] => true

/-- Characters that mark something in flow context when they start a text. -/
def startMarks : List Char := "#,[]\x7b\x7d&*!|>'\"%@`".toList

/-- Whether a text has a mark of flow context and one of block context; `gap` tells whether a
blank, a break or the start comes before it. -/
def innerMarks (gap : Bool) : List Char → Bool × Bool
  | [] => (false, false)
  | c :: cs =>
    let (f, b) := innerMarks (c == ' ' || c == '\t' || isTextBreak c || c.toNat == 0) cs
    if c == ',' || c == '?' || c == '[' || c == ']' || c == '\x7b' || c == '\x7d' then (true, b)
    else if c == ':' then (true, b || blankOrEnd cs)
    else if c == '#' && gap then (true, true)
    else (f, b)

/-- Whether a text has a mark of flow context and one of block context. -/
def marks (cs : List Char) : Bool × Bool :=
  match cs with
  | [] => (false, false)
  | c :: r =>
    let gap := c == ' ' || c == '\t' || isTextBreak c || c.toNat == 0
    let (f, b) := innerMarks gap r
    let document := startsWith ['-', '-', '-'] cs || startsWith ['.', '.', '.'] cs
    if document || startMarks.contains c then (true, true)
    else if c == '?' || c == ':' then (true, b || blankOrEnd r)
    else if c == '-' && blankOrEnd r then (true, true)
    else (f, b)

/-- The styles that a text allows. -/
def allowedStyles (cs : List Char) : Allowed :=
  if cs.isEmpty then ⟨false, false, true, true, false⟩
  else
    let space (c : Char) : Bool := c == ' '
    let edge (p : Char → Bool) : Bool :=
      (cs.head?.map p).getD false || (cs.getLast?.map p).getD false
    let trailingSpace := cs.getLast? == some ' '
    let breakSpace := hasPair isTextBreak space cs
    let spaceBreak := hasPair space isTextBreak cs
    let tabs := cs.contains '\t'
    let special := cs.any fun c => c != '\t' && !isWritable c
    let breaks := cs.any isTextBreak
    let (flowMarks, blockMarks) := marks cs
    let plain := !(edge space || edge isTextBreak || breakSpace || spaceBreak || tabs || special ||
      breaks)
    { multiline := breaks
      flowPlain := plain && !flowMarks
      blockPlain := plain && !blockMarks
      single := !(breakSpace || spaceBreak || tabs || special)
      block := !(trailingSpace || spaceBreak || special) }

/-- The style in which a text is written, given the style asked for. -/
def chooseStyle (flow key : Bool) (style : ScalarStyle) (cs : List Char) : ScalarStyle :=
  let a := allowedStyles cs
  let style := if key && a.multiline then ScalarStyle.double else style
  let style :=
    if style == .plain && ((if flow then !a.flowPlain else !a.blockPlain) ||
      (cs.isEmpty && (flow || key))) then ScalarStyle.single else style
  let style := if style == .single && !a.single then ScalarStyle.double else style
  if (style == .literal || style == .folded) && (!a.block || flow || key) then .double else style

end DocAudit.Yaml
