import DocAudit.Yaml.Style

/-!
# Pages

A page is the text written so far, together with what decides how the next thing is set: the
column, whether a blank is needed, whether the line is still open for indentation, and the comments
that wait for their place.

* `Page.indent` goes to an indentation, on a new line if need be.
* `Page.sign` writes an indicator or a word.
* `Page.scalar` writes the text of a scalar in a style.
-/

namespace DocAudit.Yaml

open DocAudit.Text

/-- A page. -/
structure Page where
  text : String
  column : Nat
  /-- Whether the last thing written divides words. -/
  gap : Bool
  /-- Whether the line holds nothing but indentation and indicators that count as such. -/
  isOpen : Bool
  /-- The indentation of the comment just written below something.  What follows there stands apart
  by an empty line. -/
  foot : Option Nat
  /-- The comments that wait for their place. -/
  remarks : Remarks
  /-- The comment below the entry before. -/
  tail : String
  /-- The comment behind a key, which waits for the value. -/
  keyRemark : String
deriving Repr, DecidableEq

namespace Page

/-- The empty page. -/
def empty : Page := ⟨"", 0, true, true, none, .none, "", ""⟩

/-! ## 1. Words and lines -/

/-- Writes a text within a line. -/
def put (p : Page) (s : String) : Page :=
  { p with text := p.text ++ s, column := p.column + s.length }

/-- Ends a line with a line break. -/
def break_ (p : Page) (c : Char) : Page :=
  { p with text := p.text.push c, column := 0, isOpen := true }

/-- Ends a line. -/
def newline (p : Page) : Page := p.break_ '\n'

/-- Goes to an indentation. -/
def indent (p : Page) (i : Nat) : Page :=
  let p := if !p.isOpen || p.column > i || (p.column == i && !p.gap) then p.newline else p
  let p := if p.foot == some i then p.newline else p
  { p.put (rep (i - p.column) ' ') with gap := true, foot := none }

/-- Writes an indicator or a word: `apart` asks for a blank before it, `gap` tells whether it
divides words itself, and `isOpen` whether it counts as indentation. -/
def sign (p : Page) (s : String) (apart gap isOpen : Bool) : Page :=
  let p := if apart && !p.gap then p.put " " else p
  { p.put s with gap := gap, isOpen := p.isOpen && isOpen }

/-- Writes a word apart from what comes before. -/
def word (p : Page) (s : String) : Page := p.sign s true false false

/-- Writes a word right behind what comes before. -/
def glue (p : Page) (s : String) : Page := p.sign s false false false

/-! ## 2. Comments -/

/-- The characters of a comment: `breaks` tells whether a line is to be started, and `marked`
whether the line has its mark. -/
def commentChars (i : Nat) : (breaks marked : Bool) → List Char → Page → Page
  | breaks, _, [], p => if breaks then p else p.newline
  | breaks, marked, c :: cs, p =>
    if isTextBreak c then commentChars i true false cs (p.break_ c)
    else
      let p := if breaks then p.indent i else p
      let p := if !marked && c != '#' then p.put "# " else p
      commentChars i false true cs { p.put (String.singleton c) with isOpen := false }

/-- Writes a comment, its later lines at an indentation. -/
def comment (p : Page) (i : Nat) (text : String) : Page :=
  { commentChars i false false text.toList p with gap := true }

/-- The comments of something that comes next replace those that wait. -/
def expect (p : Page) (r : Remarks) (tail : String) : Page :=
  let pick (old new : String) : String := if new == "" then old else new
  { p with
    remarks := ⟨pick p.remarks.above r.above, pick p.remarks.behind r.behind,
      pick p.remarks.below r.below⟩
    tail := pick p.tail tail }

/-- Writes the comment below the entry before. -/
def writeTail (p : Page) (i : Nat) : Page :=
  if p.tail == "" then p else { (p.indent i).comment i p.tail with tail := "", foot := some i }

/-- Writes the comments that stand above what comes next. -/
def writeAbove (p : Page) (i : Nat) : Page :=
  let p := p.writeTail i
  if p.remarks.above == "" then p
  else { (p.indent i).comment i p.remarks.above with remarks.above := "" }

/-- Writes the comment behind what was written last. -/
def writeBehind (p : Page) (i : Nat) : Page :=
  if p.remarks.behind == "" then p
  else
    { (if p.gap then p else p.put " ").comment i p.remarks.behind with remarks.behind := "" }

/-- Writes the comment below what was written last. -/
def writeBelow (p : Page) (i : Nat) : Page :=
  if p.remarks.below == "" then p
  else { (p.indent i).comment i p.remarks.below with remarks.below := "", foot := some i }

/-- Writes the comments behind and below what was written last. -/
def writeAfter (p : Page) (i : Nat) : Page := (p.writeBehind i).writeBelow i

/-- Whether a comment waits that goes behind or below. -/
def trails (p : Page) : Bool := p.remarks.behind != "" || p.remarks.below != "" || p.tail != ""

/-! ## 3. Scalars -/

/-- The letter of an escape, for the characters that have one. -/
def escapeLetters : List (Nat × Char) := [
  (0, '0'), (7, 'a'), (8, 'b'), (9, 't'), (10, 'n'), (11, 'v'), (12, 'f'), (13, 'r'), (27, 'e'),
  (34, '"'), (92, '\\'), (0x85, 'N'), (0xA0, '_'), (0x2028, 'L'), (0x2029, 'P')]

/-- A number in upper-case hexadecimal digits, padded to a width. -/
def hexDigits : (width : Nat) → (n : Nat) → List Char
  | 0, _ => []
  | w + 1, n => hexDigits w (n / 16) ++ [(Nat.digitChar (n % 16)).toUpper]

/-- The escape of a character. -/
def escaped (c : Char) : List Char :=
  match escapeLetters.lookup c.toNat with
  | some l => ['\\', l]
  | none =>
    let n := c.toNat
    if n ≤ 0xFF then '\\' :: 'x' :: hexDigits 2 n
    else if n ≤ 0xFFFF then '\\' :: 'u' :: hexDigits 4 n
    else '\\' :: 'U' :: hexDigits 8 n

/-- The characters of a text between double quotes.  In a text that starts with a byte order mark
every one is escaped. -/
def doubleChars (cs : List Char) : List Char :=
  let marked := cs.head?.any fun c => c.toNat == 0xFEFF
  cs.flatMap fun c =>
    if marked || !isWritable c || isTextBreak c || c == '"' || c == '\\' then escaped c else [c]

/-- The characters of a text between single quotes, later lines at an indentation; `breaks` tells
whether a line has just been ended. -/
def singleChars (i : Nat) : (breaks : Bool) → List Char → Page → Page
  | _, [], p => p
  | breaks, c :: cs, p =>
    if isTextBreak c then
      let p := if !breaks && c == '\n' then p.newline else p
      singleChars i true cs (p.break_ c)
    else if c == ' ' then singleChars i breaks cs (p.put " ")
    else
      let p := if breaks then p.indent i else p
      singleChars i false cs
        { p.put (if c == '\'' then "''" else String.singleton c) with isOpen := false }

/-- The indicators behind the sign of a block scalar: an indentation where the text starts with a
blank, and what becomes of its last line breaks. -/
def blockHints (cs : List Char) : List Char :=
  let start := match cs.head? with
    | some c => if c == ' ' || isTextBreak c then ['2'] else []
    | none => []
  let chomp := match cs.reverse with
    | [] => ['-']
    | c :: r =>
      if !isTextBreak c then ['-']
      else match r with
        | [] => ['+']
        | d :: _ => if isTextBreak d then ['+'] else []
  start ++ chomp

/-- The lines of a literal scalar; `breaks` tells whether a line is to be started. -/
def literalChars (i : Nat) : (breaks : Bool) → List Char → Page → Page
  | _, [], p => p
  | breaks, c :: cs, p =>
    if isTextBreak c then literalChars i true cs (p.break_ c)
    else
      let p := if breaks then p.indent i else p
      literalChars i false cs { p.put (String.singleton c) with isOpen := false }

/-- The lines of a folded scalar: a line break inside the text is written twice, if `twice`, but
not next to a line that starts with a blank. -/
def foldedChars (i : Nat) (twice : Bool) : (breaks blank : Bool) → List Char → Page → Page
  | _, _, [], p => p
  | breaks, blank, c :: cs, p =>
    if isTextBreak c then
      let p := if !breaks && !blank && c == '\n' && twice then p.newline else p
      foldedChars i twice true blank cs (p.break_ c)
    else
      let p := if breaks then p.indent i else p
      foldedChars i twice false (if breaks then c == ' ' || c == '\t' else blank) cs
        { p.put (String.singleton c) with isOpen := false }

/-- The line that starts a block scalar, with the comment behind it. -/
def blockStart (p : Page) (i : Nat) (mark : Char) (cs : List Char) : Page :=
  let p := (p.word (String.singleton mark)).glue (String.ofList (blockHints cs))
  { p.writeBehind i with gap := true }

/-- **Writes the text of a scalar in a style**, later lines at an indentation. -/
def scalar (p : Page) (i : Nat) (style : ScalarStyle) (v : String) : Page :=
  let cs := v.toList
  match style with
  | .plain => if v == "" then { p with isOpen := false } else p.word v
  | .single => (singleChars i false cs (p.word "'")).glue "'"
  | .double => p.word ("\"" ++ String.ofList (doubleChars cs) ++ "\"")
  | .literal => literalChars i true cs (p.blockStart i '|' cs)
  | .folded =>
    let twice := !blankOrEnd (cs.dropWhile isTextBreak)
    foldedChars i twice true true cs (p.blockStart i '>' cs)

end Page

end DocAudit.Yaml
