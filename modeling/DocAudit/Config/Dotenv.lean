import DocAudit.Config.Load
import DocAudit.Text.Blank
import DocAudit.Text.Category

/-!
# Files of variables

A file of variables holds one `NAME=value` after the other, with comments between them.  A value may
stand between quotes; inside double quotes and without quotes, `$NAME` stands for a variable that
the file has set before.

* A file that cannot be read to its end sets nothing.
* `withFile` keeps what the environment already says.
-/

namespace DocAudit.Config.Dotenv

open DocAudit.Text

/-! ## 1. Characters -/

/-- A blank inside a line. -/
def isGap (c : Char) : Bool :=
  let n := c.toNat
  n == 9 || n == 11 || n == 12 || n == 13 || n == 0x20 || n == 0x85 || n == 0xA0

/-- A byte of a name, as the character of its number. -/
def isNameByte (b : UInt8) : Bool :=
  let c := Char.ofNat b.toNat
  c == '_' || c == '.' || isGap c || isLetter c ||
    Category.has .nd c || Category.has .nl c || Category.has .no c

/-- A character of a name: each of its bytes must be one. -/
def isNameChar (c : Char) : Bool := (String.ofList [c]).toUTF8.toList.all isNameByte

/-- A character that a `$` can be followed by in a value. -/
def isVariableChar (c : Char) : Bool :=
  ('A' ≤ c && c ≤ 'Z') || ('0' ≤ c && c ≤ '9') || c == '_'

/-! ## 2. Values -/

/-- An optional character at the start of a text, and what follows it. -/
def dropOne (c : Char) : List Char → List Char × List Char
  | d :: cs => if d == c then ([d], cs) else ([], d :: cs)
  | [] => ([], [])

/-- What stands after a `$`: an opening parenthesis or brace, a name, and a closing brace, all of
which may be missing; with the whole text of it and what follows. -/
def reference (cs : List Char) : List Char × List Char × List Char :=
  let (paren, cs) := dropOne '(' cs
  let (brace, cs) := dropOne '\x7b' cs
  let name := cs.takeWhile isVariableChar
  let (close, cs) := dropOne '\x7d' (cs.dropWhile isVariableChar)
  (name, paren ++ brace ++ name ++ close, cs)

/-- A value with its references replaced; a backslash before a `$` keeps it.  `fuel` bounds the
length. -/
def expandFrom (vars : Environment) : (fuel : Nat) → List Char → List Char
  | 0, _ => []
  | n + 1, cs =>
    match cs with
    | [] => []
    | '\\' :: '$' :: rest =>
      let (_, whole, after) := reference rest
      '$' :: whole ++ expandFrom vars n after
    | '$' :: rest =>
      let (name, whole, after) := reference rest
      (if name.isEmpty then '$' :: whole
        else ((vars.lookup (String.ofList name)).getD "").toList) ++ expandFrom vars n after
    | c :: rest => c :: expandFrom vars n rest

/-- A value with its references replaced. -/
def expand (vars : Environment) (cs : List Char) : List Char := expandFrom vars (cs.length + 1) cs

/-- The escapes for the ends of lines. -/
def lineEscapes : List Char → List Char
  | '\\' :: 'n' :: rest => '\n' :: lineEscapes rest
  | '\\' :: 'r' :: rest => '\r' :: lineEscapes rest
  | '\\' :: '\n' :: rest => '\\' :: '\n' :: lineEscapes rest
  | '\\' :: c :: rest => '\\' :: c :: lineEscapes rest
  | c :: rest => c :: lineEscapes rest
  | [] => []

/-- The other escapes: a character stands for itself, but for `$`. -/
def plainEscapes : List Char → List Char
  | '\\' :: '$' :: rest => '\\' :: '$' :: plainEscapes rest
  | '\\' :: c :: rest => c :: plainEscapes rest
  | c :: rest => c :: plainEscapes rest
  | [] => []

/-- What stands before the last `#` after a blank, in a reversed line; `none` if there is no such
sign. -/
def beforeComment : List Char → Option (List Char)
  | '#' :: c :: rest => if isGap c then some (c :: rest) else beforeComment (c :: rest)
  | _ :: rest => beforeComment rest
  | [] => none

/-- The value of a line without quotes. -/
def bareValue (vars : Environment) (line : List Char) : List Char :=
  let kept := match beforeComment line.reverse with
    | some r => r.reverse
    | none => line
  expand vars (trimBy isGap kept)

/-- What stands before the closing quote, and what after it; a quote after a backslash closes
nothing.  `seen` holds what has been passed, in reverse. -/
def closeQuote (quote : Char) (seen : List Char) : List Char → Option (List Char × List Char)
  | [] => none
  | c :: cs =>
    if c == quote && seen.head? != some '\\' then some (seen.reverse, cs)
    else closeQuote quote (c :: seen) cs

/-- The value at the start of a text, and what follows it. -/
def readValue (vars : Environment) (cs : List Char) : Option (List Char × List Char) :=
  let isEnd (c : Char) : Bool := c == '\n' || c == '\r'
  match cs with
  | c :: rest =>
    if c == '"' || c == '\'' then
      match closeQuote c [c] rest with
      | none => none
      | some (inside, after) =>
        let bare := trimBy (· == c) inside
        some (if c == '"' then expand vars (plainEscapes (lineEscapes bare)) else bare, after)
    else some (bareValue vars (cs.takeWhile fun c => !isEnd c), cs.dropWhile fun c => !isEnd c)
  | [] => some ([], [])

/-! ## 3. Statements -/

/-- What is left after blanks, ends of lines and comments; `fuel` bounds the number of comments. -/
def skipToStatement : (fuel : Nat) → List Char → List Char
  | 0, cs => cs
  | n + 1, cs =>
    match cs.dropWhile isBlank with
    | '#' :: rest => skipToStatement n (rest.dropWhile (· != '\n'))
    | rest => rest

/-- A text without the word `export` and the blanks after it. -/
def dropExport (cs : List Char) : List Char :=
  match dropStart? "export".toList cs with
  | some (c :: rest) => if isGap c then (c :: rest).dropWhile isGap else cs
  | _ => cs

/-- The name at the start of a text, up to `=` or `:`, and what follows it; `none` if another
character comes first or there is no text.  Without a sign the name is empty and nothing is
passed. -/
def readName (cs : List Char) : Option (List Char × List Char) :=
  let name := cs.takeWhile isNameChar
  match cs.dropWhile isNameChar with
  | [] => if cs.isEmpty then none else some ([], cs)
  | c :: rest => if c == '=' || c == ':' then some (dropEndWhile isBlank name, rest) else none

/-- The variables that the statements of a text set, over those set so far. -/
def statements : (fuel : Nat) → Environment → List Char → Option Environment
  | 0, vars, _ => some vars
  | n + 1, vars, cs => do
    match skipToStatement (cs.length + 1) cs with
    | [] => some vars
    | start =>
      let (name, rest) ← readName (dropExport (start.dropWhile isGap))
      let (value, after) ← readValue vars (rest.dropWhile isGap)
      statements n ((String.ofList name, String.ofList value) :: vars) after

/-- A text with one character for the end of each line. -/
def joinLineEnds : List Char → List Char
  | '\r' :: '\n' :: rest => '\n' :: joinLineEnds rest
  | c :: rest => c :: joinLineEnds rest
  | [] => []

/-- **The variables that a text sets**, those set last first. -/
def read? (text : String) : Option Environment :=
  let cs := joinLineEnds text.toList
  statements (cs.length + 1) [] cs

/-- An environment with the variables of a text added; a variable that is there already stays. -/
def withFile (env : Environment) (text : String) : Environment := env ++ (read? text).getD []

end DocAudit.Config.Dotenv
