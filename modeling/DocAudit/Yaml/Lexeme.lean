import DocAudit.Yaml.Comment
import DocAudit.Text.CharTable

/-!
# Scalars, names and tags in a document

The parts of a document that are longer than an indicator: flow scalars, which may be plain or
quoted and fold their line breaks, block scalars, names of anchors, and tags.  Each function takes
the cells from the part's start on, and gives what it found and the cells behind it; it fails where
the part is malformed or the cells stop before its end.
-/

namespace DocAudit.Yaml

open DocAudit.Text

/-! ## 1. Flow scalars -/

/-- Blanks and line breaks that are held back until it is known what follows them: blanks of the
line, or, after a first break, that break and the later ones.  All lists are in reverse. -/
structure Held where
  blanks : List Char
  /-- The first break; an escaped one leaves no character. -/
  first : Option (List Char)
  later : List Char
deriving Repr, Inhabited

/-- Nothing held back. -/
def Held.none : Held := ⟨[], .none, []⟩

/-- One more blank; at the start of a line it is dropped. -/
def Held.blank (h : Held) (c : Char) : Held :=
  if h.first.isSome then h else { h with blanks := c :: h.blanks }

/-- One more line break. -/
def Held.break_ (h : Held) (c : Char) : Held :=
  match h.first with
  | .none => ⟨[], some [c], []⟩
  | some _ => { h with later := c :: h.later }

/-- What is held back as it stands in the scalar, in reverse: a single newline folds to a blank. -/
def Held.folded (h : Held) : List Char :=
  match h.first with
  | .none => h.blanks
  | some f =>
    if f == ['\n'] then (if h.later.isEmpty then [' '] else h.later) else h.later ++ f

/-- A plain scalar: its text, whether a line break was consumed after its start, and the rest.
`limit` is the column that later lines have to reach, and `text` what has been read, in reverse. -/
def scanPlain (flow : Bool) (limit : Int) (inWord : Bool) (text : List Char) (held : Held) :
    List Cell → Option (String × Bool × List Cell)
  | [] => none
  | c :: cs =>
    if isGap c.char then
      if held.first.isSome && c.mark.column < limit && c.char == '\t' then none
      else scanPlain flow limit false text (held.blank c.char) cs
    else if isBreak c.char then scanPlain flow limit false text (held.break_ c.char) cs
    else if c.char == endMark ||
        (!inWord && !text.isEmpty && !flow && decide ((c.mark.column : Int) < limit)) ||
        (!inWord && (c.char == '#' || atDocumentMark (c :: cs))) ||
        (c.char == ':' && isSeparator (charAt cs)) ||
        (flow && (c.char == ',' || c.char == '?' || c.char == '[' || c.char == ']' ||
          c.char == '\x7b' || c.char == '\x7d')) then
      some (String.ofList text.reverse, held.first.isSome, c :: cs)
    else scanPlain flow limit true (c.char :: (held.folded ++ text)) .none cs

/-- A scalar between single quotes, after the opening one; `quote` tells whether the last character
was a quote that may close it. -/
def scanSingle (quote : Bool) (text : List Char) (held : Held) :
    List Cell → Option (String × List Cell)
  | [] => none
  | c :: cs =>
    if quote then
      if c.char == '\'' then scanSingle false ('\'' :: text) .none cs
      else some (String.ofList text.reverse, c :: cs)
    else if c.char == endMark || atDocumentMark (c :: cs) then none
    else if isGap c.char then scanSingle false text (held.blank c.char) cs
    else if isBreak c.char then scanSingle false text (held.break_ c.char) cs
    else if c.char == '\'' then scanSingle true (held.folded ++ text) .none cs
    else scanSingle false (c.char :: (held.folded ++ text)) .none cs

/-- The characters that an escape of one character stands for. -/
def escapes : List (Char × Nat) := [
  ('0', 0), ('a', 7), ('b', 8), ('t', 9), ('\t', 9), ('n', 10), ('v', 11), ('f', 12), ('r', 13),
  ('e', 27), (' ', 32), ('"', 34), ('\'', 39), ('\\', 92), ('N', 0x85), ('_', 0xA0), ('L', 0x2028),
  ('P', 0x2029)]

/-- The number of digits of an escape by number. -/
def escapeDigits (c : Char) : Nat :=
  if c == 'x' then 2 else if c == 'u' then 4 else if c == 'U' then 8 else 0

/-- Where the scanning of a double-quoted scalar is. -/
inductive Quoting where
  | open_
  | escape
  | digits (left value : Nat)
deriving Repr, DecidableEq

/-- A scalar between double quotes, after the opening one. -/
def scanDouble (state : Quoting) (text : List Char) (held : Held) :
    List Cell → Option (String × List Cell)
  | [] => none
  | c :: cs =>
    match state with
    | .open_ =>
      if c.char == endMark || atDocumentMark (c :: cs) then none
      else if isGap c.char then scanDouble .open_ text (held.blank c.char) cs
      else if isBreak c.char then scanDouble .open_ text (held.break_ c.char) cs
      else if c.char == '"' then some (String.ofList (held.folded ++ text).reverse, cs)
      else if c.char == '\\' then scanDouble .escape (held.folded ++ text) .none cs
      else scanDouble .open_ (c.char :: (held.folded ++ text)) .none cs
    | .escape =>
      if isBreak c.char then scanDouble .open_ text ⟨[], some [], []⟩ cs
      else match escapes.lookup c.char with
        | some n => scanDouble .open_ (Char.ofNat n :: text) .none cs
        | none =>
          let k := escapeDigits c.char
          if k == 0 then none else scanDouble (.digits k 0) text .none cs
    | .digits left value =>
      match hexDigit? c.char with
      | none => none
      | some d =>
        let v := value * 16 + d
        if left > 1 then scanDouble (.digits (left - 1) v) text .none cs
        else if (0xD800 ≤ v && v ≤ 0xDFFF) || v > 0x10FFFF then none
        else scanDouble .open_ (Char.ofNat v :: text) .none cs

/-! ## 2. Block scalars -/

/-- What becomes of the line breaks at the end of a block scalar. -/
inductive Chomping where
  | clip
  | strip
  | keep
deriving Repr, DecidableEq

/-- The chomping that an indicator asks for. -/
def chomping? (c : Char) : Option Chomping :=
  if c == '+' then some .keep else if c == '-' then some .strip else none

/-- The digit of an indentation indicator, which is not zero; the flag tells whether there is a
zero. -/
def indentDigit? (c : Char) : Option Nat :=
  if '1' ≤ c && c ≤ '9' then some (c.toNat - '0'.toNat) else none

/-- The indicators of a block scalar: chomping, the indentation if it is given, and the rest. -/
def blockHeader : List Cell → Option (Chomping × Nat × List Cell)
  | [] => none
  | c :: cs =>
    match chomping? c.char with
    | some k =>
      match indentDigit? (charAt cs) with
      | some d => some (k, d, cs.tail)
      | none => if startsAt '0' cs then none else some (k, 0, cs)
    | none =>
      if c.char == '0' then none
      else match indentDigit? c.char with
        | none => some (.clip, 0, c :: cs)
        | some d =>
          match chomping? (charAt cs) with
          | some k => some (k, d, cs.tail)
          | none => some (.clip, d, cs)

/-- The rest of a line that may hold blanks and a comment only: the comment, if there is one, with
its place, and the cells of the next line. -/
def restOfLine (cs : List Cell) : Option (Option (Mark × String) × List Cell) :=
  let cs := cs.dropWhile fun c => isGap c.char
  let (comment, cs) := if startsAt '#' cs then
      let (text, rest) := takeComment cs
      (some (markAt cs, text), rest)
    else (none, cs)
  match cs with
  | [] => none
  | c :: rest =>
    if isBreak c.char then some (comment, rest)
    else if c.char == endMark then some (comment, c :: rest)
    else none

/-- The empty lines before a block scalar's text: the deepest column reached, the breaks in reverse,
and the rest.  With an indentation of zero all blanks are indentation. -/
def leadingLines (indent deepest : Nat) (breaks : List Char) :
    List Cell → Option (Nat × List Char × List Cell)
  | [] => none
  | c :: cs =>
    let inside := indent == 0 || decide (c.mark.column < indent)
    if inside && c.char == ' ' then leadingLines indent deepest breaks cs
    else
      let deepest := max deepest c.mark.column
      if inside && c.char == '\t' then none
      else if isBreak c.char then leadingLines indent deepest (c.char :: breaks) cs
      else some (deepest, breaks, c :: cs)

/-- What a block scalar's reading has come to: its text, the break after its last line and the
breaks after that, all in reverse, and whether the last line starts with a blank. -/
structure BlockText where
  text : List Char
  last : List Char
  later : List Char
  indented : Bool

/-- The text when a new line starts with `c`: in a folded scalar a newline between two lines that
do not start with a blank is a blank, or nothing where empty lines follow it. -/
def BlockText.nextLine (literal : Bool) (b : BlockText) (c : Char) : BlockText :=
  let blank := isGap c
  let joint :=
    if !literal && !b.indented && !blank && b.last == ['\n'] then
      (if b.later.isEmpty then [' '] else [])
    else b.last
  ⟨c :: (b.later ++ joint ++ b.text), [], [], blank⟩

/-- The text of a block scalar at its end. -/
def BlockText.close (b : BlockText) (chomp : Chomping) : String :=
  let tail := match chomp with
    | .strip => []
    | .clip => b.last
    | .keep => b.later ++ b.last
  String.ofList (tail ++ b.text).reverse

/-- The lines of a block scalar that reach the indentation; `inLine` tells whether a line has
started. -/
def scanBlockLines (literal : Bool) (chomp : Chomping) (indent : Nat) (inLine : Bool)
    (b : BlockText) : List Cell → Option (String × List Cell)
  | [] => none
  | c :: cs =>
    if inLine then
      if isBreak c.char then
        scanBlockLines literal chomp indent false { b with last := [c.char] } cs
      else if c.char == endMark then some (b.close chomp, c :: cs)
      else scanBlockLines literal chomp indent true { b with text := c.char :: b.text } cs
    else
      let before := decide (c.mark.column < indent)
      if before && c.char == ' ' then scanBlockLines literal chomp indent false b cs
      else if before && c.char == '\t' then none
      else if isBreak c.char then
        scanBlockLines literal chomp indent false { b with later := c.char :: b.later } cs
      else if c.mark.column == indent && c.char != endMark then
        scanBlockLines literal chomp indent true (b.nextLine literal c.char) cs
      else some (b.close chomp, c :: cs)

/-- A block scalar, after its indicator, in a collection of the given indentation: its text, the
comment behind its indicators, and the rest. -/
def scanBlock (literal : Bool) (outer : Int) (cs : List Cell) :
    Option (String × Option (Mark × String) × List Cell) := do
  let (chomp, digit, cs) ← blockHeader cs
  let (comment, cs) ← restOfLine cs
  let given := if digit == 0 then 0 else if outer ≥ 0 then outer.toNat + digit else digit
  let (deepest, breaks, cs) ← leadingLines given 0 [] cs
  let indent := if given == 0 then max (max deepest (outer + 1).toNat) 1 else given
  let (text, cs) ← scanBlockLines literal chomp indent false ⟨[], [], breaks, false⟩ cs
  return (text, comment, cs)

/-! ## 3. Names and tags -/

/-- A character of a name. -/
def isNameChar (c : Char) : Bool := c.isAlphanum || c == '_' || c == '-'

/-- A character of a tag. -/
def isTagChar (c : Char) : Bool := isNameChar c || ";/?:@&=+$,.!~*'()[]%".toList.contains c

/-- The cells at the start that satisfy a test, as characters, and the rest. -/
def takeChars (p : Char → Bool) (cs : List Cell) : List Char × List Cell :=
  ((cs.takeWhile fun c => p c.char).map (·.char), cs.dropWhile fun c => p c.char)

/-- The name of an anchor or alias, after its indicator. -/
def scanName (cs : List Cell) : Option (String × List Cell) :=
  let (name, rest) := takeChars isNameChar cs
  let next := charAt rest
  if name.isEmpty || !(isSeparator next || "?:,]\x7d%@`".toList.contains next) then none
  else some (String.ofList name, rest)

/-- The bytes of a tag: a percent sign starts a byte by its two digits. -/
def tagBytes : List Char → Option (List UInt8)
  | [] => some []
  | '%' :: a :: b :: cs => do
    let x ← hexDigit? a
    let y ← hexDigit? b
    return (x * 16 + y).toUInt8 :: (← tagBytes cs)
  | c :: cs =>
    if c == '%' then none else (tagBytes cs).map (c.toNat.toUInt8 :: ·)

/-- The text of a tag after `start`, and the rest. -/
def scanTagText (start : List Char) (cs : List Cell) : Option (String × List Cell) := do
  let (body, rest) := takeChars isTagChar cs
  if start.isEmpty && body.isEmpty then none
  let bytes ← tagBytes (start.drop 1 ++ body)
  let text ← String.fromUTF8? ⟨bytes.toArray⟩
  return (text, rest)

/-- A tag handle: an exclamation mark, a name, and the mark again if it is there. -/
def scanHandle (cs : List Cell) : Option (List Char × List Cell) :=
  if !startsAt '!' cs then none
  else
    let (name, rest) := takeChars isNameChar cs.tail
    if startsAt '!' rest then some ('!' :: name ++ ['!'], rest.tail) else some ('!' :: name, rest)

/-- A tag, from its exclamation mark on: handle, suffix and the rest. -/
def scanTag (cs : List Cell) : Option (String × String × List Cell) := do
  let (handle, suffix, rest) ←
    if startsAt '<' cs.tail then do
      let (suffix, rest) ← scanTagText [] (cs.drop 2)
      if startsAt '>' rest then some ("", suffix, rest.tail) else none
    else do
      let (handle, rest) ← scanHandle cs
      if handle.length > 1 && handle.getLast? == some '!' then
        let (suffix, rest) ← scanTagText [] rest
        some (String.ofList handle, suffix, rest)
      else
        let (suffix, rest) ← scanTagText handle rest
        if suffix == "" then some ("", String.ofList handle, rest) else some ("!", suffix, rest)
  if isSeparator (charAt rest) then some (handle, suffix, rest) else none

/-- A number of a version: one or two digits. -/
def scanVersionPart (cs : List Cell) : Option (Nat × List Cell) :=
  let (ds, rest) := takeChars Char.isDigit cs
  if ds.isEmpty || ds.length > 2 then none
  else some (ds.foldl (fun n d => n * 10 + (d.toNat - '0'.toNat)) 0, rest)

end DocAudit.Yaml
