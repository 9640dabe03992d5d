import DocAudit.Text.Utf8

/-!
# Cells of a document

A document comes as bytes.  Its first bytes may tell the encoding; without such a mark it is in
UTF-8.  Bytes are read a window at a time, and a window that holds something that no document may
contain cannot be read at all, though what stands before it can.  The characters become *cells*:
characters with their places, in which all line breaks have become newlines.

* `cellsOf` gives the cells of a document.  They end with the end mark, unless a window cannot be
  read: then they just stop, and whoever needs the next one fails.
-/

namespace DocAudit.Yaml

open DocAudit.Text

/-! ## 1. Characters -/

/-- The ways in which characters are written as bytes. -/
inductive Encoding where
  | utf8
  | utf16le
  | utf16be
deriving Repr, DecidableEq

/-- The encoding of some bytes and how many of them tell it. -/
def encodingOf : List UInt8 → Encoding × Nat
  | 0xFF :: 0xFE :: _ => (.utf16le, 2)
  | 0xFE :: 0xFF :: _ => (.utf16be, 2)
  | 0xEF :: 0xBB :: 0xBF :: _ => (.utf8, 3)
  | _ => (.utf8, 0)

/-- A character that may stand in a document. -/
def isAllowed (c : Char) : Bool :=
  let n := c.toNat
  n == 0x09 || n == 0x0A || n == 0x0D || (0x20 ≤ n && n ≤ 0x7E) || n == 0x85 ||
    (0xA0 ≤ n && n ≤ 0xFFFD) || 0x10000 ≤ n

/-- What stands at the start of some bytes: a character and its size, the beginning of one, or
something that no document may contain. -/
inductive Front where
  | char (c : Char) (size : Nat)
  | short
  | bad

/-- A character, if it may stand in a document. -/
def Front.ofChar? (size : Nat) : Option Char → Front
  | some c => if isAllowed c then .char c size else .bad
  | none => .bad

/-- How many bytes a character takes, by its first one. -/
def widthOf? (b : UInt8) : Option Nat :=
  if b < 0x80 then some 1
  else if b < 0xC0 then none
  else if b < 0xE0 then some 2
  else if b < 0xF0 then some 3
  else if b < 0xF8 then some 4
  else none

/-- What stands at the start of some bytes in UTF-8. -/
def readUtf8 : List UInt8 → Front
  | [] => .short
  | b :: bs =>
    match widthOf? b with
    | none => .bad
    | some w =>
      if bs.length + 1 < w then .short
      else .ofChar? w ((firstChar? b bs).map (·.1))

/-- The unit of two bytes in the order of an encoding. -/
def unitOf (big : Bool) (a b : UInt8) : Nat :=
  if big then a.toNat * 256 + b.toNat else b.toNat * 256 + a.toNat

/-- Whether a unit is the first half of a pair. -/
def isHighHalf (n : Nat) : Bool := 0xD800 ≤ n && n < 0xDC00

/-- Whether a unit is the second half of a pair. -/
def isLowHalf (n : Nat) : Bool := 0xDC00 ≤ n && n < 0xE000

/-- What stands at the start of some bytes in UTF-16. -/
def readUtf16 (big : Bool) : List UInt8 → Front
  | a :: b :: rest =>
    let n := unitOf big a b
    if isLowHalf n then .bad
    else if isHighHalf n then
      match rest with
      | c :: d :: _ =>
        let m := unitOf big c d
        if isLowHalf m then
          .ofChar? 4 (some (Char.ofNat (0x10000 + (n - 0xD800) * 1024 + (m - 0xDC00))))
        else .bad
      | _ => .short
    else .ofChar? 2 (some (Char.ofNat n))
  | _ => .short

/-- What stands at the start of some bytes. -/
def Encoding.read : Encoding → List UInt8 → Front
  | .utf8 => readUtf8
  | .utf16le => readUtf16 false
  | .utf16be => readUtf16 true

/-! ## 2. Windows -/

/-- The number of bytes that are read at a time. -/
def windowSize : Nat := 512

/-- The characters that lie whole within the next `room` bytes, and the bytes behind them; `none`
if something among them may not be there. -/
def readWindow (e : Encoding) : (fuel : Nat) → (room : Nat) → List UInt8 →
    Option (List Char × List UInt8)
  | 0, _, bytes => some ([], bytes)
  | fuel + 1, room, bytes =>
    match e.read (bytes.take (min room 4)) with
    | .short => some ([], bytes)
    | .bad => none
    | .char c size => do
      let (cs, rest) ← readWindow e fuel (room - size) (bytes.drop size)
      return (c :: cs, rest)

/-- The characters of some bytes up to the first window that cannot be read, and whether there is
none such. -/
def readWindows (e : Encoding) : (fuel : Nat) → (room : Nat) → List UInt8 → List Char × Bool
  | 0, _, bytes => ([], bytes.isEmpty)
  | fuel + 1, room, bytes =>
    if bytes.isEmpty then ([], true)
    else match readWindow e room room bytes with
      | none => ([], false)
      | some ([], _) => ([], false)
      | some (cs, rest) =>
        let (more, whole) := readWindows e fuel windowSize rest
        (cs ++ more, whole)

/-- The characters of a document, and whether it can be read to its end. -/
def charsOf (bytes : List UInt8) : List Char × Bool :=
  let (e, mark) := encodingOf bytes
  readWindows e bytes.length (windowSize - mark) (bytes.drop mark)

/-! ## 3. Cells -/

/-- A place: the index counts characters, line and column count from zero. -/
structure Mark where
  index : Nat
  line : Nat
  column : Nat
deriving Repr, DecidableEq, Inhabited

/-- How a line break is written: as one byte, as a pair of characters, or as one character of
several bytes. -/
inductive BreakForm where
  | one
  | pair
  | wide
deriving Repr, DecidableEq, Inhabited

/-- A character with its place. -/
structure Cell where
  char : Char
  mark : Mark
  /-- The number of line breaks since the last character that is no blank. -/
  breaks : Nat
  form : BreakForm
deriving Repr, DecidableEq, Inhabited

/-- The character that stands for the end of the stream; no document contains it. -/
def endMark : Char := Char.ofNat 0

/-- The line breaks of a cell. -/
def isBreak (c : Char) : Bool := c == '\n' || c.toNat == 0x2028 || c.toNat == 0x2029

/-- A blank within a line. -/
def isGap (c : Char) : Bool := c == ' ' || c == '\t'

/-- A line break or the end. -/
def isLineEnd (c : Char) : Bool := isBreak c || c == endMark

/-- A blank, a line break or the end. -/
def isSeparator (c : Char) : Bool := isGap c || isLineEnd c

/-- The place behind a line break of so many characters. -/
def Mark.nextLine (m : Mark) (size : Nat) : Mark := ⟨m.index + size, m.line + 1, 0⟩

/-- The place behind a character of a line. -/
def Mark.next (m : Mark) : Mark := ⟨m.index + 1, m.line, m.column + 1⟩

/-- The cell of a character that is no part of a pair. -/
def Cell.ofChar (m : Mark) (breaks : Nat) (c : Char) : Cell :=
  if c == '\r' then ⟨'\n', m, breaks, .one⟩
  else if c.toNat == 0x85 then ⟨'\n', m, breaks, .wide⟩
  else ⟨c, m, breaks, if isBreak c && c != '\n' then .wide else .one⟩

/-- The cells of characters from a place on; `whole` tells whether the document ends with them. -/
def cellsFrom (whole : Bool) (m : Mark) (breaks : Nat) : List Char → List Cell
  | [] => if whole then [⟨endMark, m, breaks, .one⟩] else []
  | '\r' :: '\n' :: cs =>
    ⟨'\n', m, breaks, .pair⟩ :: cellsFrom whole (m.nextLine 2) (breaks + 1) cs
  | c :: cs =>
    let cell := Cell.ofChar m breaks c
    cell ::
      (if isBreak cell.char then cellsFrom whole (m.nextLine 1) (breaks + 1) cs
       else cellsFrom whole m.next (if isGap c then breaks else 0) cs)

/-- **The cells of a document.** -/
def cellsOf (bytes : ByteArray) : List Cell :=
  let (cs, whole) := charsOf bytes.toList
  cellsFrom whole ⟨0, 0, 0⟩ 0 cs

/-! ## 4. Looking at cells -/

/-- The first character of some cells. -/
def charAt : List Cell → Char
  | c :: _ => c.char
  | [] => endMark

/-- The place of the first of some cells. -/
def markAt : List Cell → Mark
  | c :: _ => c.mark
  | [] => ⟨0, 0, 0⟩

/-- The number of line breaks before the first of some cells. -/
def breaksAt : List Cell → Nat
  | c :: _ => c.breaks
  | [] => 0

/-- Whether some cells start with a character. -/
def startsAt (c : Char) (cs : List Cell) : Bool := charAt cs == c

/-- Whether `n` cells can be looked at, or all up to the end mark. -/
def reaches : (n : Nat) → List Cell → Bool
  | 0, _ => true
  | _ + 1, [] => false
  | n + 1, c :: cs => c.char == endMark || reaches n cs

/-- Whether three of a character stand alone at the start of a line. -/
def isDocumentMark (c : Char) : List Cell → Bool
  | x :: y :: z :: r =>
    x.mark.column == 0 && x.char == c && y.char == c && z.char == c && isSeparator (charAt r)
  | _ => false

/-- Whether a document starts or ends here. -/
def atDocumentMark (cs : List Cell) : Bool := isDocumentMark '-' cs || isDocumentMark '.' cs

end DocAudit.Yaml
