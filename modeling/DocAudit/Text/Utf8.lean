import DocAudit.Text.CharTable
import DocAudit.Text.Split

/-!
# Bytes and quoted literals

`textOfBytes` reads bytes as text and marks each byte that belongs to no character.  `unquote?`
reads a literal between double quotes or backquotes; an escape may name a single byte, so the
literal is read into bytes first.
-/

namespace DocAudit.Text

/-- The mark for a byte that belongs to no character. -/
def replacement : Char := Char.ofNat 0xFFFD

/-- Whether a byte continues a character. -/
def isContinuation (b : UInt8) : Bool := 0x80 ≤ b && b < 0xC0

/-- The character that a number with the given least value is, if it is one. -/
def scalarValue? (least n : Nat) : Option Char :=
  if least ≤ n && (n < 0xD800 || (0xE000 ≤ n && n < 0x110000)) then some (Char.ofNat n) else none

/-- The last six bits of a byte. -/
def lowBits (b : UInt8) : Nat := b.toNat % 64

/-- The character at the start of some bytes and how many bytes follow its first one. -/
def firstChar? (b : UInt8) (rest : List UInt8) : Option (Char × Nat) :=
  if b < 0x80 then some (Char.ofNat b.toNat, 0)
  else if b < 0xC0 then none
  else if b < 0xE0 then
    match rest with
    | c :: _ =>
      if isContinuation c then
        (scalarValue? 0x80 (b.toNat % 32 * 64 + lowBits c)).map fun x => (x, 1)
      else none
    | _ => none
  else if b < 0xF0 then
    match rest with
    | c :: d :: _ =>
      if isContinuation c && isContinuation d then
        (scalarValue? 0x800 ((b.toNat % 16 * 64 + lowBits c) * 64 + lowBits d)).map fun x => (x, 2)
      else none
    | _ => none
  else if b < 0xF8 then
    match rest with
    | c :: d :: e :: _ =>
      if isContinuation c && isContinuation d && isContinuation e then
        (scalarValue? 0x10000
          (((b.toNat % 8 * 64 + lowBits c) * 64 + lowBits d) * 64 + lowBits e)).map fun x => (x, 3)
      else none
    | _ => none
  else none

/-- The characters of some bytes, of which the first `skip` have been read already. -/
def charsOfBytes : (skip : Nat) → List UInt8 → List Char
  | _, [] => []
  | k + 1, _ :: bs => charsOfBytes k bs
  | 0, b :: bs =>
    match firstChar? b bs with
    | some (c, n) => c :: charsOfBytes n bs
    | none => replacement :: charsOfBytes 0 bs

/-- The text of some bytes. -/
def textOfBytes (bs : List UInt8) : String := String.ofList (charsOfBytes 0 bs)

/-- The bytes of a character. -/
def bytesOfChar (c : Char) : List UInt8 := (String.singleton c).toUTF8.toList

/-- The characters that an escape letter stands for in a double-quoted literal. -/
def literalEscapes : List (Char × Nat) :=
  [('a', 7), ('b', 8), ('f', 12), ('n', 10), ('r', 13), ('t', 9), ('v', 11), ('\\', 92), ('"', 34)]

/-- Where the reading of a literal is: outside an escape, behind its backslash, or at a digit of a
number to a base, of which `left` digits are to come. -/
inductive LiteralState where
  | open_
  | escape
  | digits (base left value : Nat) (isByte : Bool)
deriving Repr, DecidableEq

/-- The value of a digit to a base. -/
def digitTo? (base : Nat) (c : Char) : Option Nat := (hexDigit? c).filter (· < base)

/-- The bytes of the body of a double-quoted literal. -/
def literalBytes (state : LiteralState) : List Char → Option (List UInt8)
  | [] => if state == .open_ then some [] else none
  | c :: cs =>
    match state with
    | .open_ =>
      if c == '\\' then literalBytes .escape cs
      else if c == '"' || c == '\n' then none
      else (literalBytes .open_ cs).map (bytesOfChar c ++ ·)
    | .escape =>
      match literalEscapes.lookup c with
      | some n => (literalBytes .open_ cs).map (n.toUInt8 :: ·)
      | none =>
        if c == 'x' then literalBytes (.digits 16 2 0 true) cs
        else if c == 'u' then literalBytes (.digits 16 4 0 false) cs
        else if c == 'U' then literalBytes (.digits 16 8 0 false) cs
        else match digitTo? 8 c with
          | some d => literalBytes (.digits 8 2 d true) cs
          | none => none
    | .digits base left value isByte =>
      match digitTo? base c with
      | none => none
      | some d =>
        let v := value * base + d
        if left > 1 then literalBytes (.digits base (left - 1) v isByte) cs
        else if isByte then
          (if v < 256 then (literalBytes .open_ cs).map (v.toUInt8 :: ·) else none)
        else match scalarValue? 0 v with
          | some x => (literalBytes .open_ cs).map (bytesOfChar x ++ ·)
          | none => none

/-- The text that a literal between double quotes or backquotes stands for. -/
def unquote? (cs : List Char) : Option String :=
  match cs with
  | q :: r =>
    if r.getLast? != some q then none
    else
      let body := r.dropLast
      if q == '"' then (literalBytes .open_ body).map textOfBytes
      else if q == '\x60' then
        (if body.contains '\x60' then none else some (String.ofList (body.filter (· != '\r'))))
      else none
  | [] => none

end DocAudit.Text
