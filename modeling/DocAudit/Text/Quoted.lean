import DocAudit.Text.Category

/-!
# Quoted texts

A text between double quotes, as messages show it: what has no visible form is escaped, so a
message stays on one line.
-/

namespace DocAudit.Text

/-- A digit below sixteen, in lower case. -/
def hexChar (n : Nat) : Char :=
  if n < 10 then Char.ofNat (48 + n) else Char.ofNat (87 + n)

/-- The last `width` hexadecimal digits of a number. -/
def hexPad : (width : Nat) → Nat → List Char
  | 0, _ => []
  | w + 1, n => hexPad w (n / 16) ++ [hexChar (n % 16)]

/-- The escape of a control character that has a letter of its own. -/
def letterEscape? (c : Char) : Option Char :=
  match c.toNat with
  | 7 => some 'a'
  | 8 => some 'b'
  | 12 => some 'f'
  | 10 => some 'n'
  | 13 => some 'r'
  | 9 => some 't'
  | 11 => some 'v'
  | _ => none

/-- A character inside a quoted text. -/
def quoteChar (c : Char) : List Char :=
  if c == '"' || c == '\\' then ['\\', c]
  else if isPrintable c then [c]
  else match letterEscape? c with
    | some l => ['\\', l]
    | none =>
      if c.toNat < 0x20 || c.toNat == 0x7F then '\\' :: 'x' :: hexPad 2 c.toNat
      else if c.toNat < 0x10000 then '\\' :: 'u' :: hexPad 4 c.toNat
      else '\\' :: 'U' :: hexPad 8 c.toNat

/-- A text between double quotes, with escapes. -/
def quoted (s : String) : String := String.ofList ('"' :: s.toList.flatMap quoteChar ++ ['"'])

end DocAudit.Text
