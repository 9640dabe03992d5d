/-!
# Bytes written in base 64

Four digits stand for three bytes.  The last group may stand for one or two bytes, and is then
filled up with equals signs; line ends between the digits do not count.

* `decodeBase64?` is the reading; it refuses what has another length or another character.
-/

namespace DocAudit.Text

/-- The value of a digit. -/
def base64Digit? (c : Char) : Option Nat :=
  if 'A' ≤ c && c ≤ 'Z' then some (c.toNat - 'A'.toNat)
  else if 'a' ≤ c && c ≤ 'z' then some (c.toNat - 'a'.toNat + 26)
  else if '0' ≤ c && c ≤ '9' then some (c.toNat - '0'.toNat + 52)
  else if c == '+' then some 62
  else if c == '/' then some 63
  else none

/-- The bytes of whole groups of digits; only the last group may be filled up. -/
def base64Groups : List Char → Option (List UInt8)
  | [] => some []
  | [a, b, '=', '='] => do
    let n := (← base64Digit? a) * 64 + (← base64Digit? b)
    return [(n / 16).toUInt8]
  | [a, b, c, '='] => do
    let n := ((← base64Digit? a) * 64 + (← base64Digit? b)) * 64 + (← base64Digit? c)
    return [(n / 1024).toUInt8, (n / 4 % 256).toUInt8]
  | a :: b :: c :: d :: rest => do
    let n := (((← base64Digit? a) * 64 + (← base64Digit? b)) * 64 + (← base64Digit? c)) * 64 +
      (← base64Digit? d)
    let more ← base64Groups rest
    return (n / 65536).toUInt8 :: (n / 256 % 256).toUInt8 :: (n % 256).toUInt8 :: more
  | _ => none

/-- **The bytes that a text writes in base 64.** -/
def decodeBase64? (s : String) : Option (List UInt8) :=
  base64Groups (s.toList.filter fun c => c != '\n' && c != '\r')

end DocAudit.Text
