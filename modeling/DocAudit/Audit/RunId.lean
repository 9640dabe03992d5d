/-!
# Run ids

A run is named by sixteen random bytes, written as five groups of hexadecimal digits.  Six bits are
fixed: they tell that the other ones are random.
-/

namespace DocAudit.Audit

/-- The two hexadecimal digits of a byte. -/
def hexByte (b : UInt8) : List Char := [Nat.digitChar (b.toNat / 16), Nat.digitChar (b.toNat % 16)]

/-- The seventh byte starts with the digit 4. -/
def markVersion (b : UInt8) : UInt8 := b % 16 + 0x40

/-- The ninth byte starts with the bits 1 and 0. -/
def markVariant (b : UInt8) : UInt8 := b % 64 + 0x80

/-- Lists of the given lengths cut from a list, one after the other. -/
def cutInto {α : Type} : List Nat → List α → List (List α)
  | [], _ => []
  | n :: ns, as => as.take n :: cutInto ns (as.drop n)

/-- **The id that sixteen bytes give.** -/
def runIdOf (bytes : List UInt8) : String :=
  let marked := (bytes.modify 6 markVersion).modify 8 markVariant
  let groups := cutInto [4, 2, 2, 2, 6] marked
  String.ofList (List.intercalate ['-'] (groups.map (·.flatMap hexByte)))

end DocAudit.Audit
