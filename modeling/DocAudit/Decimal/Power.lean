/-!
# Powers of two and ten

The weights of binary and decimal places, and the ends of the ranges of machine words.
-/

namespace DocAudit.Decimal

/-- The weight of a binary place. -/
def twoTo (n : Nat) : Nat := Nat.pow 2 n

/-- The weight of a decimal place. -/
def tenTo (n : Nat) : Nat := Nat.pow 10 n

/-- One more than the largest signed word of 64 bits. -/
def signedEnd : Nat := twoTo 63

/-- One more than the largest unsigned word of 64 bits. -/
def unsignedEnd : Nat := twoTo 64

end DocAudit.Decimal
