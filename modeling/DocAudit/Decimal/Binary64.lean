import DocAudit.Decimal.Power
import DocAudit.Text.Split

/-!
# Binary floating-point numbers and their decimal texts

A 64-bit floating-point number is kept by its bits, so that it has a decidable equality and its
text is computed in exact arithmetic.

* `Binary64.ofRatio` is the number nearest to a fraction, a tie going to the even one;
* `Binary64.shortest` finds the fewest decimal digits that read back as the number, and of these
  the nearest;
* `Style` holds what a format decides: where positional notation ends and how exponents look.
-/

namespace DocAudit.Decimal

open DocAudit.Text

/-! ## 1. Numbers -/

/-- A 64-bit floating-point number, by its bits. -/
structure Binary64 where
  bits : UInt64
deriving Repr, DecidableEq, Inhabited

namespace Binary64

/-- Whether the sign bit is set. -/
def negative (x : Binary64) : Bool := x.bits.toNat / twoTo 63 == 1

/-- The eleven bits of the exponent. -/
def exponentBits (x : Binary64) : Nat := x.bits.toNat / twoTo 52 % twoTo 11

/-- The fifty-two bits of the fraction. -/
def fractionBits (x : Binary64) : Nat := x.bits.toNat % twoTo 52

/-- Not a number. -/
def isNaN (x : Binary64) : Bool := x.exponentBits == 2047 && x.fractionBits != 0

/-- One of the two infinities. -/
def isInfinite (x : Binary64) : Bool := x.exponentBits == 2047 && x.fractionBits == 0

/-- The whole number `m` and the exponent `q` with magnitude `m · 2 ^ q`. -/
def parts (x : Binary64) : Nat × Int :=
  if x.exponentBits == 0 then (x.fractionBits, -1074)
  else (x.fractionBits + twoTo 52, (x.exponentBits : Int) - 1075)

/-- The number with the given sign and magnitude bits. -/
def ofMagnitude (neg : Bool) (bits : Nat) : Binary64 :=
  ⟨(bits + if neg then twoTo 63 else 0).toUInt64⟩

/-- Zero. -/
def zero : Binary64 := ⟨0⟩

/-- One. -/
def one : Binary64 := ⟨0x3FF0000000000000⟩

/-- Positive infinity. -/
def infinity : Binary64 := ⟨0x7FF0000000000000⟩

/-- Negative infinity. -/
def negInfinity : Binary64 := ⟨0xFFF0000000000000⟩

/-- Not a number. -/
def nan : Binary64 := ⟨0x7FF8000000000001⟩

/-- The quotient of two numbers, rounded to the nearest, a tie to the even one. -/
def roundDiv (n d : Nat) : Nat :=
  let q := n / d
  let r := n % d
  if 2 * r > d || (2 * r == d && q % 2 == 1) then q + 1 else q

/-- The number nearest to `± num / den`. -/
def ofRatio (neg : Bool) (num den : Nat) : Binary64 :=
  if num == 0 || den == 0 then ofMagnitude neg 0
  else
    let guess : Int := (num.log2 : Int) - (den.log2 : Int) - 52
    -- the quotient by `2 ^ guess` lies between `2 ^ 51` and `2 ^ 53`
    let low :=
      if guess ≥ 0 then num / (den * twoTo guess.toNat) else num * twoTo (-guess).toNat / den
    let q : Int := max (if low < twoTo 52 then guess - 1 else guess) (-1074)
    let m :=
      if q ≥ 0 then roundDiv num (den * twoTo q.toNat) else roundDiv (num * twoTo (-q).toNat) den
    if m < twoTo 52 then ofMagnitude neg m
    else if q > 971 || (q == 971 && m == twoTo 53) then ofMagnitude neg (2047 * twoTo 52)
    else ofMagnitude neg ((q + 1074).toNat * twoTo 52 + m)

/-- The number nearest to `± m · 10 ^ e`; far exponents are cut off where nothing is left. -/
def ofDecimal (neg : Bool) (m : Nat) (e : Int) : Binary64 :=
  if m == 0 then ofMagnitude neg 0
  else
    let size : Int := (Nat.toDigits 10 m).length + e
    if size > 400 then ofMagnitude neg (2047 * twoTo 52)
    else if size < -400 then ofMagnitude neg 0
    else if e ≥ 0 then ofRatio neg (m * tenTo e.toNat) 1
    else ofRatio neg m (tenTo (-e).toNat)

/-- The number nearest to a whole number. -/
def ofInt (n : Int) : Binary64 := ofRatio (n < 0) n.natAbs 1

/-- A number without its part after the point, if it is finite. -/
def truncate? (x : Binary64) : Option Int :=
  if x.exponentBits == 2047 then none
  else
    let (m, q) := x.parts
    let n : Nat := if q ≥ 0 then m * twoTo q.toNat else m / twoTo (-q).toNat
    some (if x.negative then -(n : Int) else n)

/-- The magnitude of a finite number with its sign, in units of `2 ^ -1074`. -/
def units (x : Binary64) : Int :=
  let (m, q) := x.parts
  let n : Nat := m * twoTo (q + 1074).toNat
  if x.negative then -(n : Int) else n

/-- The number nearest to the sum of two numbers. -/
def add (x y : Binary64) : Binary64 :=
  if x.isNaN || y.isNaN then nan
  else if x.isInfinite then (if y.isInfinite && x.negative != y.negative then nan else x)
  else if y.isInfinite then y
  else
    let s := x.units + y.units
    ofRatio (if s == 0 then x.negative && y.negative else s < 0) s.natAbs (twoTo 1074)

/-- An order on the numbers other than NaN. -/
def orderKey (x : Binary64) : Int :=
  let mag : Int := (x.bits.toNat % twoTo 63 : Nat)
  if x.negative then -mag else mag

/-- Whether one number is at most another; NaN is comparable to nothing. -/
def le (x y : Binary64) : Bool := !x.isNaN && !y.isNaN && decide (x.orderKey ≤ y.orderKey)

/-! ## 2. The fewest digits -/

/-- The decimal exponent `e` with `10 ^ e ≤ num / den < 10 ^ (e + 1)`. -/
def decimalExponent (num den : Nat) : Int :=
  let guess : Int := (Nat.toDigits 10 num).length - (Nat.toDigits 10 den).length
  let below := if guess ≥ 0 then num < den * tenTo guess.toNat else num * tenTo (-guess).toNat < den
  if below then guess - 1 else guess

/-- With `k` digits, a decimal `c · 10 ^ e` that reads back as the number `num / den`, whose
neighbours' middles are `lo / den` and `hi / den`. -/
def hit (num lo hi den : Nat) (closed : Bool) (top : Int) (k : Nat) : Option (Nat × Int) :=
  let e := top - (k : Int) + 1
  let up := if e ≥ 0 then tenTo e.toNat else 1
  let down := if e ≥ 0 then 1 else tenTo (-e).toNat
  -- `c · up / down` is compared with `x / den` as `c · up · den` with `x · down`
  let c := num * down / (den * up)
  let within (c : Nat) : Bool :=
    let v := c * up * den
    if closed then decide (lo * down ≤ v) && decide (v ≤ hi * down)
    else decide (lo * down < v) && decide (v < hi * down)
  let below := num * down - c * up * den
  let above := (c + 1) * up * den - num * down
  match within c, within (c + 1) with
  | true, true => some (if below < above || (below == above && c % 2 == 0) then c else c + 1, e)
  | true, false => some (c, e)
  | false, true => some (c + 1, e)
  | false, false => none

/-- The first hit among `k`, `k + 1`, … digits. -/
def firstHit (num lo hi den : Nat) (closed : Bool) (top : Int) : (left k : Nat) → Nat × Int
  | 0, k => (hit num lo hi den closed top k).getD (0, 0)
  | n + 1, k =>
    match hit num lo hi den closed top k with
    | some r => r
    | none => firstHit num lo hi den closed top n (k + 1)

/-- Trailing zeros moved into the exponent. -/
def dropZeros : (fuel : Nat) → Nat → Int → Nat × Int
  | 0, c, e => (c, e)
  | n + 1, c, e => if c != 0 && c % 10 == 0 then dropZeros n (c / 10) (e + 1) else (c, e)

/-- The fewest digits `c` and the exponent `e` for which `c · 10 ^ e` reads back as the magnitude
of a finite number. -/
def shortest (x : Binary64) : Nat × Int :=
  let (m, q) := x.parts
  if m == 0 then (0, 0)
  else
    -- in units of `2 ^ (q - 2)`; below a power of two the gap is half as wide
    let narrow := x.fractionBits == 0 && x.exponentBits > 1
    let scale := if q - 2 ≥ 0 then twoTo (q - 2).toNat else 1
    let den := if q - 2 ≥ 0 then 1 else twoTo (2 - q).toNat
    let num := 4 * m * scale
    let hi := (4 * m + 2) * scale
    let lo := (4 * m - if narrow then 1 else 2) * scale
    let (c, e) := firstHit num lo hi den (m % 2 == 0) (decimalExponent num den) 16 1
    dropZeros 20 c e

end Binary64

/-! ## 3. Texts -/

/-- What a format decides about the text of a number. -/
structure Style where
  /-- The least decimal exponent that is written positionally. -/
  least : Int
  /-- The decimal exponent from which on positional notation ends. -/
  limit : Int
  /-- The least number of digits of an exponent. -/
  expWidth : Nat
  /-- The texts of NaN and of the positive and the negative infinity. -/
  nan : String
  posInf : String
  negInf : String
deriving Repr

/-- A whole number in decimal digits. -/
def digitsOf (n : Nat) : List Char := Nat.toDigits 10 n

/-- Digits with zeros in front of them up to a width. -/
def padDigits (width : Nat) (ds : List Char) : List Char :=
  List.replicate (width - ds.length) '0' ++ ds

/-- Digits of a number whose first one stands for `10 ^ top`, written with a point. -/
def positional (ds : List Char) (top : Int) : List Char :=
  if top < 0 then '0' :: '.' :: List.replicate ((-top).toNat - 1) '0' ++ ds
  else
    let whole := top.toNat + 1
    let body := ds ++ List.replicate (whole - ds.length) '0'
    let frac := body.drop whole
    body.take whole ++ if frac.isEmpty then [] else '.' :: frac

/-- Digits of a number whose first one stands for `10 ^ top`, written with an exponent. -/
def scientific (expWidth : Nat) (ds : List Char) (top : Int) : List Char :=
  let body := match ds with
    | d :: (e :: r) => d :: '.' :: e :: r
    | ds => ds
  body ++ 'e' :: (if top < 0 then '-' else '+') :: padDigits expWidth (digitsOf top.natAbs)

/-- The shortest text of a number in a style. -/
def Style.write (s : Style) (x : Binary64) : String :=
  if x.isNaN then s.nan
  else if x.isInfinite then (if x.negative then s.negInf else s.posInf)
  else
    let (c, e) := x.shortest
    let ds := digitsOf c
    let top : Int := if c == 0 then 0 else (ds.length : Int) - 1 + e
    let body := if top < s.least || top ≥ s.limit then scientific s.expWidth ds top
      else positional ds top
    String.ofList (if x.negative then '-' :: body else body)

/-- A number with a fixed count of places after the point, at least one. -/
def fixed (places : Nat) (x : Binary64) : String :=
  if x.isNaN then "NaN"
  else if x.isInfinite then (if x.negative then "-Inf" else "+Inf")
  else
    let scaled := Binary64.roundDiv (x.units.natAbs * tenTo places) (twoTo 1074)
    let ds := padDigits (places + 1) (digitsOf scaled)
    let body := ds.take (ds.length - places) ++ '.' :: ds.drop (ds.length - places)
    String.ofList (if x.negative then '-' :: body else body)

/-- General notation: decimal exponents from −4 up to 5 are positional. -/
def general : Style := ⟨-4, 6, 2, "NaN", "+Inf", "-Inf"⟩

end DocAudit.Decimal
