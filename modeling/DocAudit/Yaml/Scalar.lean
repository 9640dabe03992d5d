import DocAudit.Yaml.Moment
import DocAudit.Decimal.Binary64
import DocAudit.Text.Base64
import DocAudit.Text.CharTable
import DocAudit.Text.Utf8

/-!
# What a plain scalar means

A scalar without quotes and tag is a truth value, a number, a date or nothing if its text has that
form, and a text otherwise.  `resolve` decides it.
-/

namespace DocAudit.Yaml

open DocAudit.Text DocAudit.Decimal

/-! ## 1. Values -/

/-- The value of a scalar. -/
inductive Value where
  | null
  | bool (b : Bool)
  | int (n : Int)
  | float (x : Binary64)
  | date (m : Moment)
  | text (s : String)
deriving Repr, DecidableEq, Inhabited

/-- The tag of a value. -/
def Value.tag : Value → String
  | .null => "!!null"
  | .bool _ => "!!bool"
  | .int _ => "!!int"
  | .float _ => "!!float"
  | .date _ => "!!timestamp"
  | .text _ => "!!str"

/-! ## 2. Numbers -/

/-- The number that digits of a radix write. -/
def digitsIn (radix : Nat) (ds : List Char) : Option Nat :=
  if ds.isEmpty then none
  else ds.foldl (fun acc c => do
    let n ← acc
    let d ← hexDigit? c
    if d < radix then some (n * radix + d) else none) (some 0)

/-- A whole number with an optional radix mark, a lone leading zero being octal. -/
def readNat? (cs : List Char) : Option Nat :=
  match cs with
  | '0' :: x :: ds =>
    if x == 'x' || x == 'X' then digitsIn 16 ds
    else if x == 'b' || x == 'B' then digitsIn 2 ds
    else if x == 'o' || x == 'O' then digitsIn 8 ds
    else digitsIn 8 (x :: ds)
  | ds => digitsIn 10 ds

/-- A signed whole number that fits in 64 bits, with or without sign. -/
def readInt? (cs : List Char) : Option Int :=
  match cs with
  | '-' :: ds =>
    (readNat? ds).bind fun n => if n ≤ Decimal.signedEnd then some (-(n : Int)) else none
  | '+' :: ds => (readNat? ds).bind fun n => if n < Decimal.signedEnd then some (n : Int) else none
  | ds => (readNat? ds).bind fun n => if n < Decimal.unsignedEnd then some (n : Int) else none

/-- The exponent at the end of a number, if it is well formed. -/
def readExponent? (cs : List Char) : Option Int :=
  match cs with
  | [] => some 0
  | e :: r =>
    if e == 'e' || e == 'E' then
      let (neg, ds) := match r with
        | '-' :: ds => (true, ds)
        | '+' :: ds => (false, ds)
        | ds => (false, ds)
      (digitsIn 10 ds).map fun n => if neg then -(n : Int) else n
    else none

/-- A decimal number with optional point and exponent; `none` also past the largest number. -/
def readFloat? (cs : List Char) : Option Binary64 := do
  let (neg, body) := match cs with
    | '-' :: r => (true, r)
    | '+' :: r => (false, r)
    | r => (false, r)
  let (whole, r) := body.span Char.isDigit
  let (frac, r) := match r with
    | '.' :: t => t.span Char.isDigit
    | t => ([], t)
  if whole.isEmpty && frac.isEmpty then none
  let e ← readExponent? r
  let m ← digitsIn 10 (whole ++ frac)
  let x := Binary64.ofDecimal neg m (e - (frac.length : Int))
  if x.isInfinite then none else some x

/-! ## 3. Resolution -/

/-- The words with a meaning of their own. -/
def knownWords : List (String × Value) := [
  ("true", .bool true), ("True", .bool true), ("TRUE", .bool true),
  ("false", .bool false), ("False", .bool false), ("FALSE", .bool false),
  ("", .null), ("~", .null), ("null", .null), ("Null", .null), ("NULL", .null),
  (".nan", .float .nan), (".NaN", .float .nan), (".NAN", .float .nan),
  (".inf", .float .infinity), (".Inf", .float .infinity), (".INF", .float .infinity),
  ("+.inf", .float .infinity), ("+.Inf", .float .infinity), ("+.INF", .float .infinity),
  ("-.inf", .float .negInfinity), ("-.Inf", .float .negInfinity), ("-.INF", .float .negInfinity)]

/-- A whole number whose sign stands behind its radix mark. -/
def readLateSign? : List Char → Option Int
  | '0' :: x :: sign :: ds =>
    let number? : Option Nat := if x == 'b' then digitsIn 2 ds
      else if x == 'o' then digitsIn 8 ds
      else none
    number?.bind fun n =>
      if sign == '-' && n ≤ Decimal.signedEnd then some (-(n : Int))
      else if sign == '+' && n < Decimal.signedEnd then some (n : Int)
      else none
  | _ => none

/-- The number that a text starting with a digit or sign writes; underscores do not count. -/
def readNumber? (cs : List Char) : Option Value :=
  let plain := cs.filter (· != '_')
  match readInt? plain with
  | some n => some (.int n)
  | none =>
    match readFloat? plain with
    | some x => some (.float x)
    | none => (readLateSign? plain).map .int

/-- Whether every underscore stands between two digits; `digit` tells whether a digit comes
before. -/
def dividesDigits (digit : Bool) : List Char → Bool
  | [] => true
  | '_' :: cs => digit && (cs.head?.map Char.isDigit).getD false && dividesDigits false cs
  | c :: cs => dividesDigits c.isDigit cs

/-- The number that a text starting with a point writes. -/
def readFraction? (cs : List Char) : Option Value :=
  if dividesDigits false cs then (readFloat? (cs.filter (· != '_'))).map .float else none

/-- The value of a plain scalar.  `dates` tells whether a date may be one. -/
def resolveWith (dates : Bool) (s : String) : Value :=
  match knownWords.find? (·.1 == s) with
  | some (_, v) => v
  | none =>
    let cs := s.toList
    match cs with
    | [] => .null
    | c :: _ =>
      if c == '.' then (readFraction? cs).getD (.text s)
      else if c.isDigit || c == '+' || c == '-' then
        match (if dates then Moment.parse? cs else none) with
        | some m => .date m
        | none => (readNumber? cs).getD (.text s)
      else .text s

/-- **The value of a scalar without tag and quotes.** -/
def resolve (s : String) : Value := resolveWith true s

/-- The tags whose values have a form of their own. -/
def formTags : List String := ["!!bool", "!!int", "!!float", "!!null", "!!timestamp"]

/-- The value of a scalar under its tag; `none` if the text is no value of that tag.  Under a tag
that is not known the text stays as it is. -/
def valueUnder (tag : String) (s : String) : Option Value :=
  if tag == "" then some (resolve s)
  else if tag == "!!binary" then (decodeBase64? s).map fun bytes => .text (textOfBytes bytes)
  else if !formTags.contains tag then some (.text s)
  else
    let v := resolveWith (tag == "!!timestamp") s
    if tag == v.tag then some v
    else match v with
      | .int n =>
        if tag == "!!float" && n < Decimal.signedEnd then some (.float (.ofInt n)) else none
      | _ => none

end DocAudit.Yaml
