import DocAudit.Text.Split

/-!
# Dates

A date, with or without a time of day, as a scalar writes it: the parts may be short, the letter
`T` or blanks divide day and time, and only after the letter a time zone follows.

* `Moment.parse?` reads a date.
* `Moment.text` writes it in full, and `Moment.label` as the name of an entry.
-/

namespace DocAudit.Yaml

open DocAudit.Text

/-- A point in time, in the words of its time zone. -/
structure Moment where
  year : Nat
  month : Nat
  day : Nat
  hour : Nat
  minute : Nat
  second : Nat
  nanosecond : Nat
  /-- The minutes that the zone is ahead of the common one. -/
  offset : Int
deriving Repr, DecidableEq, Inhabited

namespace Moment

/-! ## 1. Reading -/

/-- The number that decimal digits write. -/
def digits? (ds : List Char) : Option Nat :=
  if ds.isEmpty || !ds.all Char.isDigit then none
  else some (ds.foldl (fun n d => n * 10 + (d.toNat - '0'.toNat)) 0)

/-- One or two digits, as a number within bounds. -/
def small? (lo hi : Nat) (cs : List Char) : Option (Nat × List Char) :=
  let ds := (cs.take 2).takeWhile Char.isDigit
  (digits? ds).bind fun n => if lo ≤ n && n ≤ hi then some (n, cs.drop ds.length) else none

/-- One given character. -/
def char? (c : Char) : List Char → Option (List Char)
  | d :: cs => if c == d then some cs else none
  | [] => none

/-- The number of days of a month. -/
def daysIn (year month : Nat) : Nat :=
  if month == 2 then
    (if year % 4 == 0 && (year % 100 != 0 || year % 400 == 0) then 29 else 28)
  else if [4, 6, 9, 11].contains month then 30 else 31

/-- A time zone: `Z`, or a sign, hours and minutes.  A full day and a full hour are within
bounds. -/
def zone? : List Char → Option Int
  | ['Z'] => some 0
  | [s, a, b, ':', c, d] => do
    let h ← digits? [a, b]
    let m ← digits? [c, d]
    if h > 24 || m > 60 then none
    else if s == '+' then some ((h * 60 + m : Nat) : Int)
    else if s == '-' then some (-((h * 60 + m : Nat) : Int))
    else none
  | _ => none

/-- A fraction of a second in units of its ninth digit; later digits are left out. -/
def fraction (ds : List Char) : Nat :=
  (digits? ((ds ++ List.replicate 9 '0').take 9)).getD 0

/-- A time of day: hour, minute, second and the fraction of the second, and what follows it. -/
def clock? (cs : List Char) : Option ((Nat × Nat × Nat × Nat) × List Char) := do
  let (hour, r) ← small? 0 23 cs
  let r ← char? ':' r
  let (minute, r) ← small? 0 59 r
  let r ← char? ':' r
  let (second, r) ← small? 0 59 r
  match r with
  | p :: d :: t =>
    if (p == '.' || p == ',') && d.isDigit then
      return ((hour, minute, second, fraction (d :: t.takeWhile Char.isDigit)),
        t.dropWhile Char.isDigit)
    else return ((hour, minute, second, 0), r)
  | r => return ((hour, minute, second, 0), r)

/-- What follows the day: nothing, or a time of day. -/
def ofDay? (year month day : Nat) : List Char → Option Moment
  | [] => some ⟨year, month, day, 0, 0, 0, 0, 0⟩
  | s :: t => do
    let ((hour, minute, second, nano), rest) ←
      clock? (if s == ' ' then t.dropWhile (· == ' ') else t)
    let offset ← if s == 'T' || s == 't' then zone? rest
      else if s == ' ' && rest.isEmpty then some 0
      else none
    return ⟨year, month, day, hour, minute, second, nano, offset⟩

/-- **The date that a text writes.** -/
def parse? (cs : List Char) : Option Moment := do
  let (y, r) := cs.span Char.isDigit
  if y.length != 4 then none
  let year ← digits? y
  let r ← char? '-' r
  let (month, r) ← small? 1 12 r
  let r ← char? '-' r
  let (day, r) ← small? 1 31 r
  if day > daysIn year month then none
  ofDay? year month day r

/-! ## 2. Writing -/

/-- A number in at least `width` digits. -/
def padded (width n : Nat) : String :=
  let ds := toString n
  rep (width - ds.length) '0' ++ ds

/-- The day. -/
def dateText (m : Moment) : String :=
  padded 4 m.year ++ "-" ++ padded 2 m.month ++ "-" ++ padded 2 m.day

/-- The time of day; the fraction of the second ends with its last digit that is no zero. -/
def clockText (m : Moment) : String :=
  let fraction := if m.nanosecond == 0 then ""
    else "." ++ String.ofList ((padded 9 m.nanosecond).toList.reverse.dropWhile (· == '0')).reverse
  padded 2 m.hour ++ ":" ++ padded 2 m.minute ++ ":" ++ padded 2 m.second ++ fraction

/-- The offset of the zone, with `divider` between hours and minutes. -/
def offsetText (divider : String) (m : Moment) : String :=
  (if m.offset < 0 then "-" else "+") ++ padded 2 (m.offset.natAbs / 60) ++ divider ++
    padded 2 (m.offset.natAbs % 60)

/-- **A date in full**; the common time zone is written `Z`. -/
def text (m : Moment) : String :=
  m.dateText ++ "T" ++ m.clockText ++ (if m.offset == 0 then "Z" else m.offsetText ":")

/-- A date as the name of an entry; a zone without name is called by its offset. -/
def label (m : Moment) : String :=
  m.dateText ++ " " ++ m.clockText ++ " " ++ m.offsetText "" ++ " " ++
    (if m.offset == 0 then "UTC" else m.offsetText "")

end Moment

end DocAudit.Yaml
