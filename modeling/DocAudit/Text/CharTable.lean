import DocAudit.Text.Split

/-!
# Tables of characters

A property of characters that a standard fixes by data is kept as a list of runs of code points.
The data is written as words of hexadecimal numbers: a lone code point `b5`, a run `41-5a`, or every
second code point of a run `100-12e/2`.
-/

namespace DocAudit.Text

/-! ## 1. Runs -/

/-- Every `step`-th code point from `lo` to `hi`. -/
structure Run where
  lo : Nat
  hi : Nat
  step : Nat
deriving Repr, DecidableEq, Inhabited

/-- Whether a code point is in the run. -/
def Run.has (r : Run) (n : Nat) : Bool :=
  decide (r.lo ≤ n) && decide (n ≤ r.hi) && (n - r.lo) % r.step == 0

/-- A set of characters, as runs of code points. -/
structure CharTable where
  runs : Array Run
deriving Repr, Inhabited

/-- Whether a character is in the table. -/
def CharTable.has (t : CharTable) (c : Char) : Bool := t.runs.any (·.has c.toNat)

/-! ## 2. Reading the data -/

/-- The value of a hexadecimal digit. -/
def hexDigit? (c : Char) : Option Nat :=
  if '0' ≤ c ∧ c ≤ '9' then some (c.toNat - '0'.toNat)
  else if 'a' ≤ c ∧ c ≤ 'f' then some (c.toNat - 'a'.toNat + 10)
  else if 'A' ≤ c ∧ c ≤ 'F' then some (c.toNat - 'A'.toNat + 10)
  else none

/-- The number that hexadecimal digits write, other characters being skipped. -/
def hexNumber (cs : List Char) : Nat :=
  cs.foldl (fun n c => match hexDigit? c with | some d => n * 16 + d | none => n) 0

/-- The run that one word writes. -/
def Run.ofWord (w : List Char) : Run :=
  let (span, step) := match splitAt '/' w with
    | [s, d] => (s, hexNumber d)
    | _ => (w, 1)
  match splitAt '-' span with
  | [lo, hi] => ⟨hexNumber lo, hexNumber hi, step⟩
  | _ => ⟨hexNumber span, hexNumber span, step⟩

/-- The table that lines of words write. -/
def CharTable.ofLines (lines : List String) : CharTable :=
  ⟨(lines.flatMap fun l => (wordsBy (· == ' ') l.toList).map Run.ofWord).toArray⟩

/-! ## 3. Maps of characters -/

/-- A run of code points that a map moves by one distance. -/
structure Shift where
  run : Run
  by_ : Int
deriving Repr, Inhabited

/-- A map of characters that moves runs of code points and fixes the rest. -/
structure CharMap where
  shifts : Array Shift
deriving Repr, Inhabited

/-- The code point that the map sends a code point to. -/
def CharMap.code (m : CharMap) (n : Nat) : Nat :=
  match m.shifts.find? (·.run.has n) with
  | some s => ((n : Int) + s.by_).toNat
  | none => n

/-- The character that the map sends a character to. -/
def CharMap.apply (m : CharMap) (c : Char) : Char := Char.ofNat (m.code c.toNat)

/-- The moved code points that the map sends to a code point. -/
def CharMap.sources (m : CharMap) (n : Nat) : List Nat :=
  m.shifts.toList.filterMap fun s =>
    let k := ((n : Int) - s.by_).toNat
    if s.run.has k && m.code k == n then some k else none

/-- The shift that one word such as `41-5a+20` or `61-7a~20` writes; `~` is a step down. -/
def Shift.ofWord (w : List Char) : Shift :=
  match splitAt '+' w, splitAt '~' w with
  | [r, d], _ => ⟨Run.ofWord r, (hexNumber d : Int)⟩
  | _, [r, d] => ⟨Run.ofWord r, -(hexNumber d : Int)⟩
  | _, _ => ⟨Run.ofWord w, 0⟩

/-- The map that lines of words write. -/
def CharMap.ofLines (lines : List String) : CharMap :=
  ⟨(lines.flatMap fun l => (wordsBy (· == ' ') l.toList).map Shift.ofWord).toArray⟩

end DocAudit.Text
