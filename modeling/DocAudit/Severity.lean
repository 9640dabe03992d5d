import DocAudit.Text.Blank
import DocAudit.Text.Case
import DocAudit.Text.Quoted

/-!
# Severities

A severity is a word.  Three words are on the scale, from `INFO` over `WARN` to `ERROR`; any other
word has no rank and lies below the scale.

* `shift` moves along the scale and stays on it; its argument is a 64-bit number and the sum wraps.
-/

namespace DocAudit

open Text

/-- A severity, as the word that names it. -/
structure Severity where
  text : String
deriving Repr, DecidableEq, Inhabited

namespace Severity

/-- The lowest severity of the scale. -/
def info : Severity := ⟨"INFO"⟩

/-- The middle severity of the scale. -/
def warn : Severity := ⟨"WARN"⟩

/-- The highest severity of the scale. -/
def error : Severity := ⟨"ERROR"⟩

/-- The scale, lowest first. -/
def scale : List Severity := [info, warn, error]

/-- The place on the scale, and −1 off it. -/
def rank (s : Severity) : Int64 :=
  if s == info then 0 else if s == warn then 1 else if s == error then 2 else -1

/-- Whether a severity is on the scale. -/
def isValid (s : Severity) : Bool := decide (0 ≤ s.rank)

/-- Whether a severity ranks as high as a threshold. -/
def atLeast (s threshold : Severity) : Bool := decide (threshold.rank ≤ s.rank)

/-- The severity `n` places up the scale, which ends at its ends. -/
def shift (s : Severity) (n : Int64) : Severity :=
  if s.isValid then
    let r := s.rank + n
    if r < 0 then info else if r ≥ 2 then error else if r == 0 then info else warn
  else s

/-- The message for a word that names no severity. -/
def parseMessage (s : String) : String :=
  "invalid severity " ++ quoted s ++ " (must be one of INFO, WARN, ERROR)"

/-- The severity that a word names, without regard to case and surrounding blanks. -/
def parse? (s : String) : Option Severity :=
  let sev : Severity := ⟨upperText (trim s)⟩
  if sev.isValid then some sev else none

end Severity

end DocAudit
