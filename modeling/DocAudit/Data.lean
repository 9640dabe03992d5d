import DocAudit.Decimal.Binary64
import DocAudit.Text.Split

/-!
# Data

Plain data: what a report or a document holds, apart from the way it is written.  Records keep
their entries in the order in which they are given; `Data.dict` sorts them by name.
-/

namespace DocAudit

open Decimal Text

/-- A piece of data. -/
inductive Data where
  | null
  | bool (b : Bool)
  | int (n : Int)
  | float (x : Binary64)
  | text (s : String)
  | list (items : List Data)
  | record (entries : List (String × Data))

namespace Data

instance : Inhabited Data := ⟨.null⟩

/-- A list of texts. -/
def texts (ss : List String) : Data := .list (ss.map .text)

/-- Entries sorted by their names. -/
def sortEntries {α : Type} (es : List (String × α)) : List (String × α) :=
  es.mergeSort fun a b => decide (a.1 ≤ b.1)

/-- A record with its entries in the order of their names. -/
def dict (es : List (String × Data)) : Data := .record (sortEntries es)

/-- Data with the part under a path of names changed; where there is no such part it stays. -/
def change (f : Data → Data) : (path : List String) → Data → Data
  | [], d => f d
  | name :: path, .record es =>
    .record (es.map fun (k, v) => (k, if k == name then v.change f path else v))
  | _, d => d

/-! ## 1. Plain text -/

mutual

/-- Data as unadorned text: items between brackets, entries after a word. -/
def plain : Data → String
  | .null => "<nil>"
  | .bool b => if b then "true" else "false"
  | .int n => toString n
  | .float x => general.write x
  | .text s => s
  | .list xs => "[" ++ join " " (plainItems xs) ++ "]"
  | .record es => "map[" ++ join " " (plainEntries es) ++ "]"

/-- The items of a list as texts. -/
def plainItems : List Data → List String
  | [] => []
  | x :: xs => x.plain :: plainItems xs

/-- The entries of a record as texts. -/
def plainEntries : List (String × Data) → List String
  | [] => []
  | (k, v) :: es => (k ++ ":" ++ v.plain) :: plainEntries es

end

end Data

end DocAudit
