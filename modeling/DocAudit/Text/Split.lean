/-!
# Cutting texts

The library works on a text as its list of characters.  This file fixes how such a list is cut at
a separator, into words, and at a marker:

* `splitAt` keeps every piece, so joining the pieces with the separator gives the text back;
* `wordsBy` drops the separators and keeps no empty word;
* `cutFirst` cuts at the first occurrence of a marker and `endsWith`, `startsWith`, `containsText`
  look for one.
-/

namespace DocAudit.Text

/-! ## 1. Pieces -/

/-- The pieces of a list between the elements that satisfy `p`; there is always at least one. -/
def splitBy {α : Type} (p : α → Bool) : List α → List (List α)
  | [] => [[]]
  | c :: cs =>
    match splitBy p cs with
    | [] => [[c]]
    | w :: ws => if p c then [] :: w :: ws else (c :: w) :: ws

/-- The pieces of a text between the occurrences of one character. -/
def splitAt (sep : Char) (cs : List Char) : List (List Char) := splitBy (· == sep) cs

/-- The maximal runs of elements that do not satisfy `p`. -/
def wordsBy {α : Type} (p : α → Bool) (cs : List α) : List (List α) :=
  (splitBy p cs).filter (fun w => !w.isEmpty)

/-- The lines of a text, without their newlines. -/
def linesOf (s : String) : List String := (splitAt '\n' s.toList).map String.ofList

/-- The pieces of a text between the occurrences of one character, as texts. -/
def pieces (sep : Char) (s : String) : List String := (splitAt sep s.toList).map String.ofList

/-- Texts joined with a separator between them. -/
def join (sep : String) : List String → String
  | [] => ""
  | [s] => s
  | s :: t :: rest => s ++ sep ++ join sep (t :: rest)

/-! ## 2. Markers -/

/-- The text with a leading marker removed, if it has one. -/
def dropStart? : List Char → List Char → Option (List Char)
  | [], cs => some cs
  | _ :: _, [] => none
  | m :: ms, c :: cs => if m == c then dropStart? ms cs else none

/-- Whether a text starts with a marker. -/
def startsWith (marker cs : List Char) : Bool := (dropStart? marker cs).isSome

/-- Whether a text ends with a marker. -/
def endsWith (marker cs : List Char) : Bool := startsWith marker.reverse cs.reverse

/-- What stands before and after the first occurrence of a marker. -/
def cutFirst (marker : List Char) : List Char → Option (List Char × List Char)
  | [] => if marker.isEmpty then some ([], []) else none
  | c :: cs =>
    match dropStart? marker (c :: cs) with
    | some rest => some ([], rest)
    | none => (cutFirst marker cs).map fun (a, b) => (c :: a, b)

/-- Whether a text contains a marker. -/
def containsText (marker cs : List Char) : Bool := (cutFirst marker cs).isSome

/-- What stands before and after the last occurrence of one character. -/
def cutLast (sep : Char) (cs : List Char) : Option (List Char × List Char) :=
  match cutFirst [sep] cs.reverse with
  | none => none
  | some (after, before) => some (before.reverse, after.reverse)

/-- Whether the text `s` starts with the text `marker`. -/
def hasStart (s marker : String) : Bool := startsWith marker.toList s.toList

/-- Whether the text `s` ends with the text `marker`. -/
def hasEnd (s marker : String) : Bool := endsWith marker.toList s.toList

/-- The text without a leading marker, if it has one. -/
def stripStart? (s marker : String) : Option String :=
  (dropStart? marker.toList s.toList).map String.ofList

/-! ## 3. Repeating -/

/-- A character written `n` times. -/
def rep (n : Nat) (c : Char) : String := String.ofList (List.replicate n c)

end DocAudit.Text
