import DocAudit.Source.Syntax
import DocAudit.Element

/-!
# Accessors

A method is a getter, a boolean getter or a setter by its name and the shape of its signature.
-/

namespace DocAudit.Source

open DocAudit.Text

/-- Whether a name is a word followed by an upper-case letter, so that `Settle` does not start with
the word `Set`. -/
def startsWithWord (word name : String) : Bool :=
  match dropStart? word.toList name.toList with
  | some (c :: _) => isUpper c
  | _ => false

/-- Whether the first of some results is the named type. -/
def firstResultIs (name : String) (results : List Field) : Bool :=
  match results with
  | f :: _ => f.type.isIdent name
  | [] => false

/-- The accessor kinds of a method; `fields` are the lower-case names of its receiver's fields.

A getter takes nothing, returns one value and is named `GetX`, after a field, or, with a boolean
result, `IsX` or `HasX`.  A setter is named `SetX`, takes one value and returns nothing or an
error. -/
def accessorKinds (name : String) (s : Signature) (fields : List String) : List AccessorKind :=
  let params := fieldCount s.params
  let results := fieldCount s.results
  if params == 0 && results == 1 then
    let bool := firstResultIs "bool" s.results
    if startsWithWord "Get" name || fields.contains (lowerText name) ||
        (bool && (startsWithWord "Is" name || startsWithWord "Has" name)) then
      if bool then [.getter, .booleanGetter] else [.getter]
    else []
  else if startsWithWord "Set" name && params == 1 &&
      (results == 0 || (results == 1 && firstResultIs "error" s.results)) then
    [.setter]
  else []

end DocAudit.Source
