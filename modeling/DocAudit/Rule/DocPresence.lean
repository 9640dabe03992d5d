import DocAudit.Rule
import DocAudit.Text.Blank

/-!
# The doc-presence rule

Every element has a doc comment.  A comment shorter than the least length, blanks at its ends not
counted, is none.
-/

namespace DocAudit.Rule

open DocAudit.Text DocAudit.Yaml

namespace DocPresence

/-- The id of the rule. -/
def id : String := "doc-presence"

/-- The options of the rule. -/
structure Options where
  minLength : Int64
deriving Repr, DecidableEq

/-- The options of a rule that is given none. -/
def Options.default : Options := ⟨1⟩

/-- How the options are decoded. -/
def Options.slot : Slot Options := recordSlot false "rules.DocPresenceOptions" [
  field "min_length" intSlot (·.minLength) fun _ v => ⟨v⟩]

/-- How many characters a doc text has between the blanks at its ends. -/
def docLength (doc : String) : Nat := (trim doc).length

/-- Whether an element lacks a doc comment of the least length. -/
def lacksDoc (o : Options) (v : Inventory) (e : Element) : Bool :=
  decide ((docLength ((v.doc? e).getD "") : Int) < o.minLength.toInt)

/-- The message about an element. -/
def message (e : Element) : String := "Missing doc comment: " ++ e.displayName

/-- The findings under some options. -/
def findings (o : Options) (v : Inventory) : List Finding := report (lacksDoc o v) message v

end DocPresence

/-- **Every element has a doc comment.** -/
def docPresence : Rule where
  id := DocPresence.id
  description := "every element in scope must carry a doc comment"
  prepare options := do
    let o ← readOptions DocPresence.id DocPresence.Options.slot .default options
    if o.minLength < 1 then
      throw (Error.ruleOptions DocPresence.id (.plain "min_length must be at least 1"))
    return looking (DocPresence.findings o)

end DocAudit.Rule
