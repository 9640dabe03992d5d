import DocAudit.Rule
import DocAudit.Text.Category
import DocAudit.Text.Blank
import DocAudit.Text.Quoted

/-!
# The doc-name-prefix rule

A doc comment begins with the name of its element, an article before it aside.

* `startsWithName` compares the first word with the name: the word may go on after the name, but not
  with a character that could belong to a name.
* Elements without a doc comment are none of this rule's business.
-/

namespace DocAudit.Rule

open DocAudit.Text DocAudit.Yaml

namespace DocNamePrefix

/-- The id of the rule. -/
def id : String := "doc-name-prefix"

/-- The options of the rule. -/
structure Options where
  /-- Whether an article may stand before the name. -/
  allowArticles : Bool
  /-- The kinds of elements that are left alone. -/
  skipKinds : List Kind
deriving Repr, DecidableEq

/-- The options of a rule that is given none. -/
def Options.default : Options := ⟨true, []⟩

/-- How the options are decoded. -/
def Options.slot : Slot Options := recordSlot false "rules.DocNamePrefixOptions" [
  field "allow_articles" boolSlot (·.allowArticles) fun o v => { o with allowArticles := v },
  field "skip_kinds" (listSlot "[]model.Kind" (wordSlot "model.Kind" Kind.mk) ⟨""⟩) (·.skipKinds)
    fun o v => { o with skipKinds := v }]

/-- The articles. -/
def articles : List (List Char) := ["A".toList, "An".toList, "The".toList]

/-- A character that a name can go on with. -/
def isNameChar (c : Char) : Bool := isLetter c || isDecimalDigit c || c == '_'

/-- Whether a word is the name, or goes on after it with something that ends a name. -/
def isNameWord (name word : List Char) : Bool :=
  match dropStart? name word with
  | none => false
  | some [] => true
  | some (c :: _) => !isNameChar c

/-- The words of a text from the one on that should be the name. -/
def fromName (allowArticles : Bool) : List (List Char) → List (List Char)
  | w :: v :: rest => if allowArticles && articles.contains w then v :: rest else w :: v :: rest
  | ws => ws

/-- **Whether a doc text begins with a name.** -/
def startsWithName (doc name : String) (allowArticles : Bool) : Bool :=
  match fromName allowArticles (words doc.toList) with
  | [] => false
  | w :: _ => isNameWord name.toList w

/-- Whether an element has a doc comment that begins otherwise. -/
def misnamed (o : Options) (v : Inventory) (e : Element) : Bool :=
  !o.skipKinds.contains e.kind &&
    match v.doc? e with
    | none => false
    | some doc => trim doc != "" && !startsWithName doc e.name o.allowArticles

/-- The message about an element. -/
def message (e : Element) : String :=
  "Doc comment for " ++ e.displayName ++ " should begin with " ++ quoted e.name

/-- The findings under some options. -/
def findings (o : Options) (v : Inventory) : List Finding := report (misnamed o v) message v

end DocNamePrefix

/-- **A doc comment begins with the name of its element.** -/
def docNamePrefix : Rule where
  id := DocNamePrefix.id
  description := "doc comments must begin with the name of the element"
  prepare options := do
    let o ← readOptions DocNamePrefix.id DocNamePrefix.Options.slot .default options
    match o.skipKinds.find? fun k => !Kind.all.contains k with
    | some k =>
      throw (Error.ruleOptions DocNamePrefix.id
        (.plain ("unknown kind " ++ quoted k.text ++ " in skip_kinds")))
    | none => return looking (DocNamePrefix.findings o)

end DocAudit.Rule
