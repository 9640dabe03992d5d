import DocAudit.Source.Comment
import DocAudit.Config.Basic

/-!
# Annotations

An element's annotations are the directives in its doc comment, the label of a deprecated
declaration and the label of a machine-written file, in this order.
-/

namespace DocAudit.Source

open DocAudit.Text

/-- A lower-case letter of the plain alphabet. -/
def isLowerLetter (c : Char) : Bool := 'a' ≤ c && c ≤ 'z'

/-- The directive that a comment is: the first word after its slashes, if it has the form
`name:arg` and no blank stands before it. -/
def directive? (text : String) : Option String := do
  let body ← dropStart? ['/', '/'] text.toList
  if body.head? == some ' ' then none
  let word ← (words body).head?
  let (name, arg) ← cutFirst [':'] word
  let first ← arg.head?
  if !name.isEmpty && name.all isToolChar && isLowerLetter first then some (String.ofList word)
  else none

/-- Whether one of some lines opens a paragraph with the mark of a deprecated declaration;
`open_` tells whether the first line opens a paragraph. -/
def deprecatedIn (open_ : Bool) : List (List Char) → Bool
  | [] => false
  | l :: ls =>
    (open_ && startsWith "Deprecated: ".toList l) || deprecatedIn (l.all isBlank) ls

/-- Whether a doc text has a paragraph that marks its declaration as deprecated. -/
def isDeprecated (doc : String) : Bool := deprecatedIn true (splitAt '\n' doc.toList)

/-- The annotations that a doc comment makes. -/
def docAnnotations (doc : CommentGroup) : List String :=
  doc.filterMap (fun c => directive? c.text) ++
    (if isDeprecated doc.text then [Config.deprecatedLabel] else [])

/-- **The annotations of a declaration** with the given doc comment. -/
def annotations (doc : Option CommentGroup) (generated : Bool) : List String :=
  (match doc with
    | some g => docAnnotations g
    | none => []) ++ (if generated then [Config.generatedLabel] else [])

end DocAudit.Source
