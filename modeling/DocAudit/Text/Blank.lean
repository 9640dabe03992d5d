import DocAudit.Text.Split

/-!
# White space

The characters that separate words, and the removal of white space at the ends of a text.
-/

namespace DocAudit.Text

/-- A white space character: the control blanks, the plain and the no-break blank, the next-line
character and the separators of the Unicode standard. -/
def isBlank (c : Char) : Bool :=
  let n := c.toNat
  (9 ≤ n && n ≤ 13) || n == 0x20 || n == 0x85 || n == 0xA0 || n == 0x1680 ||
    (0x2000 ≤ n && n ≤ 0x200A) || n == 0x2028 || n == 0x2029 || n == 0x202F || n == 0x205F ||
    n == 0x3000

/-- Characters at the end of a list dropped while `p` holds. -/
def dropEndWhile {α : Type} (p : α → Bool) (cs : List α) : List α :=
  (cs.reverse.dropWhile p).reverse

/-- A list without the elements satisfying `p` at its two ends. -/
def trimBy {α : Type} (p : α → Bool) (cs : List α) : List α := dropEndWhile p (cs.dropWhile p)

/-- A text without white space at its two ends. -/
def trim (s : String) : String := String.ofList (trimBy isBlank s.toList)

/-- The words of a text. -/
def words (cs : List Char) : List (List Char) := wordsBy isBlank cs

end DocAudit.Text
