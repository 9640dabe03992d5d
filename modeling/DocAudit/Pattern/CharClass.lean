import DocAudit.Text.Category
import DocAudit.Text.Script
import DocAudit.Text.Case

/-!
# Character classes of patterns

A class is a union of items, taken as it is or negated as a whole.  An item is a range of code
points or a named set; under folding it holds every character that differs in case only from one
of its own.
-/

namespace DocAudit.Pattern

open DocAudit.Text

/-! ## 1. Named sets -/

/-- A set of characters: what is in one of the tables, or what is in none. -/
structure NamedSet where
  tables : List CharTable
  negated : Bool
deriving Inhabited

/-- Whether a table holds a character. -/
def NamedSet.inTables (s : NamedSet) (c : Char) : Bool := s.tables.any (·.has c)

/-- Whether a set holds a character. -/
def NamedSet.has (s : NamedSet) (c : Char) : Bool := s.inTables c != s.negated

/-- The complement of a set. -/
def NamedSet.compl (s : NamedSet) : NamedSet := ⟨s.tables, !s.negated⟩

/-- The set that a line of runs writes. -/
def NamedSet.ofRuns (s : String) : NamedSet := ⟨[CharTable.ofLines [s]], false⟩

/-- The digits of the plain alphabet. -/
def digits : NamedSet := .ofRuns "30-39"

/-- Letters and digits of the plain alphabet and the underscore. -/
def wordChars : NamedSet := .ofRuns "30-39 41-5a 5f 61-7a"

/-- The classes written between `[:` and `:]`. -/
def bracketSets : List (String × NamedSet) := [
  ("alnum", .ofRuns "30-39 41-5a 61-7a"),
  ("alpha", .ofRuns "41-5a 61-7a"),
  ("ascii", .ofRuns "0-7f"),
  ("blank", .ofRuns "9 20"),
  ("cntrl", .ofRuns "0-1f 7f"),
  ("digit", digits),
  ("graph", .ofRuns "21-7e"),
  ("lower", .ofRuns "61-7a"),
  ("print", .ofRuns "20-7e"),
  ("punct", .ofRuns "21-2f 3a-40 5b-60 7b-7e"),
  ("space", .ofRuns "9-d 20"),
  ("upper", .ofRuns "41-5a"),
  ("word", wordChars),
  ("xdigit", .ofRuns "30-39 41-46 61-66")]

/-- The class that a letter after a backslash stands for. -/
def letterSet? (c : Char) : Option NamedSet :=
  match c with
  | 'd' => some digits
  | 'D' => some digits.compl
  | 's' => some (.ofRuns "9-a c-d 20")
  | 'S' => some (NamedSet.ofRuns "9-a c-d 20").compl
  | 'w' => some wordChars
  | 'W' => some wordChars.compl
  | _ => none

/-! ## 2. Properties of the standard -/

/-- The tables of the categories of which `p` holds. -/
def categoryTables (p : Category → Bool) : List CharTable :=
  (Category.all.filter p).filterMap Category.table?

/-- The categories that a one- or two-letter code names. -/
def categorySet? (code : String) : Option NamedSet :=
  if code == "C" then
    some ⟨categoryTables fun k => !startsWith ['C'] k.code.toList, true⟩
  else if code == "Cn" then some ⟨categoryTables fun _ => true, true⟩
  else if code == "LC" then some ⟨[tableLl, tableLt, tableLu], false⟩
  else if code == "" then none
  else
    let ks := categoryTables fun k =>
      k.code == code || (code.length == 1 && startsWith code.toList k.code.toList)
    if ks.isEmpty then none else some ⟨ks, false⟩

/-- The long names of the categories. -/
def categoryAliases : List (String × String) := [
  ("Cased_Letter", "LC"), ("Close_Punctuation", "Pe"), ("Connector_Punctuation", "Pc"),
  ("Control", "Cc"), ("Currency_Symbol", "Sc"), ("Dash_Punctuation", "Pd"),
  ("Decimal_Number", "Nd"), ("Enclosing_Mark", "Me"), ("Final_Punctuation", "Pf"),
  ("Format", "Cf"), ("Initial_Punctuation", "Pi"), ("Letter", "L"), ("Letter_Number", "Nl"),
  ("Line_Separator", "Zl"), ("Lowercase_Letter", "Ll"), ("Mark", "M"), ("Combining_Mark", "M"),
  ("Math_Symbol", "Sm"), ("Modifier_Letter", "Lm"), ("Modifier_Symbol", "Sk"),
  ("Nonspacing_Mark", "Mn"), ("Number", "N"), ("Open_Punctuation", "Ps"), ("Other", "C"),
  ("Other_Letter", "Lo"), ("Other_Number", "No"), ("Other_Punctuation", "Po"),
  ("Other_Symbol", "So"), ("Paragraph_Separator", "Zp"), ("Private_Use", "Co"),
  ("Punctuation", "P"), ("Separator", "Z"), ("Space_Separator", "Zs"), ("Spacing_Mark", "Mc"),
  ("Surrogate", "Cs"), ("Symbol", "S"), ("Titlecase_Letter", "Lt"), ("Unassigned", "Cn"),
  ("Uppercase_Letter", "Lu"), ("cntrl", "Cc"), ("digit", "Nd"), ("punct", "P")]

/-- A property name in lower case and without blanks, dashes and underscores. -/
def looseName (s : String) : List Char :=
  (s.toList.filter fun c => c != '_' && c != '-' && c != ' ').map Char.toLower

/-- The set that a property name stands for: a category by code or name, a script by name, or one
of three general sets. -/
def propertySet? (name : String) : Option NamedSet :=
  let loose := looseName name
  let same (s : String) : Bool := looseName s == loose
  if same "Any" then some ⟨[], true⟩
  else if same "Assigned" then (categorySet? "Cn").map (·.compl)
  else if same "ASCII" then some (.ofRuns "0-7f")
  else
    let codes := ["C", "L", "M", "N", "P", "S", "Z", "LC", "Cn"] ++ Category.all.map (·.code)
    match codes.find? same with
    | some code => categorySet? code
    | none =>
      match scripts.find? fun p => same p.1 with
      | some p => some ⟨[p.2], false⟩
      | none => (categoryAliases.find? fun p => same p.1).bind fun p => categorySet? p.2

/-! ## 3. Classes -/

/-- What an item of a class holds, before folding. -/
inductive ClassItem where
  /-- The code points from `lo` to `hi`. -/
  | range (lo hi : Nat)
  /-- A named set. -/
  | named (set : NamedSet)

/-- A character class. -/
structure CharClass where
  negated : Bool
  fold : Bool
  items : List ClassItem

/-- The characters to look for in place of `c`: those that differ in case only, under folding. -/
def folded (fold : Bool) (c : Char) : List Char := if fold then orbit c else [c]

/-- Whether an item holds a character. -/
def ClassItem.has (fold : Bool) (c : Char) : ClassItem → Bool
  | .range lo hi => (folded fold c).any fun d => decide (lo ≤ d.toNat) && decide (d.toNat ≤ hi)
  | .named s => (folded fold c).any s.inTables != s.negated

/-- Whether a class holds a character. -/
def CharClass.has (k : CharClass) (c : Char) : Bool := k.items.any (·.has k.fold c) != k.negated

end DocAudit.Pattern
