import DocAudit.Data
import DocAudit.Text.Category
import DocAudit.Yaml.Decode

/-!
# Nodes and data

`Node.toData` is the data that a node describes and `Node.ofData` a node that describes data.  A
text that would be read back as something else gets quotes, and the keys of a mapping are sorted in
the order in which a reader expects them (`keyBefore`): numbers inside them by their size.
-/

namespace DocAudit.Yaml

open DocAudit.Text DocAudit.Decimal

/-! ## 1. From nodes to data -/

/-- The data of a scalar's value; a date is a text. -/
def Value.toData : Value → Data
  | .null => .null
  | .bool b => .bool b
  | .int n => .int n
  | .float x => .float x
  | .date m => .text m.text
  | .text s => .text s

/-- A value as the name of an entry. -/
def Value.label : Value → String
  | .null => "<nil>"
  | .bool b => if b then "true" else "false"
  | .int n => toString n
  | .float x => general.write x
  | .date m => m.label
  | .text s => s

mutual

/-- The data of a content. -/
def Content.toData : Content → Data
  | .scalar v => v.toData
  | .list items => .list (dataOfItems items)
  | .table _ entries => .record (dataOfEntries entries)

/-- The data of the items of a list. -/
def dataOfItems : List Content → List Data
  | [] => []
  | c :: cs => c.toData :: dataOfItems cs

/-- The data of the entries of a table. -/
def dataOfEntries : List (Value × Content) → List (String × Data)
  | [] => []
  | (k, c) :: es => (k.label, c.toData) :: dataOfEntries es

end

/-- **The data that a node describes.** -/
def Node.toData (n : Node) : Except Error Data :=
  (contentSlot.run n .null).map Content.toData

/-! ## 2. From data to nodes -/

/-- Words that older documents use for truth values. -/
def truthWords : List String :=
  ["y", "Y", "yes", "Yes", "YES", "on", "On", "ON", "n", "N", "no", "No", "NO", "off", "Off", "OFF"]

/-- A number below sixty, in one or two digits. -/
def isSixtieth (cs : List Char) : Bool :=
  match cs with
  | [d] => d.isDigit
  | [t, d] => '0' ≤ t && t ≤ '5' && d.isDigit
  | _ => false

/-- The parts of a number to the base sixty after the first, the last of which may have a
fraction. -/
def areSixtieths : List (List Char) → Bool
  | [] => false
  | [p] =>
    match cutFirst ['.'] p with
    | some (w, f) => isSixtieth w && f.all fun c => c.isDigit || c == '_'
    | none => isSixtieth p
  | p :: ps => isSixtieth p && areSixtieths ps

/-- Whether a text is a number to the base sixty, as older documents write times. -/
def isSexagesimal (s : String) : Bool :=
  let cs := match s.toList with
    | c :: cs => if c == '+' || c == '-' then cs else c :: cs
    | [] => []
  match splitAt ':' cs with
  | (d :: first) :: rest =>
    d.isDigit && first.all (fun c => c.isDigit || c == '_') && areSixtieths rest
  | _ => false

/-- Whether a text stands for itself without quotes. -/
def isSelfEvident (s : String) : Bool :=
  (resolve s).tag == "!!str" && !isSexagesimal s && !truthWords.contains s

/-- The node of a text. -/
def Node.ofText (s : String) : Node :=
  let style := if s.toList.contains '\n' then ScalarStyle.literal
    else if isSelfEvident s then .plain else .double
  .scalar (Head.ofTag "!!str") style s

/-- The node of a truth value. -/
def Node.ofBool (b : Bool) : Node :=
  .scalar (Head.ofTag "!!bool") .plain (if b then "true" else "false")

/-- The node of a whole number. -/
def Node.ofInt (n : Int) : Node := .scalar (Head.ofTag "!!int") .plain (toString n)

/-- Numbers in documents. -/
def documentNumber : Style := { general with nan := ".nan", posInf := ".inf", negInf := "-.inf" }

/-- The node of a number; a text without fraction is read back as a whole one. -/
def Node.ofFloat (x : Binary64) : Node :=
  let text := documentNumber.write x
  .scalar (Head.ofTag (resolve text).tag) .plain text

/-- A block sequence. -/
def Node.ofList (ns : List Node) : Node := .seq (Head.ofTag "!!seq") false ns

/-- A block mapping with names as keys. -/
def Node.ofEntries (es : List (String × Node)) : Node :=
  .map (Head.ofTag "!!map") false (es.map fun e => (Node.ofText e.1, e.2))

/-- The number that the digits at the start of a text make, after a carry, and how many they are.
A number beyond 64 bits wraps around. -/
def leadingNumber (carry : Int64) (cs : List Char) : Int64 × Nat :=
  let ds := cs.takeWhile isDecimalDigit
  (ds.foldl (fun n d => n * 10 + Int64.ofNat (d.toNat - '0'.toNat)) carry, ds.length)

/-- Whether one key comes before another; `seen` holds the characters they share so far, in
reverse. -/
def keyBeforeFrom (seen : List Char) : List Char → List Char → Bool
  | a :: as, b :: bs =>
    if a == b then keyBeforeFrom (a :: seen) as bs
    else
      let al := isLetter a
      let bl := isLetter b
      if al && bl then a < b
      else if al || bl then
        (if (seen.head?.map isDecimalDigit).getD false then al else bl)
      else
        let carry : Int64 := if (a == '0' || b == '0') &&
          (seen.takeWhile isDecimalDigit).any (· != '0') then 1 else 0
        let (an, ai) := leadingNumber carry (a :: as)
        let (bn, bi) := leadingNumber carry (b :: bs)
        if an != bn then an < bn else if ai != bi then ai < bi else a < b
  | [], _ :: _ => true
  | _, [] => false

/-- The order of the keys of a mapping. -/
def keyBefore (a b : String) : Bool := keyBeforeFrom [] a.toList b.toList

/-- Entries in the order of their keys. -/
def sortKeys {α : Type} (es : List (String × α)) : List (String × α) :=
  es.mergeSort fun a b => !keyBefore b.1 a.1

mutual

/-- A node that describes data. -/
def Node.ofData : Data → Node
  | .null => .scalar (Head.ofTag "!!null") .plain "null"
  | .bool b => .ofBool b
  | .int n => .ofInt n
  | .float x => .ofFloat x
  | .text s => .ofText s
  | .list xs => .ofList (nodesOfData xs)
  | .record es => .ofEntries (sortKeys (entriesOfData es))

/-- Nodes that describe the items of a list. -/
def nodesOfData : List Data → List Node
  | [] => []
  | x :: xs => Node.ofData x :: nodesOfData xs

/-- Nodes that describe the entries of a record. -/
def entriesOfData : List (String × Data) → List (String × Node)
  | [] => []
  | (k, v) :: es => (k, Node.ofData v) :: entriesOfData es

end

end DocAudit.Yaml
