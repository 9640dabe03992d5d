import DocAudit.Data
import DocAudit.Text.Quoted

/-!
# Data as JSON

`Data.json` writes data on one line and `Data.jsonIndented` on many; both write a text through
`jsonText`, whose escapes depend on where the document goes.
-/

namespace DocAudit

open Decimal Text

/-- Which characters a JSON text escapes beyond those that the format requires. -/
structure JsonEscapes where
  /-- Whether the characters of markup are written by their numbers. -/
  markup : Bool
  /-- Whether backspace and form feed have short escapes. -/
  shortControls : Bool
deriving Repr, DecidableEq

/-- The escapes of documents. -/
def JsonEscapes.document : JsonEscapes := ⟨true, true⟩

/-- The escapes of log records. -/
def JsonEscapes.log : JsonEscapes := ⟨false, false⟩

/-- A character by its number. -/
def jsonNumberEscape (c : Char) : List Char := '\\' :: 'u' :: hexPad 4 c.toNat

/-- A character inside a JSON text. -/
def jsonChar (e : JsonEscapes) (c : Char) : List Char :=
  if c == '"' then ['\\', '"']
  else if c == '\\' then ['\\', '\\']
  else if c == '\n' then ['\\', 'n']
  else if c == '\r' then ['\\', 'r']
  else if c == '\t' then ['\\', 't']
  else if e.shortControls && c == '\x08' then ['\\', 'b']
  else if e.shortControls && c == '\x0c' then ['\\', 'f']
  else if c.toNat < 0x20 || c.toNat == 0x2028 || c.toNat == 0x2029 then jsonNumberEscape c
  else if e.markup && (c == '<' || c == '>' || c == '&') then jsonNumberEscape c
  else [c]

/-- A JSON text with its quotes. -/
def jsonText (e : JsonEscapes) (s : String) : String :=
  "\"" ++ String.ofList (s.toList.flatMap (jsonChar e)) ++ "\""

/-- Numbers in JSON: positional from a millionth up to 10^21. -/
def jsonNumber : Style := ⟨-6, 21, 1, "null", "null", "null"⟩

namespace Data

mutual

/-- Data as JSON on one line. -/
def json : Data → String
  | .null => "null"
  | .bool b => if b then "true" else "false"
  | .int n => toString n
  | .float x => jsonNumber.write x
  | .text s => jsonText .document s
  | .list xs => "[" ++ join "," (jsonItems xs) ++ "]"
  | .record es => "\x7b" ++ join "," (jsonEntries es) ++ "\x7d"

/-- The items of a list on one line. -/
def jsonItems : List Data → List String
  | [] => []
  | x :: xs => x.json :: jsonItems xs

/-- The entries of a record on one line. -/
def jsonEntries : List (String × Data) → List String
  | [] => []
  | (k, v) :: es => (jsonText .document k ++ ":" ++ v.json) :: jsonEntries es

end

/-- Lines between brackets, one level deeper; nothing between them if there are none. -/
def jsonBlock (indent : String) (opening closing : String) (lines : List String) : String :=
  if lines.isEmpty then opening ++ closing
  else
    opening ++ "\n" ++ join ",\n" (lines.map (indent ++ "  " ++ ·)) ++ "\n" ++ indent ++ closing

mutual

/-- Data as JSON with one item or entry to a line, two blanks deeper at each level. -/
def jsonAt (indent : String) : Data → String
  | .list xs => jsonBlock indent "[" "]" (jsonItemsAt (indent ++ "  ") xs)
  | .record es => jsonBlock indent "\x7b" "\x7d" (jsonEntriesAt (indent ++ "  ") es)
  | .null => "null"
  | .bool b => if b then "true" else "false"
  | .int n => toString n
  | .float x => jsonNumber.write x
  | .text s => jsonText .document s

/-- The items of a list at a level. -/
def jsonItemsAt (indent : String) : List Data → List String
  | [] => []
  | x :: xs => x.jsonAt indent :: jsonItemsAt indent xs

/-- The entries of a record at a level. -/
def jsonEntriesAt (indent : String) : List (String × Data) → List String
  | [] => []
  | (k, v) :: es => (jsonText .document k ++ ": " ++ v.jsonAt indent) :: jsonEntriesAt indent es

end

/-- Data as JSON on many lines. -/
def jsonIndented (d : Data) : String := d.jsonAt ""

end Data

end DocAudit
