import DocAudit.Data.Json
import DocAudit.Data.Table
import DocAudit.Error
import DocAudit.Yaml.Write

/-!
# Output of commands

A command gives a table, bytes or data, and the format decides how it is written: as text, as JSON
or as YAML.
-/

namespace DocAudit

open Text

/-- A format of output. -/
inductive OutputFormat where
  | text
  | json
  | yaml
deriving Repr, DecidableEq, Inhabited

namespace OutputFormat

/-- The name of a format. -/
def name : OutputFormat → String
  | .text => "text"
  | .json => "json"
  | .yaml => "yaml"

/-- The formats by name. -/
def all : List OutputFormat := [text, json, yaml]

/-- The format with a name; what names none is text. -/
def ofName (s : String) : OutputFormat := (all.find? (·.name == s)).getD .text

/-- The name of the format that a setting asks for, if it is among the allowed ones; without a
setting it is text. -/
def parse (s : String) (allowed : List String) : Except Error String :=
  let asked := lowerText (trim s)
  let asked := if asked == "" then text.name else asked
  if allowed.contains asked then .ok asked
  else .error (.setting "--format" ("unsupported format " ++ quoted s ++ " (must be one of " ++
    join ", " allowed ++ ")") none)

end OutputFormat

/-- What a command gives. -/
inductive Output where
  | table (t : Table)
  | bytes (b : ByteArray)
  | data (d : Data)

/-- The digits of base 64. -/
def base64Digit (n : Nat) : Char :=
  if n < 26 then Char.ofNat (65 + n) else if n < 52 then Char.ofNat (71 + n)
  else if n < 62 then Char.ofNat (n - 4) else if n == 62 then '+' else '/'

/-- Bytes in base 64, three at a time. -/
def base64 : List UInt8 → List Char
  | [] => []
  | [a] =>
    let n := a.toNat * 65536
    [base64Digit (n / 262144), base64Digit (n / 4096 % 64), '=', '=']
  | [a, b] =>
    let n := a.toNat * 65536 + b.toNat * 256
    [base64Digit (n / 262144), base64Digit (n / 4096 % 64), base64Digit (n / 64 % 64), '=']
  | a :: b :: c :: rest =>
    let n := a.toNat * 65536 + b.toNat * 256 + c.toNat
    base64Digit (n / 262144) :: base64Digit (n / 4096 % 64) :: base64Digit (n / 64 % 64) ::
      base64Digit (n % 64) :: base64 rest

namespace Output

/-- Output as data for a JSON document. -/
def jsonData : Output → Data
  | .table t => t.toData
  | .bytes b => .text (String.ofList (base64 b.toList))
  | .data d => d

/-- Output as data for a YAML document. -/
def yamlData : Output → Data
  | .table t => t.toData
  | .bytes b => .list (b.toList.map fun x => .int x.toNat)
  | .data d => d

/-- Output as text. -/
def plainText : Output → String
  | .table t => t.toText
  | .bytes b => (String.fromUTF8? b).getD ""
  | .data d => d.plain ++ "\n"

/-- **Output in a format.** -/
def render (f : OutputFormat) (o : Output) : String :=
  match f with
  | .text => o.plainText
  | .json => o.jsonData.jsonIndented ++ "\n"
  | .yaml => (Yaml.Node.ofData o.yamlData).write

/-- Output as JSON on one line. -/
def renderCompact (o : Output) : String := o.jsonData.json ++ "\n"

end Output

end DocAudit
