import DocAudit.Data.Json
import DocAudit.Error
import DocAudit.Text.Category

/-!
# Logs

A run makes log entries; a logger writes those that reach its level, each as one line.

* `Logger.line?` writes an entry as a JSON record or as `key=value` pairs, with or without the time;
* in pairs, a key or value that a reader could misread is quoted.
-/

namespace DocAudit.Log

open DocAudit.Text

/-! ## 1. Entries -/

/-- A level: a number on the scale on which the four named levels are four apart. -/
structure Level where
  value : Int
deriving Repr, DecidableEq, Inhabited

namespace Level

/-- For following a run in detail. -/
def debug : Level := ⟨-4⟩

/-- For what a run does. -/
def info : Level := ⟨0⟩

/-- For what may be wrong. -/
def warn : Level := ⟨4⟩

/-- For what is wrong. -/
def error : Level := ⟨8⟩

/-- A level by the named one below it and the distance from that. -/
def text (l : Level) : String :=
  let named (name : String) (base : Int) : String :=
    let d := l.value - base
    if d == 0 then name else if d < 0 then name ++ toString d else name ++ "+" ++ toString d
  if l.value < 0 then named "DEBUG" (-4)
  else if l.value < 4 then named "INFO" 0
  else if l.value < 8 then named "WARN" 4
  else named "ERROR" 8

/-- The level that a setting names. -/
def ofSetting? (s : String) : Option Level :=
  if s == "debug" || s == "DEBUG" then some debug
  else if s == "info" || s == "INFO" then some info
  else if s == "warn" || s == "WARN" || s == "warning" || s == "WARNING" || s == "" then some warn
  else if s == "error" || s == "ERROR" then some error
  else none

end Level

/-- The value of an attribute. -/
inductive Value where
  | text (s : String)
  | int (n : Int)
  | bool (b : Bool)
deriving Repr, DecidableEq, Inhabited

/-- A named value. -/
structure Attr where
  key : String
  value : Value
deriving Repr, DecidableEq, Inhabited

/-- An attribute with a text. -/
def Attr.ofText (key s : String) : Attr := ⟨key, .text s⟩

/-- An attribute with a number. -/
def Attr.ofInt (key : String) (n : Int) : Attr := ⟨key, .int n⟩

/-- An entry of a log. -/
structure Entry where
  level : Level
  message : String
  attrs : List Attr
deriving Repr, DecidableEq, Inhabited

/-- The ids of the run and the rule during which an entry is made; an empty one is absent. -/
structure Scope where
  runId : String
  ruleId : String
deriving Repr, DecidableEq, Inhabited

/-- The attributes that a scope adds to its entries. -/
def Scope.attrs (s : Scope) : List Attr :=
  (if s.runId == "" then [] else [.ofText "run_id" s.runId]) ++
    (if s.ruleId == "" then [] else [.ofText "rule_id" s.ruleId])

/-- An entry made in a scope. -/
def Entry.within (s : Scope) (e : Entry) : Entry := { e with attrs := e.attrs ++ s.attrs }

/-! ## 2. Loggers -/

/-- How entries are written. -/
inductive Format where
  | json
  | text
  /-- Pairs without the time. -/
  | console
deriving Repr, DecidableEq, Inhabited

/-- The format that a setting names. -/
def Format.ofSetting? (s : String) : Option Format :=
  if s == "json" || s == "JSON" then some .json
  else if s == "text" || s == "TEXT" || s == "" then some .text
  else if s == "console" || s == "CONSOLE" then some .console
  else none

/-- A logger: its level and format, the attributes it adds to every entry, and the group that it
puts the entries' own attributes in, if any. -/
structure Logger where
  level : Level
  format : Format
  fixed : List Attr
  group : String
deriving Repr, DecidableEq, Inhabited

/-- The logger of a pair of settings. -/
def Logger.ofSettings (level format : String) : Except Error Logger :=
  match Level.ofSetting? level with
  | none => .error (.context "invalid log level" (.plain ("unknown log level: " ++ level)))
  | some l =>
    match Format.ofSetting? format with
    | none => .error (.context "invalid log format" (.plain ("unknown log format: " ++ format)))
    | some f => .ok ⟨l, f, [], ""⟩

/-! ## 3. Lines -/

/-- Whether a character of a key or value makes it necessary to quote it. -/
def misreadable (c : Char) : Bool :=
  if c.toNat < 0x80 then c.toNat < 0x20 || c == ' ' || c == '=' || c == '"'
  else c.toNat == 0xFFFD || isBlank c || !isPrintable c

/-- Whether a key or value has to be quoted. -/
def needsQuotes (s : String) : Bool := s == "" || s.toList.any misreadable

/-- A key or value in a pair. -/
def pairText (s : String) : String := if needsQuotes s then quoted s else s

/-- A value without quotes. -/
def Value.bare : Value → String
  | .text s => s
  | .int n => toString n
  | .bool b => if b then "true" else "false"

/-- The key of a pair, in a group if there is one. -/
def pairKey (group key : String) : String :=
  if group == "" then pairText key
  else
    let start := group ++ "."
    if needsQuotes start || needsQuotes key then quoted (start ++ key) else start ++ key

/-- An attribute as a pair. -/
def Attr.pair (group : String) (a : Attr) : String :=
  pairKey group a.key ++ "=" ++ (match a.value with
    | .text s => pairText s
    | v => v.bare)

/-- An attribute as an entry of a JSON record. -/
def Attr.jsonEntry (a : Attr) : String :=
  jsonText .log a.key ++ ":" ++ (match a.value with
    | .text s => jsonText .log s
    | v => v.bare)

/-- Attributes outside groups, without the time where the format leaves it out. -/
def Format.admitted (f : Format) (attrs : List Attr) : List Attr :=
  match f with
  | .console => attrs.filter (·.key != "time")
  | _ => attrs

/-- An entry as a line, at a time. -/
def Logger.line (l : Logger) (time : String) (e : Entry) : String :=
  let fixed := l.format.admitted l.fixed
  let own := if l.group == "" then l.format.admitted e.attrs else e.attrs
  match l.format with
  | .json =>
    let head := [Attr.ofText "time" time, .ofText "level" e.level.text, .ofText "msg" e.message]
    let outer := (head ++ fixed).map Attr.jsonEntry
    let inner := own.map Attr.jsonEntry
    let all := if l.group == "" then outer ++ inner
      else if inner.isEmpty then outer
      else outer ++ [jsonText .log l.group ++ ":\x7b" ++ join "," inner ++ "\x7d"]
    "\x7b" ++ join "," all ++ "\x7d"
  | f =>
    let head := (if f == .text then ["time=" ++ time] else []) ++
      [(Attr.ofText "level" e.level.text).pair "", (Attr.ofText "msg" e.message).pair ""]
    join " " (head ++ fixed.map (Attr.pair "") ++ own.map (Attr.pair l.group))

/-- The line of an entry, if it reaches the logger's level. -/
def Logger.line? (l : Logger) (time : String) (e : Entry) : Option String :=
  if l.level.value ≤ e.level.value then some (l.line time e) else none

end DocAudit.Log
