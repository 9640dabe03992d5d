import DocAudit.Config.Load
import DocAudit.Text.Quoted

/-!
# Flags of a command line

A flag has a long name after two dashes and maybe a letter after one dash.  A switch stands alone;
any other flag has a value, after an equals sign or as the next argument.  What is no flag is an
operand, and so is everything after `--`.

* `parse` splits arguments into flags and operands; of two values for a flag the later one holds.
* `flagLines` describes flags, one a line, with the descriptions in one column.
-/

namespace DocAudit.Command

open DocAudit.Text

/-! ## 1. Flags -/

/-- What a flag takes. -/
inductive FlagKind where
  /-- Nothing, or a truth value after an equals sign. -/
  | switch
  /-- A text. -/
  | text (default : String)
deriving Repr, DecidableEq, Inhabited

/-- A flag. -/
structure Flag where
  name : String
  letter : Option Char
  kind : FlagKind
  usage : String
deriving Repr, DecidableEq, Inhabited

/-- The value of a flag that stands alone, if it may. -/
def Flag.alone? (f : Flag) : Option String :=
  match f.kind with
  | .switch => some "true"
  | .text _ => none

/-- How an error names a flag. -/
def Flag.label (f : Flag) : String :=
  match f.letter with
  | some c => "-" ++ String.ofList [c] ++ ", --" ++ f.name
  | none => "--" ++ f.name

/-- A value checked against what a flag takes. -/
def Flag.check (f : Flag) (value : String) : Except Error Unit :=
  match f.kind with
  | .text _ => .ok ()
  | .switch =>
    if (Config.truthWord? value).isSome then .ok ()
    else
      .error (.plain ("invalid argument " ++ quoted value ++ " for " ++ quoted f.label ++
        " flag: strconv.ParseBool: parsing " ++ quoted value ++ ": invalid syntax"))

/-- The flag of a long name. -/
def byName? (flags : List Flag) (name : String) : Option Flag := flags.find? (·.name == name)

/-- The flag of a letter. -/
def byLetter? (flags : List Flag) (c : Char) : Option Flag := flags.find? (·.letter == some c)

/-! ## 2. Parsing -/

/-- The flags and operands of a command line, in the order in which they stand. -/
structure Parsed where
  given : List (String × String)
  operands : List String
deriving Repr, DecidableEq, Inhabited

namespace Parsed

/-- The value given for a text flag. -/
def text (p : Parsed) (name : String) : String := (p.given.reverse.lookup name).getD ""

/-- The value given for a text flag, or its default. -/
def textOr (p : Parsed) (name default : String) : String :=
  (p.given.reverse.lookup name).getD default

/-- Whether a switch is on. -/
def on (p : Parsed) (name : String) : Bool :=
  ((p.given.reverse.lookup name).bind Config.truthWord?).getD false

end Parsed

/-- What an argument amounts to. -/
inductive Step where
  | operand
  /-- Everything after it is an operand. -/
  | stop
  /-- Flags with values; `next` tells whether the next argument is one of the values. -/
  | flags (given : List (String × String)) (next : Bool)

/-- A letter as an error shows it: by the first byte that stands for it. -/
def letterText (c : Char) : String :=
  let d := match (String.ofList [c]).toUTF8.toList with
    | [] => c
    | b :: _ => Char.ofNat b.toNat
  let body := if d == '\'' then ['\\', '\''] else if d == '"' then ['"'] else quoteChar d
  String.ofList ('\'' :: body ++ ['\''])

/-- A flag with its value, checked. -/
def checkedStep (f : Flag) (value : String) (next : Bool) : Except Error Step := do
  f.check value
  return .flags [(f.name, value)] next

/-- A flag by its long name, which is followed by `=` and a value, or by the next argument. -/
def longStep (flags : List Flag) (arg : String) (body : List Char) (next : Option String) :
    Except Error Step :=
  match body with
  | [] => .error (.plain ("bad flag syntax: " ++ arg))
  | c :: _ =>
    if c == '-' || c == '=' then .error (.plain ("bad flag syntax: " ++ arg))
    else
      let (name, value) : String × Option String := match cutFirst ['='] body with
        | some (n, v) => (String.ofList n, some (String.ofList v))
        | none => (String.ofList body, none)
      match byName? flags name with
      | none => .error (.plain ("unknown flag: --" ++ name))
      | some f =>
        match value <|> f.alone?, next with
        | some v, _ => checkedStep f v false
        | none, some v => checkedStep f v true
        | none, none => .error (.plain ("flag needs an argument: " ++ arg))

/-- Flags by their letters: switches may stand together, and the first flag that takes a value takes
the rest, or the next argument.  Letters from `test.` on are ignored. -/
def letterStep (flags : List Flag) (next : Option String) :
    List Char → Except Error (List (String × String) × Bool)
  | [] => .ok ([], false)
  | c :: cs => do
    if startsWith "test.".toList (c :: cs) then return ([], false)
    match byLetter? flags c with
    | none =>
      let group := String.ofList (c :: cs)
      throw (.plain ("unknown shorthand flag: " ++ letterText c ++ " in -" ++ group))
    | some f =>
      match cs, f.alone?, next with
      | '=' :: d :: v, _, _ =>
        let value := String.ofList (d :: v)
        f.check value
        return ([(f.name, value)], false)
      | cs, some value, _ =>
        let (rest, took) ← letterStep flags next cs
        return ((f.name, value) :: rest, took)
      | d :: v, none, _ => return ([(f.name, String.ofList (d :: v))], false)
      | [], none, some value => return ([(f.name, value)], true)
      | [], none, none =>
        throw (.plain ("flag needs an argument: " ++ letterText c ++ " in -" ++
          String.ofList (c :: cs)))

/-- What an argument amounts to, given the one after it. -/
def stepOf (flags : List Flag) (arg : String) (next : Option String) : Except Error Step :=
  match arg.toList with
  | ['-', '-'] => .ok .stop
  | '-' :: '-' :: body => longStep flags arg body next
  | '-' :: c :: body => do
    let (given, took) ← letterStep flags next (c :: body)
    return .flags given took
  | _ => .ok .operand

/-- **Splits arguments into flags and operands.** -/
def parse (flags : List Flag) (args : List String) : Except Error Parsed :=
  match args with
  | [] => .ok ⟨[], []⟩
  | a :: rest => do
    match ← stepOf flags a rest.head? with
    | .stop => return ⟨[], rest⟩
    | .operand =>
      let p ← parse flags rest
      return { p with operands := a :: p.operands }
    | .flags given false =>
      let p ← parse flags rest
      return { p with given := given ++ p.given }
    | .flags given true =>
      let p ← parse flags (rest.drop 1)
      return { p with given := given ++ p.given }
termination_by args.length
decreasing_by all_goals simp; try omega

/-! ## 3. Finding operands without parsing -/

/-- Whether the argument after a flag is taken for its value, as far as the flags known so far
tell.  A letter counts only if it is a single byte. -/
def takesNext (flags : List Flag) (arg : String) : Bool :=
  match arg.toList with
  | '-' :: '-' :: name =>
    !name.contains '=' && ((byName? flags (String.ofList name)).bind Flag.alone?).isNone
  | ['-', c] =>
    c.utf8Size == 1 && c != '=' && ((byLetter? flags c).bind Flag.alone?).isNone
  | _ => false

/-- The first operand of some arguments, and the arguments without it. -/
def firstOperand? (flags : List Flag) : List String → Option (String × List String)
  | [] => none
  | a :: rest =>
    if a == "--" then none
    else if takesNext flags a then
      match rest with
      | v :: w :: more => (firstOperand? flags (w :: more)).map fun (x, r) => (x, a :: v :: r)
      | _ => none
    else if a != "" && !hasStart a "-" then some (a, rest)
    else (firstOperand? flags rest).map fun (x, r) => (x, a :: r)

/-! ## 4. Descriptions -/

/-- A flag as its description starts. -/
def Flag.head (f : Flag) : String :=
  (match f.letter with
    | some c => "  -" ++ String.ofList [c] ++ ", --" ++ f.name
    | none => "      --" ++ f.name) ++
    match f.kind with
    | .text _ => " string"
    | .switch => ""

/-- What a flag does, and its default. -/
def Flag.body (f : Flag) : String :=
  f.usage ++ match f.kind with
    | .text d => if d == "" then "" else " (default " ++ quoted d ++ ")"
    | .switch => ""

/-- Flags by name. -/
def sortFlags (flags : List Flag) : List Flag := flags.mergeSort fun a b => decide (a.name ≤ b.name)

/-- The descriptions of flags, one a line. -/
def flagLines (flags : List Flag) : String :=
  let sorted := sortFlags flags
  let width := (sorted.map fun f => f.head.length).foldl max 0
  join "\n" (sorted.map fun f => f.head ++ rep (width - f.head.length) ' ' ++ "   " ++ f.body)

end DocAudit.Command
