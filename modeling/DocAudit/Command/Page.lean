import DocAudit.Command.Flag
import DocAudit.Text.Blank
import DocAudit.Text.Case

/-!
# Commands and their pages

A command line names a command by the path to it in a tree of commands.  `descend` walks the tree,
and `Route.page` is the help for the command at the end of a walk.
-/

namespace DocAudit.Command

open DocAudit.Text

/-! ## 1. Commands -/

/-- How many operands a command takes. -/
inductive Arity where
  | any
  | none
  | atMost (n : Nat)
deriving Repr, DecidableEq, Inhabited

/-- What the operands of a command are, as far as a shell can suggest them. -/
inductive Operands where
  /-- Names of files, which the shell knows itself. -/
  | files
  | nothing
  /-- Words that name a command. -/
  | commands
deriving Repr, DecidableEq, Inhabited

/-- What a command is called and what it says about itself; a command without an action only holds
others. -/
structure Info (α : Type) where
  name : String
  /-- What follows the name where the use of the command is shown. -/
  form : String
  short : String
  long : String
  flags : List Flag
  arity : Arity
  operands : Operands := .files
  action : Option α

/-- A command and the commands below it. -/
inductive Tree (α : Type) where
  | mk (info : Info α) (children : List (Tree α))

namespace Tree

variable {α : Type}

/-- What a command says about itself. -/
def info : Tree α → Info α
  | .mk i _ => i

/-- The commands below a command. -/
def children : Tree α → List (Tree α)
  | .mk _ cs => cs

/-- The command below a command that has a name. -/
def child? (c : Tree α) (name : String) : Option (Tree α) :=
  c.children.find? (·.info.name == name)

end Tree

/-- A way from the top of the tree to a command: the commands passed, outermost first, and the
command itself. -/
structure Route (α : Type) where
  passed : List (Tree α)
  command : Tree α

namespace Route

variable {α : Type}

/-- The names on a route. -/
def path (r : Route α) : String :=
  join " " ((r.passed ++ [r.command]).map (·.info.name))

/-- Whether a route has not left the top. -/
def isTop (r : Route α) : Bool := r.passed.isEmpty

end Route

/-- Follows the operands of some arguments down the tree; the operands that name commands are taken
out of the arguments.  `flags` are the flags known at every command; `fuel` bounds the depth. -/
def descend {α : Type} (flags : List Flag) :
    (fuel : Nat) → Route α → List String → Route α × List String
  | 0, r, args => (r, args)
  | n + 1, r, args =>
    match firstOperand? (r.command.info.flags ++ flags) args with
    | none => (r, args)
    | some (name, rest) =>
      match r.command.child? name with
      | some c => descend flags n ⟨r.passed ++ [r.command], c⟩ rest
      | none => (r, args)

/-! ## 2. Suggestions -/

/-- A row of the table of edit distances: from the row above, for the character `c`. -/
def distanceRow (c : UInt8) (above : List Nat) : List UInt8 → (left : Nat) → List Nat
  | [], left => [left]
  | d :: ds, left =>
    match above with
    | a :: b :: more =>
      let here := if c == d then a else min left (min a b) + 1
      left :: distanceRow c (b :: more) ds here
    | _ => [left]

/-- The number of insertions, deletions and replacements between two texts. -/
def editDistance (s t : List UInt8) : Nat :=
  let start := List.range (t.length + 1)
  ((s.foldl (fun (row, i) c => (distanceRow c row t (i + 1), i + 1)) (start, 0)).1.getLast?).getD 0

/-- Whether a word is close to the name of a command. -/
def isNear (word name : String) : Bool :=
  let w := lowerText word
  let n := lowerText name
  editDistance w.toUTF8.toList n.toUTF8.toList ≤ 2 || hasStart n w

/-- The end of an error about a word that names no command: the names it is close to. -/
def suggestions (word : String) (names : List String) : String :=
  match names.filter (isNear word) with
  | [] => ""
  | near => "\n\nDid you mean this?\n" ++ join "" (near.map fun n => "\t" ++ n ++ "\n")

/-! ## 3. Pages -/

/-- The flag that asks for a page. -/
def helpFlag (name : String) : Flag := ⟨"help", some 'h', .switch, "help for " ++ name⟩

/-- A text with blanks after it up to a width. -/
def padRight (width : Nat) (s : String) : String := s ++ rep (width - s.length) ' '

/-- Commands by name, each with its line. -/
def commandLines {α : Type} (cs : List (Tree α)) : String :=
  let width := (cs.map fun c => c.info.name.length).foldl max 11
  let sorted := cs.mergeSort fun a b => decide (a.info.name ≤ b.info.name)
  join "" (sorted.map fun c => "\n  " ++ padRight width c.info.name ++ " " ++ c.info.short)

/-- How a command is used.  `own` are the flags of the command, and `global` those that it shares
with all commands. -/
def Route.usage {α : Type} (r : Route α) (own global : List Flag) : String :=
  let c := r.command
  let line := r.path ++ c.info.form
  "Usage:" ++ (if c.info.action.isSome then "\n  " ++ line else "") ++
    (if c.children.isEmpty then "" else
      "\n  " ++ r.path ++ " [command]\n\nAvailable Commands:" ++ commandLines c.children) ++
    (if own.isEmpty then "" else "\n\nFlags:\n" ++ flagLines own) ++
    (if global.isEmpty then "" else "\n\nGlobal Flags:\n" ++ flagLines global) ++
    (if c.children.isEmpty then "" else
      "\n\nUse \"" ++ r.path ++ " [command] --help\" for more information about a command.") ++ "\n"

/-- **The help for a command.** -/
def Route.page {α : Type} (r : Route α) (own global : List Flag) : String :=
  let i := r.command.info
  let text := if i.long == "" then i.short else i.long
  String.ofList (dropEndWhile isBlank text.toList) ++ "\n\n" ++ r.usage own global

/-- Operands checked against what a command takes. -/
def Route.checkArity {α : Type} (r : Route α) (operands : List String) : Except Error Unit :=
  match r.command.info.arity, operands with
  | .any, _ => .ok ()
  | .none, [] => .ok ()
  | .none, a :: _ =>
    .error (.plain ("unknown command " ++ quoted a ++ " for " ++ quoted r.path))
  | .atMost n, os =>
    if os.length ≤ n then .ok ()
    else
      .error (.plain ("accepts at most " ++ toString n ++ " arg(s), received " ++
        toString os.length))

end DocAudit.Command
