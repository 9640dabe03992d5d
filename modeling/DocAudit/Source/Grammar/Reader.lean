import DocAudit.Source.Syntax

/-!
# Readers of token streams

A reader takes tokens off the front of a stream, or refuses it.  A refusal is final: a file with
one mistake is not parsed at all, so no reader ever goes back.  Repetition is bounded by the number
of tokens that are left (`Reader.repeated`): every round takes at least one.  Beside the tokens a
stream knows how deep the scopes of what was read nest (`Reader.inScope`).
-/

namespace DocAudit.Source

/-! ## 1. Readers -/

/-- The tokens that are left, and how deep the scopes nest in what was read of them. -/
structure Stream where
  items : List Item
  nesting : Nat := 0

/-- A reader of token streams. -/
abbrev Reader (α : Type) := StateT Stream Option α

namespace Reader

/-- The reader that refuses. -/
def refuse {α : Type} : Reader α := fun _ => none

/-- The item at the front of the stream. -/
def item : Reader Item := do
  match (← get).items with
  | i :: _ => pure i
  | [] => pure ⟨.eof, Pos.start, none, none⟩

/-- The token at the front of the stream. -/
def tok : Reader Tok := return (← item).tok

/-- The position of the front of the stream. -/
def pos : Reader Pos := return (← item).pos

/-- Takes the token at the front; the end of the file stays. -/
def next : Reader Unit := modify fun s =>
  match s.items with
  | _ :: i :: is => { s with items := i :: is }
  | _ => s

/-- Rounds of `body` while it asks for more, `fuel` of them at most. -/
def rounds {α : Type} (body : α → Reader (α × Bool)) : (fuel : Nat) → α → Reader α
  | 0, _ => refuse
  | n + 1, a => do
    let (a', more) ← body a
    if more then rounds body n a' else pure a'

/-- Rounds of `body` while it asks for more. -/
def repeated {α : Type} (a : α) (body : α → Reader (α × Bool)) : Reader α := do
  rounds body ((← get).items.length + 1) a

/-- What `body` reads and how deep the scopes in it nest, without counting them yet. -/
def measured {α : Type} (body : Reader α) : Reader (α × Nat) := do
  let outer := (← get).nesting
  modify fun s => { s with nesting := 0 }
  let a ← body
  let inner := (← get).nesting
  modify fun s => { s with nesting := outer }
  pure (a, inner)

/-- Counts scopes that nest `depth` deep. -/
def reach (depth : Nat) : Reader Unit := modify fun s => { s with nesting := max s.nesting depth }

/-- What `body` reads, as the content of a scope. -/
def inScope {α : Type} (body : Reader α) : Reader α := do
  let (a, inner) ← measured body
  reach (inner + 1)
  pure a

/-! ## 2. Single tokens -/

/-- Whether the front is a given operator or bracket. -/
def atSym (s : String) : Reader Bool := return (← tok) == .sym s

/-- Whether the front is a given keyword. -/
def atWord (w : String) : Reader Bool := return (← tok) == .word w

/-- Whether the front is an identifier. -/
def atIdent : Reader Bool := do
  match ← tok with
  | .ident _ => pure true
  | _ => pure false

/-- Whether the front is a semicolon. -/
def atSemi : Reader Bool := do
  match ← tok with
  | .semi _ => pure true
  | _ => pure false

/-- Takes a given operator or bracket. -/
def sym (s : String) : Reader Unit := do
  if ← atSym s then next else refuse

/-- Takes a given keyword. -/
def word (w : String) : Reader Unit := do
  if ← atWord w then next else refuse

/-- Takes a given operator or bracket if it is at the front, and tells whether it was. -/
def trySym (s : String) : Reader Bool := do
  if ← atSym s then next; pure true else pure false

/-- Takes an identifier. -/
def ident : Reader Name := do
  let i ← item
  match i.tok with
  | .ident n => next; pure { n with pos := i.pos }
  | _ => refuse

/-- Takes the semicolon that ends a line and gives the comment group that trails the line; the
semicolon may be left out before a closing bracket. -/
def endOfLine : Reader (Option CommentGroup) := do
  let i ← item
  match i.tok with
  | .sym ")" => pure none
  | .sym "\x7d" => pure none
  | .semi true => next; return (← item).trail
  | .semi false => next; pure i.trail
  | _ => refuse

/-- After an element of a list: takes the comma and tells that more may follow, or tells that the
list ends at `closing`. -/
def comma (closing : String) : Reader Bool := do
  if ← trySym "," then pure true
  else if ← atSym closing then pure false
  else refuse

end Reader

end DocAudit.Source
