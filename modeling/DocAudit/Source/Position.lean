import DocAudit.Files.Path

/-!
# Places in a source file

A token stands at a byte offset on a physical line.  A line directive in the text moves the place
that is *reported* for what follows it to another file and line; `Marks.place` computes the
reported place from the physical one.
-/

namespace DocAudit.Source

open DocAudit.Text DocAudit.Files

/-! ## 1. Physical positions -/

/-- A physical position: byte offset, line and byte column, the last two counted from one. -/
structure Pos where
  offset : Nat
  line : Nat
  column : Nat
deriving Repr, DecidableEq, Inhabited

/-- The first position of a file. -/
def Pos.start : Pos := ⟨0, 1, 1⟩

/-- The position after a character. -/
def Pos.step (p : Pos) (c : Char) : Pos :=
  if c == '\n' then ⟨p.offset + 1, p.line + 1, 1⟩
  else ⟨p.offset + c.utf8Size, p.line, p.column + c.utf8Size⟩

/-- The position after a stretch of text. -/
def Pos.after (p : Pos) (cs : List Char) : Pos := cs.foldl Pos.step p

/-! ## 2. Line directives -/

/-- What a line directive says: from `offset` on, which is on physical line `line`, places are
reported in `file`, counting lines from `base`. -/
structure Mark where
  offset : Nat
  line : Nat
  file : String
  base : Nat
deriving Repr, DecidableEq, Inhabited

/-- A reported place. -/
structure Place where
  file : String
  line : Nat
deriving Repr, DecidableEq, Inhabited

/-- The place reported for a position in the file `name`: the last directive before it decides. -/
def place (name : String) (marks : List Mark) (p : Pos) : Place :=
  match marks.reverse.find? (fun m => decide (m.offset ≤ p.offset)) with
  | some m => ⟨m.file, m.base + (p.line - m.line)⟩
  | none => ⟨name, p.line⟩

end DocAudit.Source
