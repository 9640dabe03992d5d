import DocAudit.Decimal.Power
import DocAudit.Source.Token
import DocAudit.Text.Blank

/-!
# Comments and what they belong to

Comments form groups of adjacent lines.  A group that ends on the line before a token leads that
token, a group that starts on the line of the previous token trails it; `attach` gives every token
its two groups.  The rest of the file reads a group:

* `CommentGroup.text` is the prose of a group, without markers and directive lines;
* `isToolLine` recognises a directive line, such as `//go:noinline`;
* `marksOf` reads the line directives of a file, and refuses a malformed one;
* `isGenerated` looks for the marker of machine-written files.
-/

namespace DocAudit.Source

open DocAudit.Text DocAudit.Files

/-! ## 1. Groups -/

/-- A comment: where it starts, its text without carriage returns, and the line it ends on. -/
structure Comment where
  pos : Pos
  text : String
  endLine : Nat
deriving Repr, DecidableEq, Inhabited

/-- Comments on adjacent lines, in order. -/
abbrev CommentGroup := List Comment

/-- Carriage returns removed; one inside a block comment stays where its removal would close the
comment early.  `written` counts the characters kept so far. -/
def dropReturns (block : Bool) : (written : Nat) → (last : Char) → List Char → List Char
  | _, _, [] => []
  | n, last, c :: cs =>
    if c != '\r' || (block && decide (2 < n) && last == '*' && cs.head? == some '/') then
      c :: dropReturns block (n + 1) c cs
    else dropReturns block n last cs

/-- The comment that a comment token is. -/
def Comment.ofToken (pos : Pos) (raw : String) : Comment :=
  let block := raw.toList.drop 1 |>.head? |>.map (· == '*') |>.getD false
  let text := dropReturns block 0 ' ' raw.toList
  let newlines := if block then text.count '\n' else 0
  ⟨pos, String.ofList text, pos.line + newlines⟩

/-- The comments on the line of the previous token, and those after it.  `reach` is the line the
group has come to. -/
def takeSameLine (reach : Nat) : List Comment → List Comment × List Comment
  | [] => ([], [])
  | c :: cs =>
    if c.pos.line ≤ reach then
      let (g, r) := takeSameLine c.endLine cs
      (c :: g, r)
    else ([], c :: cs)

/-- The last group of a run of comments, an empty line dividing groups. -/
def lastGroup (current : CommentGroup) (reach : Nat) : List Comment → CommentGroup × Nat
  | [] => (current, reach)
  | c :: cs =>
    if !current.isEmpty && c.pos.line ≤ reach + 1 then lastGroup (current ++ [c]) c.endLine cs
    else lastGroup [c] c.endLine cs

/-! ## 2. Tokens with their comments -/

/-- A token with the group that leads it and the group that trails the token before it. -/
structure Item where
  tok : Tok
  pos : Pos
  lead : Option CommentGroup
  trail : Option CommentGroup
deriving Repr, Inhabited

/-- The item of a token: `prevLine` is the line of the token before it and `run` the comments
between the two. -/
def Item.ofRun (prevLine : Nat) (run : List Comment) (tok : Tok) (pos : Pos) : Item :=
  let sameLine := (run.head?.map fun c => c.pos.line == prevLine).getD false
  let (first, later) := if sameLine then takeSameLine prevLine run else ([], run)
  let reach := (first.getLast?.map (·.endLine)).getD 0
  let nextLine := (later.head?.map (·.pos.line)).getD pos.line
  let ends := nextLine != reach || (later.isEmpty && (match tok with
    | .semi _ => true
    | .eof => true
    | _ => false))
  let (last, lastLine) := lastGroup [] 0 later
  { tok := tok
    pos := pos
    lead := if !last.isEmpty && lastLine + 1 == pos.line then some last else none
    trail := if !first.isEmpty && ends then some first else none }

/-- The tokens of a file with their comments; `run` holds the comments since the last token, in
reverse. -/
def attachFrom (prevLine : Nat) (run : List Comment) : List Lexeme → List Item
  | [] => []
  | x :: xs =>
    match x.tok with
    | .comment raw => attachFrom prevLine (Comment.ofToken x.pos raw :: run) xs
    | tok => Item.ofRun prevLine run.reverse tok x.pos :: attachFrom x.pos.line [] xs

/-- The tokens of a file, each with its comments. -/
def attach (xs : List Lexeme) : List Item := attachFrom 0 [] xs

/-- The comments of a file. -/
def commentsOf (xs : List Lexeme) : List Comment :=
  xs.filterMap fun x => match x.tok with
    | .comment raw => some (Comment.ofToken x.pos raw)
    | _ => none

/-! ## 3. The prose of a group -/

/-- A lower-case letter or digit of the plain alphabet. -/
def isToolChar (c : Char) : Bool := ('a' ≤ c && c ≤ 'z') || c.isDigit

/-- Whether a line comment without its slashes is a directive to a tool: `name:arg` with lower-case
letters and digits, or one of three words. -/
def isToolLine (cs : List Char) : Bool :=
  startsWith "line ".toList cs || startsWith "extern ".toList cs ||
    startsWith "export ".toList cs ||
    match cutFirst [':'] cs with
    | some (name, arg) =>
      !name.isEmpty && name.all isToolChar && (arg.head?.map isToolChar).getD false
    | none => false

/-- The lines of prose of one comment. -/
def Comment.proseLines (c : Comment) : List (List Char) :=
  let cs := c.text.toList
  let lines := match cs with
    | '/' :: '/' :: [] => [[]]
    | '/' :: '/' :: ' ' :: r => [r]
    | '/' :: '/' :: r => if isToolLine r then [] else [r]
    | _ => splitAt '\n' ((cs.drop 2).take (cs.length - 4))
  lines.map (dropEndWhile fun c => c == ' ' || c == '\t' || c == '\n' || c == '\r')

/-- Lines without empty ones at the start, and one empty line for each run of them. -/
def squeeze (prevEmpty : Bool) : List (List Char) → List (List Char)
  | [] => []
  | l :: ls =>
    if l.isEmpty then (if prevEmpty then squeeze true ls else l :: squeeze true ls)
    else l :: squeeze false ls

/-- The prose of a group: its lines without markers, ending in a newline unless there is none. -/
def CommentGroup.text (g : CommentGroup) : String :=
  let lines := squeeze true (g.flatMap Comment.proseLines)
  let closed := match lines.getLast? with
    | some l => if l.isEmpty then lines else lines ++ [[]]
    | none => []
  join "\n" (closed.map String.ofList)

/-! ## 4. Machine-written files -/

/-- Whether a line is the marker of a machine-written file. -/
def isGeneratedLine (l : List Char) : Bool :=
  match dropStart? "// Code generated ".toList l with
  | some r => endsWith " DO NOT EDIT.".toList r
  | none => false

/-- Whether a comment before the offset of the package clause holds the marker. -/
def isGenerated (packageAt : Nat) (cs : List Comment) : Bool :=
  cs.any fun c =>
    decide (c.pos.offset ≤ packageAt) && (splitAt '\n' c.text.toList).any isGeneratedLine

/-! ## 5. Line directives -/

/-- The number after the last colon of a text and what stands before the colon; the number is
absent where the text after the colon is none. -/
def trailingNumber (cs : List Char) : Option (List Char × Option Nat) :=
  match cutLast ':' cs with
  | none => none
  | some (before, ds) =>
    let n := ds.foldl (fun n c => n * 10 + (c.toNat - '0'.toNat)) 0
    let fits := !ds.isEmpty && ds.all Char.isDigit && n < Decimal.unsignedEnd
    some (before, if fits then some n else none)

/-- The largest line and column a directive may name. -/
def maxDirective : Nat := Decimal.twoTo 30

/-- The file a directive names, seen from the file `name`. -/
def directiveFile (name file : String) : String :=
  if file == "" then ""
  else if file.toList.head? == some '/' then cleanPath file
  else joinPath [dirPart name, cleanPath file]

/-- The file and line that a line directive's text names in the file `name` at the position `pos`:
nothing if it is no directive, `none` if it is malformed.  With a column, an empty file name keeps
the file reported so far. -/
def readDirective (name : String) (marks : List Mark) (pos : Pos) (text : List Char) :
    Option (Option (String × Nat)) :=
  let ok (k : Nat) : Bool := 0 < k && k ≤ maxDirective
  match trailingNumber text with
  | none => some none
  | some (_, none) => none
  | some (before, some n) =>
    match trailingNumber before with
    | some (file, some line) =>
      if !(ok n && ok line) then none
      else if file.isEmpty then some (some ((place name marks pos).file, line))
      else some (some (directiveFile name (String.ofList file), line))
    | _ => if ok n then some (some (directiveFile name (String.ofList before), n)) else none

/-- The marks of a file of `size` bytes after one more comment token; `next` is the position after
the comment and its line end. -/
def addMark (name : String) (size : Nat) (marks : List Mark) (pos next : Pos) (raw : List Char) :
    Option (List Mark) :=
  let block := raw.take 2 == ['/', '*']
  let body := if block then raw.take (raw.length - 2)
    else if raw.getLast? == some '\r' then raw.dropLast else raw
  if (block || pos.column == 1) && startsWith "line ".toList (body.drop 2) then
    match readDirective name marks ⟨pos.offset + 7, pos.line, pos.column + 7⟩ (body.drop 7) with
    | none => none
    | some none => some marks
    | some (some (file, line)) =>
      let fresh := (marks.getLast?.map fun m => decide (m.offset < next.offset)).getD true
      if fresh && decide (next.offset < size) then
        some (marks ++ [⟨next.offset, next.line, file, line⟩])
      else some marks
  else some marks

/-- The marks of a file, read off its comment tokens. -/
def marksFrom (name : String) (size : Nat) (marks : List Mark) : List Lexeme → Option (List Mark)
  | [] => some marks
  | x :: xs =>
    match x.tok with
    | .comment raw =>
      let cs := raw.toList
      let stop := x.pos.after cs
      let next :=
        if cs.take 2 == ['/', '/'] && decide (stop.offset < size) then stop.step '\n' else stop
      match addMark name size marks x.pos next cs with
      | none => none
      | some ms => marksFrom name size ms xs
    | _ => marksFrom name size marks xs

/-- The marks of a file of `size` bytes; `none` if one of its line directives is malformed. -/
def marksOf (name : String) (size : Nat) (xs : List Lexeme) : Option (List Mark) :=
  marksFrom name size [] xs

end DocAudit.Source
