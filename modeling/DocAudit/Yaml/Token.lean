import DocAudit.Yaml.Lexeme
import DocAudit.Yaml.Node

/-!
# Tokens of a document

Scanning turns the cells of a document into tokens, one after the other as they are asked for.  In
block context indentation opens and closes collections; a key without indicator is known only when
its colon is found, and then the tokens that open it are inserted before it.  So a token can be
handed out only when no key can start with it any more, and only when two more are known, because
the comments below a token are found with those.

* `Scanner.next?` is the next token, with the scanner that knows it.
* `Scanner.advance` leaves it behind.
-/

namespace DocAudit.Yaml

/-! ## 1. Tokens -/

/-- What a token is. -/
inductive Tok where
  | streamStart
  | streamEnd
  | version (major minor : Nat)
  | tagHandle (handle expansion : String)
  | documentStart
  | documentEnd
  | blockSeqStart
  | blockMapStart
  | blockEnd
  | flowSeqStart
  | flowSeqEnd
  | flowMapStart
  | flowMapEnd
  | blockEntry
  | flowEntry
  | key
  | value
  | alias (name : String)
  | anchor (name : String)
  | tag (handle suffix : String)
  | scalar (text : String) (style : ScalarStyle)
deriving Repr, DecidableEq, Inhabited

/-- A token and the place where it starts. -/
structure Token where
  tok : Tok
  mark : Mark
deriving Repr, DecidableEq, Inhabited

/-- The line of a token, counted from one. -/
def Token.line (t : Token) : Nat := t.mark.line + 1

/-- A directive, from its percent sign on. -/
def scanDirective (cs : List Cell) : Option (Tok × List Cell) := do
  let (name, rest) := takeChars isNameChar cs.tail
  if name.isEmpty || !isSeparator (charAt rest) then none
  let arg := rest.dropWhile fun c => isGap c.char
  let (tok, rest) ←
    if name == "YAML".toList then do
      let (major, rest) ← scanVersionPart arg
      if !startsAt '.' rest then none
      let (minor, rest) ← scanVersionPart rest.tail
      some (Tok.version major minor, rest)
    else if name == "TAG".toList then do
      let (handle, rest) ← scanHandle arg
      if handle != ['!'] && handle.getLast? != some '!' then none
      if !isGap (charAt rest) then none
      let (text, rest) ← scanTagText [] (rest.dropWhile fun c => isGap c.char)
      if !isSeparator (charAt rest) then none
      some (Tok.tagHandle (String.ofList handle) text, rest)
    else none
  let (_, rest) ← restOfLine rest
  return (tok, rest)

/-! ## 2. The scanner -/

/-- A place where a key without indicator may start: the number of its first token. -/
structure KeyStart where
  /-- Whether nothing but a key may stand there. -/
  required : Bool
  number : Nat
  mark : Mark
deriving Repr

/-- How far scanning has come. -/
structure Scanner where
  rest : List Cell
  /-- The tokens that are known and not handed out yet, in order. -/
  tokens : List Token
  /-- The number of tokens handed out. -/
  given : Nat
  /-- The column of the innermost block collection; −1 outside. -/
  indent : Int
  indents : List Int
  keyAllowed : Bool
  /-- Where a key may start on this level and on those around it; a level for each flow collection
  that is open. -/
  key : Option KeyStart
  outerKeys : List (Option KeyStart)
  /-- The comments that no token has taken yet, in order. -/
  comments : List Comment

namespace Scanner

/-- How deep flow collections and block collections may be nested. -/
def maxDepth : Nat := 10000

/-- A key may start at most so many characters before its colon. -/
def keyReach : Nat := 1024

/-- The scanner at the start of some cells. -/
def start (cells : List Cell) : Scanner :=
  ⟨cells, [⟨.streamStart, markAt cells⟩], 0, -1, [], true, none, [], []⟩

/-- Whether a flow collection is open. -/
def inFlow (s : Scanner) : Bool := !s.outerKeys.isEmpty

/-- The place of the next cell. -/
def mark (s : Scanner) : Mark := markAt s.rest

/-- The column of the next cell. -/
def column (s : Scanner) : Nat := s.mark.column

/-- The number of the next token. -/
def number (s : Scanner) : Nat := s.given + s.tokens.length

/-- One more token. -/
def push (s : Scanner) (tok : Tok) (mark : Mark) : Scanner :=
  { s with tokens := s.tokens ++ [⟨tok, mark⟩] }

/-- A token in front of the token with a number. -/
def insertAt (s : Scanner) (number : Nat) (tok : Tok) (mark : Mark) : Scanner :=
  let k := number - s.given
  { s with tokens := s.tokens.take k ++ ⟨tok, mark⟩ :: s.tokens.drop k }

/-! ## 3. Indentation -/

/-- Where a block at an indentation ends: at the first of the comments right before here that stand
in its column, and otherwise at `block`.  The comments come last first, and behind the index `stop`
there is nothing but comments. -/
def blockEndAt (indent : Int) : (stop : Nat) → (block : Mark) → List Comment → Mark
  | _, block, [] => block
  | stop, block, c :: cs =>
    if c.stop < stop then block
    else
      blockEndAt indent c.scan (if (c.start.column : Int) == indent + 1 then c.start else block) cs

/-- The tokens that close the block collections deeper than a column, with the indentations that
are left. -/
def unrollFrom (comments : List Comment) (column : Int) : (block : Mark) → (indent : Int) →
    List Int → List Token × Int × List Int
  | _, i, [] => ([], i, [])
  | block, i, j :: js =>
    if i > column then
      let block := blockEndAt i block.index block comments
      let (ts, left) := unrollFrom comments column block j js
      (⟨.blockEnd, block⟩ :: ts, left)
    else ([], i, j :: js)

/-- Block collections deeper than a column are closed; in flow context none is.  From the place
`since` on there are only blanks and comments; a block ends just before it. -/
def unroll (s : Scanner) (column : Int) (since : Mark) : Scanner :=
  if s.inFlow then s
  else
    let before : Mark := { since with index := since.index - 1 }
    let (ts, i, js) := unrollFrom s.comments.reverse column before s.indent s.indents
    { s with tokens := s.tokens ++ ts, indent := i, indents := js }

/-- A block collection that starts at a column is opened, unless it is open already. -/
def roll (s : Scanner) (column : Nat) (number : Nat) (tok : Tok) (mark : Mark) : Option Scanner :=
  if s.inFlow || s.indent ≥ column then some s
  else if s.indents.length ≥ maxDepth then none
  else some { s.insertAt number tok mark with indent := column, indents := s.indent :: s.indents }

/-! ## 4. Keys -/

/-- No key may start at the place noted; fails if one had to. -/
def dropKey (s : Scanner) : Option Scanner :=
  match s.key with
  | some k => if k.required then none else some { s with key := none }
  | none => some s

/-- Notes that a key may start here, if one is allowed. -/
def saveKey (s : Scanner) : Option Scanner :=
  if s.keyAllowed then do
    let required := !s.inFlow && s.indent == s.column
    return { ← s.dropKey with key := some ⟨required, s.number, s.mark⟩ }
  else some s

/-- Whether the place of a key is lost: it is on a line before, or too far back. -/
def isLost (s : Scanner) (k : KeyStart) : Bool :=
  decide (k.mark.line < s.mark.line) || decide (k.mark.index + keyReach < s.mark.index)

/-- The place noted for a key, if the key can still start there.  Fails if a key had to start at a
place that is lost. -/
def validKey (s : Scanner) : Option (Option KeyStart) :=
  match s.key with
  | none => some none
  | some k => if s.isLost k then (if k.required then none else some none) else some (some k)

/-- Whether a key may still start with the next token to hand out; fails if it had to and the place
is lost. -/
def keyPending (s : Scanner) : Option Bool :=
  match (s.key :: s.outerKeys).find? fun k => k.any (·.number == s.given) with
  | some (some k) => if s.isLost k then (if k.required then none else some false) else some true
  | _ => some false

/-! ## 5. Comments and blanks -/

/-- The last token known. -/
def last (s : Scanner) : Option Token := s.tokens.getLast?

/-- Whether the last two tokens open a sequence and its first item. -/
def atFirstItem (s : Scanner) : Bool :=
  match s.tokens.reverse with
  | ⟨.blockEntry, _⟩ :: ⟨.blockSeqStart, _⟩ :: _ => true
  | _ => false

/-- A comment behind the dash of a first item is the head of what follows on the next line. -/
def raiseComment (s : Scanner) : Scanner :=
  if !s.atFirstItem || isBreak (charAt s.rest) then s
  else match s.comments.reverse with
    | c :: cs =>
      if c.kind == .line then
        let token := if c.start.line + 1 == s.mark.line then s.mark.index else c.token
        { s with comments := ({ c with kind := .head, token := token } :: cs).reverse }
      else s
    | [] => s

/-- The token before a comment: a comma leaves the comment to the token before it. -/
def commented (s : Scanner) : Option Token :=
  match s.tokens.reverse with
  | ⟨.flowEntry, _⟩ :: t :: _ => some t
  | t :: _ => some t
  | [] => none

/-- The line on which a foot of what came before would start.  Right behind a colon, and where the
search starts with a new line, there is none. -/
def footLine (s : Scanner) (since : Mark) : Option Nat :=
  let afterColon := s.commented.any (·.tok == .value)
  if since.column == 0 || afterColon then none
  else
    let breaks := breaksAt s.rest
    some (s.mark.line - breaks + 1 + (if breaks == 0 && s.column > 1 then 1 else 0))

/-- The scanner behind the comment lines that start here. -/
def takeComments (s : Scanner) (fuel : Nat) (since : Mark) : Option Scanner := do
  let ctx : CommentContext := ⟨s.inFlow, s.indent.toNat, s.footLine since⟩
  let token := (s.commented.map (·.mark.index)).getD 0
  let (found, rest) ← gatherComments ctx fuel since.index token s.rest
  return { s with rest := rest, comments := s.comments ++ found }

/-- The scanner at the next token.  Tabs are no indentation: where a key is allowed in block
context they stop the search. -/
def toToken (since : Mark) : (fuel : Nat) → Scanner → Option Scanner
  | 0, _ => none
  | fuel + 1, s => do
    let isBlank (c : Cell) : Bool :=
      c.char == ' ' || ((s.inFlow || !s.keyAllowed) && c.char == '\t')
    let s := raiseComment { s with rest := s.rest.dropWhile isBlank }
    let s ← if startsAt '#' s.rest then s.takeComments fuel since else some s
    match s.rest with
    | [] => none
    | c :: cs =>
      if isBreak c.char then
        toToken since fuel { s with rest := cs, keyAllowed := s.keyAllowed || !s.inFlow }
      else return s

/-- The scanner behind a comment on the line of the last token, which belongs to the token at an
index.  A dash has no comment of its own. -/
def takeLineComment (s : Scanner) (token : Nat) : Option Scanner :=
  if s.last.any (·.tok == .blockEntry) then some s
  else do
    let (comment, rest) ← lineComment? token s.rest
    return { s with rest := rest, comments := s.comments ++ comment.toList }

/-! ## 6. Single tokens -/

/-- A token of one character, after which the scanner stands behind it. -/
def single (s : Scanner) (tok : Tok) : Scanner := { s.push tok s.mark with rest := s.rest.tail }

/-- The end of the stream, which starts a line of its own. -/
def atEnd (s : Scanner) : Option Scanner := do
  let m := s.mark
  let m := if m.column == 0 then m else ⟨m.index, m.line + 1, 0⟩
  let s ← (s.unroll (-1) m).dropKey
  return { s with keyAllowed := false }.push .streamEnd m

/-- A directive. -/
def directive (s : Scanner) : Option Scanner := do
  let s ← (s.unroll (-1) s.mark).dropKey
  let (tok, rest) ← scanDirective s.rest
  return { s.push tok s.mark with keyAllowed := false, rest := rest }

/-- The start or end mark of a document. -/
def documentMark (s : Scanner) (tok : Tok) : Option Scanner := do
  let s ← (s.unroll (-1) s.mark).dropKey
  return { s.push tok s.mark with keyAllowed := false, rest := s.rest.drop 3 }

/-- The start of a flow collection. -/
def flowStart (s : Scanner) (tok : Tok) : Option Scanner := do
  let s ← s.saveKey
  if s.outerKeys.length ≥ maxDepth then none
  return { s.single tok with keyAllowed := true, key := none, outerKeys := s.key :: s.outerKeys }

/-- The end of a flow collection. -/
def flowEnd (s : Scanner) (tok : Tok) : Option Scanner := do
  let s ← s.dropKey
  let s := match s.outerKeys with
    | k :: ks => { s with key := k, outerKeys := ks }
    | [] => s
  return { s.single tok with keyAllowed := false }

/-- A comma between the items of a flow collection. -/
def flowEntry (s : Scanner) : Option Scanner := do
  return { (← s.dropKey).single .flowEntry with keyAllowed := true }

/-- A dash before an item of a block sequence. -/
def blockEntry (s : Scanner) : Option Scanner := do
  if !s.inFlow && !s.keyAllowed then none
  let s ← s.roll s.column s.number .blockSeqStart s.mark
  return { (← s.dropKey).single .blockEntry with keyAllowed := true }

/-- A question mark before a key. -/
def explicitKey (s : Scanner) : Option Scanner := do
  if !s.inFlow && !s.keyAllowed then none
  let s ← s.roll s.column s.number .blockMapStart s.mark
  let s ← s.dropKey
  return { s.single .key with keyAllowed := !s.inFlow }

/-- A colon before a value. -/
def valueMark (s : Scanner) : Option Scanner := do
  match ← s.validKey with
  | some k =>
    let s := s.insertAt k.number .key k.mark
    let s ← s.roll k.mark.column k.number .blockMapStart k.mark
    return { s.single .value with key := none, keyAllowed := false }
  | none =>
    if !s.inFlow && !s.keyAllowed then none
    let s ← s.roll s.column s.number .blockMapStart s.mark
    return { s.single .value with key := none, keyAllowed := !s.inFlow }

/-- An alias or anchor. -/
def named (s : Scanner) (mk : String → Tok) : Option Scanner := do
  let s ← s.saveKey
  let (name, rest) ← scanName s.rest.tail
  return { s.push (mk name) s.mark with keyAllowed := false, rest := rest }

/-- A tag. -/
def tagged (s : Scanner) : Option Scanner := do
  let s ← s.saveKey
  let (handle, suffix, rest) ← scanTag s.rest
  return { s.push (.tag handle suffix) s.mark with keyAllowed := false, rest := rest }

/-- A block scalar; the comment behind its indicators is its own. -/
def blockScalar (s : Scanner) (literal : Bool) : Option Scanner := do
  let s ← s.dropKey
  let (text, comment, rest) ← scanBlock literal s.indent s.rest.tail
  let style := if literal then ScalarStyle.literal else .folded
  let own := comment.map fun (m, text) => (⟨.line, text, 0, s.mark.index, m, 0⟩ : Comment)
  return { s.push (.scalar text style) s.mark with
    keyAllowed := true, rest := rest, comments := s.comments ++ own.toList }

/-- A quoted scalar. -/
def quotedScalar (s : Scanner) (single_ : Bool) : Option Scanner := do
  let s ← s.saveKey
  let (text, rest) ← if single_ then scanSingle false [] .none s.rest.tail
    else scanDouble .open_ [] .none s.rest.tail
  let style := if single_ then ScalarStyle.single else .double
  return { s.push (.scalar text style) s.mark with keyAllowed := false, rest := rest }

/-- A plain scalar. -/
def plainScalar (s : Scanner) : Option Scanner := do
  let s ← s.saveKey
  let (text, broken, rest) ← scanPlain s.inFlow (s.indent + 1) false [] .none s.rest
  return { s.push (.scalar text .plain) s.mark with keyAllowed := broken, rest := rest }

/-- Whether a plain scalar may start with these cells. -/
def startsPlain (flow : Bool) (cs : List Cell) : Bool :=
  let c := charAt cs
  let next := charAt cs.tail
  !(isSeparator c || "-?:,[]\x7b\x7d#&*!|>'\"%@`".toList.contains c) ||
    (c == '-' && !isGap next) || (!flow && (c == '?' || c == ':') && !isSeparator next)

/-- One more token that stands on a line; fails where none can start. -/
def onLine (s : Scanner) : Option Scanner :=
  let c := charAt s.rest
  let next := charAt s.rest.tail
  if c == '[' then s.flowStart .flowSeqStart
  else if c == '\x7b' then s.flowStart .flowMapStart
  else if c == ']' then s.flowEnd .flowSeqEnd
  else if c == '\x7d' then s.flowEnd .flowMapEnd
  else if c == ',' then s.flowEntry
  else if c == '-' && isSeparator next then s.blockEntry
  else if c == '?' && (s.inFlow || isSeparator next) then s.explicitKey
  else if c == ':' && (s.inFlow || isSeparator next) then s.valueMark
  else if c == '*' then s.named .alias
  else if c == '&' then s.named .anchor
  else if c == '!' then s.tagged
  else if (c == '|' || c == '>') && !s.inFlow then s.blockScalar (c == '|')
  else if c == '\'' || c == '"' then s.quotedScalar (c == '\'')
  else if startsPlain s.inFlow s.rest then s.plainScalar
  else none

/-! ## 7. Scanning -/

/-- A byte order mark at the start of the document is left out. -/
def skipMark (s : Scanner) : Scanner :=
  match s.rest with
  | c :: cs => if c.mark.index == 0 && c.char.toNat == 0xFEFF then { s with rest := cs } else s
  | [] => s

/-- The scanner after one more token, and the comment behind it; fails where none can start.  The
comment behind a colon in block context, or a comma in flow context, belongs to the token before.
`fuel` bounds the number of lines to look at. -/
def step (fuel : Nat) (s : Scanner) : Option Scanner := do
  let since := s.mark
  let s ← s.skipMark.toToken since fuel
  let s := s.unroll s.column since
  if !reaches 4 s.rest then none
  let c := charAt s.rest
  if c == endMark then s.atEnd
  else if s.column == 0 && c == '%' then s.directive
  else if isDocumentMark '-' s.rest then s.documentMark .documentStart
  else if isDocumentMark '.' s.rest then s.documentMark .documentEnd
  else
    let joins := if s.inFlow then c == ',' else c == ':'
    let owner := if joins then (s.last.map (·.mark.index)).getD s.mark.index else s.mark.index
    (← s.onLine).takeLineComment owner

/-- The scanner that knows enough tokens to hand out the next one: two more are known, and no key
may start with it.  `lines` bounds the number of lines to look at for a token. -/
def fill (lines : Nat) : (fuel : Nat) → Scanner → Option Scanner
  | 0, _ => none
  | fuel + 1, s => do
    let more ← if s.tokens.length < 3 then some true else s.keyPending
    if more then fill lines fuel (← s.step lines) else return s

/-- **The next token**, with the scanner that knows it; `fuel` bounds the tokens and the lines to
look at. -/
def next? (fuel : Nat) (s : Scanner) : Option (Token × Scanner) := do
  let s ← s.fill fuel fuel
  let t ← s.tokens.head?
  return (t, s)

/-- The scanner behind the next token. -/
def advance (s : Scanner) : Scanner := { s with tokens := s.tokens.tail, given := s.given + 1 }

end Scanner

end DocAudit.Yaml
