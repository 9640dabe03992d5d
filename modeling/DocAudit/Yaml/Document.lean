import DocAudit.Yaml.Decode
import DocAudit.Yaml.Token

/-!
# Documents

A document is the node that the first document of a stream describes.  `readDocument` reads it from
the tokens; what follows the first document is not looked at.

Comments are collected as the tokens they belong to come up, and the next node that has a place of
its own takes them.  Below the entry of a mapping they belong to its key, so that they stand below
the whole entry when it is written.
-/

namespace DocAudit.Yaml

open DocAudit.Text

/-! ## 1. Reading tokens -/

/-- A name with the node that it was given to; without the node while that is being read. -/
structure Binding where
  id : Nat
  name : String
  node : Option Node

/-- How far reading has come. -/
structure Progress where
  scanner : Scanner
  /-- A bound on the number of tokens that one more token needs. -/
  budget : Nat
  bindings : List Binding
  nextId : Nat
  handles : List (String × String)
  /-- The comments that no node has taken yet. -/
  remarks : Remarks
  /-- The comment above the dash of an item that is itself a block collection. -/
  stem : String

/-- A computation that reads tokens; it stops on a malformed document. -/
abbrev Reading (α : Type) := StateT Progress Option α

/-- Two comments of one kind, one below the other. -/
def joinComments (a b : String) : String := if a == "" then b else a ++ "\n" ++ b

/-- Comments with one more. -/
def Remarks.add (r : Remarks) (c : Comment) : Remarks :=
  match c.kind with
  | .head => { r with above := joinComments r.above c.text }
  | .line => { r with behind := joinComments r.behind c.text }
  | .foot => { r with below := joinComments r.below c.text }

/-- The comments that belong to a token, added to others, and those that stay.  The end of a block
has no head. -/
def takeComments (t : Token) : List Comment → Remarks → List Comment × Remarks
  | [], r => ([], r)
  | c :: cs, r =>
    if t.mark.index < c.token || (c.kind == .head && t.tok == .blockEnd) then (c :: cs, r)
    else takeComments t cs (r.add c)

namespace Reading

/-- Stops: the document is malformed. -/
def fail {α : Type} : Reading α := fun _ => none

/-- The next token. -/
def peek : Reading Token := fun p => do
  let (t, s) ← p.scanner.next? p.budget
  let (left, remarks) := takeComments t s.comments p.remarks
  return (t, { p with scanner := { s with comments := left }, remarks := remarks })

/-- Leaves the next token behind. -/
def skip : Reading Unit := modify fun p => { p with scanner := p.scanner.advance }

/-- Whether the next token is one of some. -/
def nextIn (ts : List Tok) : Reading Bool := do return ts.contains (← peek).tok

/-- The comments that have been collected, for a node. -/
def remarks : Reading Remarks := fun p => some (p.remarks, { p with remarks := .none, stem := "" })

/-- The comment above the item that a block collection is. -/
def stem : Reading Remarks := fun p => some (⟨p.stem, "", ""⟩, { p with stem := "" })

/-- Leaves the dash of an item behind.  If a block collection follows, the comment above the dash
is for the collection as a whole. -/
def skipDash : Reading Unit := do
  let before := (← get).remarks.above
  skip
  if before != "" then
    let t ← peek
    if t.tok == .blockSeqStart || t.tok == .blockMapStart then
      modify fun p => { p with
        stem := before
        remarks.above := String.ofList (p.remarks.above.toList.drop (before.length + 1)) }

/-- Gives a node that is about to be read its name. -/
def bind_ (name : String) : Reading Nat := fun p =>
  some (p.nextId,
    { p with bindings := ⟨p.nextId, name, none⟩ :: p.bindings, nextId := p.nextId + 1 })

/-- Records the node of a name. -/
def complete (id : Nat) (n : Node) : Reading Unit := fun p =>
  let bind (b : Binding) : Binding := if b.id == id then { b with node := some n } else b
  some ((), { p with bindings := p.bindings.map bind })

/-- The node that a name was last given to. -/
def target (name : String) : Reading (Option Node) := fun p =>
  match p.bindings.find? (·.name == name) with
  | some b => some (b.node, p)
  | none => none

end Reading

open Reading

/-! ## 2. Scalars and tags -/

/-- A node for nothing. -/
def emptyScalar (line : Nat) : Node := .scalar ⟨"!!null", false, "", line, .none⟩ .plain ""

/-- The tag of a node with the given handle and suffix. -/
def expandTag (handle suffix : String) : Reading String := fun p =>
  if handle == "" then some (suffix, p)
  else match p.handles.lookup handle with
    | some start => if start ++ suffix == "" then none else some (start ++ suffix, p)
    | none => none

/-- The head of a node: its written tag, or else the tag it has by default. -/
def headOf (tag fallback anchor : String) (line : Nat) (remarks : Remarks) : Head :=
  if tag == "" || tag == "!" then ⟨fallback, false, anchor, line, remarks⟩
  else ⟨shortTag tag, true, anchor, line, remarks⟩

/-- The tag that a scalar has without a written one. -/
def scalarTag (style : ScalarStyle) (text : String) : String :=
  if style == .plain then (if text == "<<" then "!!merge" else (resolve text).tag) else "!!str"

/-- What stands before a node: its anchor and tag, in either order. -/
structure Properties where
  anchor : String
  tag : String
  /-- The line of the first of them. -/
  line : Option Nat

/-- The properties of the next node. -/
def readProperties : Reading Properties := do
  let t ← peek
  match t.tok with
  | .anchor a =>
    skip
    match (← peek).tok with
    | .tag h s =>
      skip
      return ⟨a, ← expandTag h s, some t.line⟩
    | _ => return ⟨a, "", some t.line⟩
  | .tag h s =>
    skip
    match (← peek).tok with
    | .anchor a =>
      skip
      return ⟨a, ← expandTag h s, some t.line⟩
    | _ => return ⟨"", ← expandTag h s, some t.line⟩
  | _ => return ⟨"", "", none⟩

/-- Reads a node under its name, if it has one. -/
def named (anchor : String) (body : Reading Node) : Reading Node := do
  if anchor == "" then body
  else
    let id ← bind_ anchor
    let n ← body
    complete id n
    return n

/-! ## 3. Comments of mappings -/

/-- The comment below a value is for its entry, so the key takes it. -/
def raiseFoot (e : Node × Node) : Node × Node :=
  if e.1.footnote == "" && e.2.footnote != "" then
    (e.1.withFootnote e.2.footnote, e.2.withFootnote "")
  else e

/-- The entries of a mapping with the comments below them at their keys.  In a block mapping the
comment below a key is the one below the entry before. -/
def settleFeet (block first : Bool) : List (Node × Node) → List (Node × Node)
  | [] => []
  | (k, v) :: rest =>
    let (k, v) := raiseFoot (if block && !first then k.withFootnote "" else k, v)
    let k := match rest with
      | (j, _) :: _ => if block && j.footnote != "" then k.withFootnote j.footnote else k
      | [] => k
    (k, v) :: settleFeet block false rest

/-- Entries with a comment below the last one. -/
def withLastFoot (text : String) : List (Node × Node) → List (Node × Node)
  | [] => []
  | [(k, v)] => [(k.withFootnote text, v)]
  | e :: rest => e :: withLastFoot text rest

/-- A block mapping from its parts; the comment at its end is below its last entry. -/
def blockMapping (h : Head) (entries : List (Node × Node)) (last : Remarks) : Node :=
  let es := settleFeet true true entries
  if last.below != "" && !es.isEmpty then
    .map { h with remarks.behind := last.behind, remarks.below := "" } false
      (withLastFoot last.below es)
  else .map { h with remarks.behind := last.behind, remarks.below := last.below } false es

/-- A flow collection's head: the comments behind and below it are those at its end. -/
def Head.closed (h : Head) (last : Remarks) : Head :=
  { h with remarks.behind := last.behind, remarks.below := last.below }

/-! ## 4. Nodes -/

/-- Where a node stands. -/
inductive Context where
  | flow
  | block
  /-- As a key or value of a block mapping, where a sequence needs no indentation. -/
  | entry
deriving Repr, DecidableEq

mutual

/-- A node; `fuel` bounds the depth of reading. -/
def readNode : (fuel : Nat) → Context → Reading Node
  | 0, _ => fail
  | fuel + 1, ctx => do
    let t ← peek
    match t.tok with
    | .alias name =>
      let r ← remarks
      skip
      return .alias ⟨"", false, "", t.line, r⟩ name (← target name)
    | _ =>
      let p ← readProperties
      let t ← peek
      let line := p.line.getD t.line
      match t.tok with
      | .blockEntry =>
        if ctx == .entry then
          named p.anchor do
            return .seq (headOf p.tag "!!seq" p.anchor line .none) false (← readIndentless fuel)
        else emptyOr p line
      | .scalar text style =>
        named p.anchor do
          let r ← remarks
          skip
          return .scalar (headOf p.tag (scalarTag style text) p.anchor line r) style text
      | .flowSeqStart =>
        named p.anchor do
          let r ← remarks
          skip
          let (items, last) ← readFlowItems fuel true
          return .seq ((headOf p.tag "!!seq" p.anchor line r).closed last) true items
      | .flowMapStart =>
        named p.anchor do
          let r ← remarks
          skip
          let (entries, last) ← readFlowEntries fuel true
          return .map ((headOf p.tag "!!map" p.anchor line r).closed last) true
            (settleFeet false true entries)
      | .blockSeqStart =>
        if ctx == .flow then emptyOr p line
        else named p.anchor do
          let r ← stem
          skip
          return .seq (headOf p.tag "!!seq" p.anchor line r) false (← readBlockItems fuel)
      | .blockMapStart =>
        if ctx == .flow then emptyOr p line
        else named p.anchor do
          let r ← stem
          skip
          let (entries, last) ← readBlockEntries fuel
          return blockMapping (headOf p.tag "!!map" p.anchor line r) entries last
      | _ => emptyOr p line

/-- Properties without a node stand for nothing; nothing at all is a mistake. -/
def emptyOr (p : Properties) (line : Nat) : Reading Node := do
  if p.anchor == "" && p.tag == "" then fail
  else named p.anchor do return .scalar (headOf p.tag "!!null" p.anchor line .none) .plain ""

/-- A node, or nothing if one of some tokens comes next. -/
def readUnless : (fuel : Nat) → Context → (stops : List Tok) → (line : Nat) → Reading Node
  | 0, _, _, _ => fail
  | fuel + 1, ctx, stops, line => do
    if ← nextIn stops then return emptyScalar line else readNode fuel ctx

/-- The items of a block sequence. -/
def readBlockItems : (fuel : Nat) → Reading (List Node)
  | 0 => fail
  | fuel + 1 => do
    let t ← peek
    match t.tok with
    | .blockEntry =>
      skipDash
      let n ← readUnless fuel .block [.blockEntry, .blockEnd] t.line
      return n :: (← readBlockItems fuel)
    | .blockEnd =>
      skip
      return []
    | _ => fail

/-- The items of a sequence that is not indented. -/
def readIndentless : (fuel : Nat) → Reading (List Node)
  | 0 => fail
  | fuel + 1 => do
    let t ← peek
    match t.tok with
    | .blockEntry =>
      skipDash
      let n ← readUnless fuel .block [.blockEntry, .key, .value, .blockEnd] t.line
      return n :: (← readIndentless fuel)
    | _ => return []

/-- The entries of a block mapping, and the comments at its end. -/
def readBlockEntries : (fuel : Nat) → Reading (List (Node × Node) × Remarks)
  | 0 => fail
  | fuel + 1 => do
    let t ← peek
    match t.tok with
    | .key =>
      skip
      let k ← readUnless fuel .entry [.key, .value, .blockEnd] t.line
      let v ← readBlockValue fuel
      let (es, last) ← readBlockEntries fuel
      return ((k, v) :: es, last)
    | .blockEnd =>
      let last ← remarks
      skip
      return ([], last)
    | _ => fail

/-- The value of an entry of a block mapping. -/
def readBlockValue : (fuel : Nat) → Reading Node
  | 0 => fail
  | fuel + 1 => do
    let t ← peek
    if t.tok == .value then
      skip
      readUnless fuel .entry [.key, .value, .blockEnd] t.line
    else return emptyScalar t.line

/-- The items of a flow sequence, and the comments at its end. -/
def readFlowItems : (fuel : Nat) → (first : Bool) → Reading (List Node × Remarks)
  | 0, _ => fail
  | fuel + 1, first => do
    if ← nextIn [.flowSeqEnd] then return ([], ← readClosing)
    if !first then
      if ← nextIn [.flowEntry] then skip else fail
    let t ← peek
    match t.tok with
    | .flowSeqEnd => return ([], ← readClosing)
    | .key =>
      skip
      let k ← readPairKey fuel
      let v ← readFlowValue fuel [.flowEntry, .flowSeqEnd]
      let n := Node.map ⟨"!!map", false, "", t.line, .none⟩ true (settleFeet false true [(k, v)])
      let (ns, last) ← readFlowItems fuel false
      return (n :: ns, last)
    | _ =>
      let n ← readNode fuel .flow
      let (ns, last) ← readFlowItems fuel false
      return (n :: ns, last)

/-- The bracket at the end of a flow collection, and the comments there. -/
def readClosing : Reading Remarks := do
  let last ← remarks
  skip
  return last

/-- The key of a pair in a flow sequence; where there is none, the next token is lost. -/
def readPairKey : (fuel : Nat) → Reading Node
  | 0 => fail
  | fuel + 1 => do
    let t ← peek
    if ← nextIn [.value, .flowEntry, .flowSeqEnd] then
      skip
      return emptyScalar t.line
    else readNode fuel .flow

/-- The value of an entry in flow context. -/
def readFlowValue : (fuel : Nat) → (stops : List Tok) → Reading Node
  | 0, _ => fail
  | fuel + 1, stops => do
    let t ← peek
    if t.tok == .value then
      skip
      readUnless fuel .flow stops t.line
    else return emptyScalar t.line

/-- The entries of a flow mapping, and the comments at its end. -/
def readFlowEntries : (fuel : Nat) → (first : Bool) → Reading (List (Node × Node) × Remarks)
  | 0, _ => fail
  | fuel + 1, first => do
    if ← nextIn [.flowMapEnd] then return ([], ← readClosing)
    if !first then
      if ← nextIn [.flowEntry] then skip else fail
    let t ← peek
    match t.tok with
    | .flowMapEnd => return ([], ← readClosing)
    | .key =>
      skip
      let k ← readUnless fuel .flow [.value, .flowEntry, .flowMapEnd] t.line
      let v ← readFlowValue fuel [.flowEntry, .flowMapEnd]
      let (es, last) ← readFlowEntries fuel false
      return ((k, v) :: es, last)
    | _ =>
      let k ← readNode fuel .flow
      let (es, last) ← readFlowEntries fuel false
      return ((k, emptyScalar t.line) :: es, last)

end

/-! ## 5. Documents -/

/-- The handles that every document knows. -/
def commonHandles : List (String × String) := [("!", "!"), ("!!", longTag)]

/-- The directives before a document: only one version, which has to be 1.1, and one expansion for
each handle. -/
def readDirectives : (fuel : Nat) → (versioned : Bool) → List (String × String) → Reading Unit
  | 0, _, _ => fail
  | fuel + 1, versioned, handles => do
    match (← peek).tok with
    | .version major minor =>
      if versioned || major != 1 || minor != 1 then fail
      skip
      readDirectives fuel true handles
    | .tagHandle h e =>
      if (handles.lookup h).isSome then fail
      skip
      readDirectives fuel versioned (handles ++ [(h, e)])
    | _ => modify fun p => { p with handles := handles ++ commonHandles }

/-- What stands behind the last empty line of a comment, where `block` has been found behind it
already; the text comes in reverse. -/
def lastBlockFrom (block : List Char) : List Char → List Char
  | '\n' :: '\n' :: _ => block
  | c :: cs => lastBlockFrom (c :: block) cs
  | [] => block

/-- The part of a comment that is for the first node of a document: what stands behind its last
empty line.  The rest is for the document as a whole. -/
def lastBlock (text : String) : String :=
  match text.toList.reverse with
  | '\n' :: _ => ""
  | cs => String.ofList (lastBlockFrom [] cs)

/-- The root of a document, and the token behind it. -/
def readRoot (fuel : Nat) : Reading (Option Node) := do
  let n ← readNode fuel .block
  discard peek
  return some n

/-- The first document of a stream; none if the stream is empty. -/
def readStream (fuel : Nat) : Reading (Option Node) := do
  discard peek
  skip
  let t ← peek
  match t.tok with
  | .streamEnd => return none
  | .version .. | .tagHandle .. | .documentStart =>
    readDirectives fuel false []
    if !(← nextIn [.documentStart]) then fail
    skip
    let t ← peek
    let empty := match t.tok with
      | .version .. => true
      | .tagHandle .. => true
      | .documentStart => true
      | .documentEnd => true
      | .streamEnd => true
      | _ => false
    if empty then return some (emptyScalar t.line) else readRoot fuel
  | _ =>
    readDirectives fuel false []
    modify fun p => { p with remarks.above := lastBlock p.remarks.above }
    readRoot fuel

/-- **The first document of a stream of bytes**: none if there is no document, and an error if it
is malformed. -/
def readDocument (bytes : ByteArray) : Except Error (Option Node) :=
  let cells := cellsOf bytes
  let budget := cells.length + 8
  let start : Progress := ⟨.start cells, budget, [], 0, [], .none, ""⟩
  match (readStream (16 * budget)).run start with
  | some (n, _) => .ok n
  | none => .error .malformed

end DocAudit.Yaml
