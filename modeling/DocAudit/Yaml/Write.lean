import DocAudit.Yaml.Data
import DocAudit.Yaml.Page

/-!
# Writing documents

A node is written in its style as far as its text allows.  A block collection starts on a new line
two blanks deeper, except inside a sequence, where it starts behind the dash; lines are never
folded.  The start of a node and what it holds are written apart, because the comment behind its
start comes between them.

* `Node.write` is the text of a document.
-/

namespace DocAudit.Yaml

open DocAudit.Text

/-! ## 1. Tags -/

/-- A character of a tag that is written as it is. -/
def isPlainTagChar (c : Char) : Bool :=
  c.isAlphanum || "_-;/?:@&=+$,.~*'()[]".toList.contains c

/-- The end of a tag as it is written: other characters by their bytes. -/
def tagSuffix (s : String) : String :=
  String.ofList (s.toList.flatMap fun c =>
    if isPlainTagChar c then [c]
    else (bytesOfChar c).flatMap fun b => '%' :: Page.hexDigits 2 b.toNat)

/-- The handle and the rest of a tag. -/
def splitTag (tag : String) : String × String :=
  match stripStart? tag "!!" with
  | some rest => ("!!", rest)
  | none =>
    match stripStart? tag "!" with
    | some rest => ("!", rest)
    | none =>
      match stripStart? tag longTag with
      | some rest => ("!!", rest)
      | none => ("", tag)

/-- A tag as it is written. -/
def tagText (tag : String) : String :=
  let (handle, rest) := splitTag tag
  if handle == "" then "!<" ++ tagSuffix rest ++ ">" else handle ++ tagSuffix rest

/-- The tag that is written for a scalar: none if its text implies it, or quotes can. -/
def shownTag (h : Head) (v : String) : String :=
  if h.written then h.tag
  else if h.tag == "!!str" || (resolve v).tag == h.tag then ""
  else h.tag

/-- The tag that is written for a collection, whose form implies `fallback`. -/
def shownCollectionTag (h : Head) (fallback : String) : String :=
  if h.written || h.tag != fallback then h.tag else ""

/-! ## 2. Starts of nodes -/

/-- Writes the anchor and the tag of a node. -/
def Page.properties (p : Page) (anchor tag : String) : Page :=
  let p := if anchor == "" then p else p.word ("&" ++ anchor)
  if tag == "" then p else p.word (tagText tag)

/-- The style that a scalar asks for: a text that would be read as something else gets quotes. -/
def wantedStyle (h : Head) (style : ScalarStyle) (v : String) : ScalarStyle :=
  if style != .plain then style
  else if v.toList.contains '\n' then .literal
  else if !h.written && h.tag == "!!str" && (resolve v).tag != "!!str" then .double
  else .plain

/-- The indentation inside something at an indentation; at the top of a document there is none. -/
def deeper (flow : Bool) : Option Nat → Nat
  | none => if flow then 2 else 0
  | some i => i + 2

/-- Where a node is written. -/
structure Setting where
  /-- Whether a flow collection is open. -/
  flow : Bool
  /-- The indentation of the collection around it. -/
  indent : Option Nat
  /-- Whether it is a key; the comment below one is left to the next entry. -/
  isKey : Bool

/-- Writes the start of a node: scalars and aliases whole, and of collections the properties.
`key` tells whether it is a key that fits on its line. -/
def Node.writeStart (at_ : Setting) (key : Bool) : Node → Page → Page
  | .alias _ name _, p => p.word ("*" ++ name)
  | .scalar h style v, p =>
    (p.properties h.anchor (shownTag h v)).scalar (deeper true at_.indent)
      (chooseStyle at_.flow key (wantedStyle h style v) v.toList) v
  | .seq h _ _, p => p.properties h.anchor (shownCollectionTag h "!!seq")
  | .map h _ _, p => p.properties h.anchor (shownCollectionTag h "!!map")

/-- The comments that a node brings before it is written.  Those behind and below a collection come
with its end. -/
def Node.firstRemarks (n : Node) : Remarks :=
  match n with
  | .seq h _ _ => ⟨h.remarks.above, "", ""⟩
  | .map h _ _ => ⟨h.remarks.above, "", ""⟩
  | n => n.head.remarks

/-- The comments that the end of a collection brings. -/
def Head.lastRemarks (h : Head) (at_ : Setting) : Remarks :=
  ⟨"", h.remarks.behind, if at_.isKey then "" else h.remarks.below⟩

/-- What a key brings of the comment below the entry before: sequences and aliases lose it. -/
def Node.carries (n : Node) (tail : String) : String :=
  match n with
  | .scalar _ _ _ => tail
  | .map _ _ _ => tail
  | _ => ""

/-- The page that expects a key, behind an entry with the comment `tail` below it.  The comment
below the key waits for the next entry. -/
def Page.expectKey (p : Page) (k : Node) (tail : String) : Page :=
  p.expect { k.firstRemarks with below := "" } (k.carries tail)

/-- The number of bytes that the properties of a node take. -/
def propertySize (anchor tag : String) : Nat :=
  let (handle, rest) := if tag == "" then ("", "") else splitTag tag
  anchor.utf8ByteSize + handle.utf8ByteSize + rest.utf8ByteSize

/-- How long a key on one line may be. -/
def maxKeySize : Nat := 128

/-- Whether a key fits on its line. -/
def Node.isSimpleKey : Node → Bool
  | .alias _ name _ => name.utf8ByteSize ≤ maxKeySize
  | .scalar h _ v =>
    !v.toList.any isTextBreak &&
      propertySize h.anchor (shownTag h v) + v.utf8ByteSize ≤ maxKeySize
  | .seq h _ xs =>
    xs.isEmpty && propertySize h.anchor (shownCollectionTag h "!!seq") ≤ maxKeySize
  | .map h _ es =>
    es.isEmpty && propertySize h.anchor (shownCollectionTag h "!!map") ≤ maxKeySize

/-- Moves the comment behind a key aside until the value comes. -/
def Page.holdKeyRemark (p : Page) : Page :=
  if p.remarks.behind == "" then p
  else { p with keyRemark := p.remarks.behind, remarks.behind := "" }

/-- The comment behind a key, when its value comes: a scalar without a comment takes it, and before
a block collection it is written. -/
def Page.releaseKeyRemark (p : Page) (i : Nat) (v : Node) : Page :=
  let writeNow : Page :=
    let q := { p with remarks.behind := p.keyRemark }.writeBehind i
    { q with remarks.behind := p.remarks.behind, keyRemark := "" }
  if p.keyRemark == "" then p
  else match v with
    | .scalar _ _ _ =>
      if p.remarks.behind == "" then { p with remarks.behind := p.keyRemark, keyRemark := "" }
      else p
    | .seq _ false _ => writeNow
    | .map _ false _ => writeNow
    | _ => p

/-! ## 3. Nodes -/

/-- Whether the end of a flow mapping needs a comma before it for the comments that wait. -/
def Page.needsComma (p : Page) : Bool :=
  p.remarks.above != "" || p.remarks.below != "" || p.tail != ""

mutual

/-- Writes what a collection holds; other nodes hold nothing. -/
def Node.writeBody (at_ : Setting) : Node → Page → Page
  | .seq h flow xs, p =>
    let outer := at_.indent.getD 0
    if at_.flow || flow || xs.isEmpty then
      let p := writeFlowItems (deeper true at_.indent) true false xs (p.sign "[" true true false)
      let p := p.expect (h.lastRemarks at_) ""
      ((if p.column == 0 then p.indent outer else p).glue "]").writeAfter outer
    else (writeBlockItems (deeper false at_.indent) xs p).expect (h.lastRemarks at_) ""
  | .map h flow es, p =>
    if at_.flow || flow || es.isEmpty then
      writeFlowEntries at_ (h.lastRemarks at_) (deeper true at_.indent) true false "" es
        (p.sign "\x7b" true true false)
    else writeBlockEntries (h.lastRemarks at_) (deeper false at_.indent) "" es p
  | _, p => p

/-- Writes the items of a flow sequence; after an item with comments behind it, which makes it
`trailed`, the comma is written already. -/
def writeFlowItems (i : Nat) : (first trailed : Bool) → List Node → Page → Page
  | _, _, [], p => p
  | first, trailed, x :: xs, p =>
    let p := p.expect x.firstRemarks ""
    let p := (if first || trailed then p else p.glue ",").writeAbove i
    let p := if p.column == 0 then p.indent i else p
    let trailed := p.trails
    let p := x.writeStart ⟨true, some i, false⟩ false p
    let p := (if p.trails then p.glue "," else p).writeAfter i
    writeFlowItems i false trailed xs (x.writeBody ⟨true, some i, false⟩ p)

/-- Writes the items of a block sequence. -/
def writeBlockItems (i : Nat) : List Node → Page → Page
  | [], p => p
  | x :: xs, p =>
    let p := ((p.expect x.firstRemarks "").writeAbove i).indent i
    let p := x.writeStart ⟨false, some i, false⟩ false (p.sign "-" true false true)
    writeBlockItems i xs (x.writeBody ⟨false, some i, false⟩ (p.writeAfter i))

/-- Writes the entries of a flow mapping and its end.  `last` is what the end brings, and `tail`
the comment below the entry before. -/
def writeFlowEntries (at_ : Setting) (last : Remarks) (i : Nat) : (first trailed : Bool) →
    (tail : String) → List (Node × Node) → Page → Page
  | first, trailed, tail, [], p =>
    let p := p.expect last tail
    let p := if p.needsComma && !first && !trailed then p.glue "," else p
    ((p.writeAbove i).glue "\x7d").writeAfter (at_.indent.getD 0)
  | first, trailed, tail, (k, v) :: es, p =>
    let inner : Setting := ⟨true, some i, false⟩
    let ofKey : Setting := ⟨true, some i, true⟩
    let p := p.expectKey k tail
    let p := (if first || trailed then p else p.glue ",").writeAbove i
    let p := if p.column == 0 then p.indent i else p
    let simple := k.isSimpleKey
    let p := k.writeStart ofKey simple (if simple then p else p.sign "?" true false false)
    let p := (k.writeBody ofKey p).expect v.firstRemarks ""
    let p := p.sign ":" (!simple) false false
    let trailed := p.trails
    let p := v.writeStart inner false p
    let p := (if p.trails then p.glue "," else p).writeAfter i
    writeFlowEntries at_ last i false trailed k.footnote es (v.writeBody inner p)

/-- Writes the entries of a block mapping and what its end brings. -/
def writeBlockEntries (last : Remarks) (i : Nat) : (tail : String) → List (Node × Node) → Page →
    Page
  | tail, [], p => (p.expect last tail).writeAbove i
  | tail, (k, v) :: es, p =>
    let inner : Setting := ⟨false, some i, false⟩
    let ofKey : Setting := ⟨false, some i, true⟩
    let p := (((p.expectKey k tail).writeAbove i).indent i).holdKeyRemark
    let simple := k.isSimpleKey
    let p := k.writeStart ofKey simple (if simple then p else p.sign "?" true false true)
    let p := (k.writeBody ofKey p).expect v.firstRemarks ""
    let p := if simple then p.glue ":" else (p.indent i).sign ":" true false true
    let p := v.writeStart inner false (p.releaseKeyRemark i v)
    writeBlockEntries last i k.footnote es (v.writeBody inner (p.writeAfter i))

end

/-- **The text of a document.** -/
def Node.write (n : Node) : String :=
  let top : Setting := ⟨false, none, false⟩
  let p := n.writeStart top false ((Page.empty.expect n.firstRemarks "").writeAbove 0)
  let p := n.writeBody top (p.writeAfter 0)
  let p := { p with foot := some 0 }.writeBelow 0
  ({ p with foot := none }.indent 0).text

end DocAudit.Yaml
