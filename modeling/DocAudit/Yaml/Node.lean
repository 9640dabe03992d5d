import DocAudit.Text.Split

/-!
# Nodes of a YAML document

A document is a tree of nodes.  Every node has a tag: the one written, or the one its form implies.
The tag of a plain scalar is read off its text (`Yaml/Scalar.lean`).  A node also keeps the comments
around it, so that a document can be written as it was read.
-/

namespace DocAudit.Yaml

open DocAudit.Text

/-- How a scalar is written. -/
inductive ScalarStyle where
  | plain
  | single
  | double
  | literal
  | folded
deriving Repr, DecidableEq, Inhabited

/-- The comments of a node: those in the lines above it, behind it, and in the lines below it.  An
empty text is no comment. -/
structure Remarks where
  above : String
  behind : String
  below : String
deriving Repr, DecidableEq, Inhabited

/-- No comments. -/
def Remarks.none : Remarks := ⟨"", "", ""⟩

/-- What every node carries: its tag, whether the tag is written, its anchor, its line and its
comments. -/
structure Head where
  tag : String
  written : Bool
  anchor : String
  line : Nat
  remarks : Remarks
deriving Repr, DecidableEq, Inhabited

/-- The head of a node that has nothing but a tag. -/
def Head.ofTag (tag : String) : Head := ⟨tag, false, "", 0, .none⟩

/-- The head of a node that does not stand in a document. -/
def Head.withoutPlace (h : Head) : Head := { h with line := 0, remarks := .none }

/-- A node of a document. -/
inductive Node where
  | scalar (head : Head) (style : ScalarStyle) (value : String)
  | seq (head : Head) (flow : Bool) (items : List Node)
  | map (head : Head) (flow : Bool) (entries : List (Node × Node))
  /-- A reference to an anchored node; without a target inside that node itself. -/
  | alias (head : Head) (name : String) (target : Option Node)

/-- A node that stands for nothing. -/
def Node.null : Node := .scalar (.ofTag "!!null") .plain "null"

instance : Inhabited Node := ⟨Node.null⟩

/-- The head of a node. -/
def Node.head : Node → Head
  | .scalar h _ _ => h
  | .seq h _ _ => h
  | .map h _ _ => h
  | .alias h _ _ => h

/-- A node with its head changed. -/
def Node.mapHead (f : Head → Head) : Node → Node
  | .scalar h style v => .scalar (f h) style v
  | .seq h flow xs => .seq (f h) flow xs
  | .map h flow es => .map (f h) flow es
  | .alias h name t => .alias (f h) name t

mutual

/-- A node without the places and comments of what it holds. -/
def Node.withoutPlaces : Node → Node
  | .scalar h style v => .scalar h.withoutPlace style v
  | .seq h flow xs => .seq h.withoutPlace flow (itemsWithoutPlaces xs)
  | .map h flow es => .map h.withoutPlace flow (entriesWithoutPlaces es)
  | .alias h name t => .alias h.withoutPlace name t

/-- Nodes without places. -/
def itemsWithoutPlaces : List Node → List Node
  | [] => []
  | n :: ns => n.withoutPlaces :: itemsWithoutPlaces ns

/-- Entries without places. -/
def entriesWithoutPlaces : List (Node × Node) → List (Node × Node)
  | [] => []
  | (k, v) :: es => (k.withoutPlaces, v.withoutPlaces) :: entriesWithoutPlaces es

end

/-- The line of a node. -/
def Node.line (n : Node) : Nat := n.head.line

/-- The comment below a node. -/
def Node.footnote (n : Node) : String := n.head.remarks.below

/-- A node with another comment below it. -/
def Node.withFootnote (n : Node) (text : String) : Node :=
  n.mapHead fun h => { h with remarks.below := text }

/-- The tag prefix of the types that every document knows. -/
def longTag : String := "tag:yaml.org,2002:"

/-- A tag with the common beginning shortened. -/
def shortTag (tag : String) : String :=
  match stripStart? tag longTag with
  | some rest => "!!" ++ rest
  | none => tag

/-- The tag of a node, for an alias that of its target. -/
def Node.tag : Node → String
  | .scalar h _ _ => h.tag
  | .seq h _ _ => h.tag
  | .map h _ _ => h.tag
  | .alias _ _ (some n) => n.tag
  | .alias _ _ none => ""

/-- Whether a node is null. -/
def Node.isNull (n : Node) : Bool := n.tag == "!!null"

/-- Whether a mapping key asks for another mapping to be merged in. -/
def Node.isMerge : Node → Bool
  | .scalar h _ v => v == "<<" && h.tag == "!!merge"
  | _ => false

end DocAudit.Yaml
