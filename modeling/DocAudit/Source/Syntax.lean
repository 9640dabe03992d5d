import DocAudit.Source.Comment

/-!
# Declarations of a source file

What the audit needs of a parsed file: its declarations with their comments and positions, and the
expressions that stand in them as types.  Statements are checked by the grammar and not kept.

* `Expr.render` writes an expression on one line, bodies and elements left out;
* `Expr.baseName` is the name of the type that a receiver, embedded field or result refers to.
-/

namespace DocAudit.Source

open DocAudit.Text

/-! ## 1. Expressions -/

/-- A name and where it stands. -/
structure Name extends Ident where
  pos : Pos
deriving Repr, DecidableEq, Inhabited

/-- The direction of a channel. -/
inductive ChanDir where
  | both
  | send
  | receive
deriving Repr, DecidableEq, Inhabited

mutual

/-- An expression or type. -/
inductive Expr where
  | ident (name : Ident)
  | lit (text : String)
  /-- The mark `...` in place of an array length. -/
  | dots
  /-- A variadic parameter type. -/
  | variadic (elem : Expr)
  | funcLit (sig : Signature)
  /-- A composite literal: its type, and whether it has elements. -/
  | composite (type : Option Expr) (filled : Bool)
  | paren (x : Expr)
  | select (x : Expr) (name : Ident)
  | index (x : Expr) (args : List Expr)
  /-- A slice expression; the flag tells whether a third index is written. -/
  | slice (x : Expr) (low high max : Option Expr) (three : Bool)
  /-- A type assertion, without a type in the guard of a type switch. -/
  | assert (x : Expr) (type : Option Expr)
  | call (f : Expr) (args : List Expr) (spread : Bool)
  | star (x : Expr)
  | unary (op : String) (x : Expr)
  | binary (op : String) (x y : Expr)
  | array (len : Option Expr) (elem : Expr)
  | struct (fields : List Field)
  | func (sig : Signature)
  | interface (elems : List Field)
  | map (key value : Expr)
  | chan (dir : ChanDir) (elem : Expr)

/-- A function's parameters and results. -/
inductive Signature where
  | mk (typeParams params results : List Field)

/-- A field, parameter, method or embedded element: its names, its type and where the type starts,
and its comments. -/
inductive Field where
  | mk (doc : Option CommentGroup) (names : List Name) (type : Expr) (typePos : Pos)
      (trail : Option CommentGroup)

end

instance : Inhabited Expr := ⟨.dots⟩

/-- The type parameters of a signature. -/
def Signature.typeParams : Signature → List Field
  | .mk t _ _ => t

/-- The parameters of a signature. -/
def Signature.params : Signature → List Field
  | .mk _ p _ => p

/-- The results of a signature. -/
def Signature.results : Signature → List Field
  | .mk _ _ r => r

/-- The comment group that leads a field. -/
def Field.doc : Field → Option CommentGroup
  | .mk d _ _ _ _ => d

/-- The names a field declares; none for an embedded one. -/
def Field.names : Field → List Name
  | .mk _ n _ _ _ => n

/-- The type of a field. -/
def Field.type : Field → Expr
  | .mk _ _ t _ _ => t

/-- Where the type of a field starts. -/
def Field.typePos : Field → Pos
  | .mk _ _ _ p _ => p

/-- The comment group that trails a field. -/
def Field.trail : Field → Option CommentGroup
  | .mk _ _ _ _ c => c

/-- A field of a bare type, without names and comments. -/
def Field.bare (type : Expr) (pos : Pos) : Field := .mk none [] type pos none

/-- How many parameters a list declares, grouped names counted one by one. -/
def fieldCount (fs : List Field) : Nat :=
  fs.foldr (fun f n => (if f.names.isEmpty then 1 else f.names.length) + n) 0

/-! ## 2. Their text -/

mutual

/-- An expression on one line. -/
def Expr.render : Expr → String
  | .ident n => n.text
  | .lit t => t
  | .dots => "..."
  | .variadic e => "..." ++ e.render
  | .funcLit s => "(func" ++ s.render ++ " literal)"
  | .composite t filled => renderOption t ++ "\x7b" ++ (if filled then "…" else "") ++ "\x7d"
  | .paren x => "(" ++ x.render ++ ")"
  | .select x n => x.render ++ "." ++ n.text
  | .index x args => x.render ++ "[" ++ renderList args ++ "]"
  | .slice x lo hi mx three =>
    x.render ++ "[" ++ renderEnd lo ++ ":" ++ renderEnd hi ++
      (if three then ":" ++ renderEnd mx else "") ++ "]"
  | .assert x t => x.render ++ ".(" ++ renderOption t ++ ")"
  | .call f args spread =>
    f.render ++ "(" ++ renderList args ++ (if spread then "..." else "") ++ ")"
  | .star x => "*" ++ x.render
  | .unary op x => op ++ x.render
  | .binary op x y => x.render ++ " " ++ op ++ " " ++ y.render
  | .array len e => "[" ++ renderEnd len ++ "]" ++ e.render
  | .struct fs => "struct\x7b" ++ renderFields "; " false fs ++ "\x7d"
  | .func s => "func" ++ s.render
  | .interface fs => "interface\x7b" ++ renderFields "; " true fs ++ "\x7d"
  | .map k v => "map[" ++ k.render ++ "]" ++ v.render
  | .chan .both e => "chan " ++ e.render
  | .chan .send e => "chan<- " ++ e.render
  | .chan .receive e => "<-chan " ++ e.render

/-- Expressions with commas between them. -/
def renderList : List Expr → String
  | [] => ""
  | x :: [] => x.render
  | x :: y :: r => x.render ++ ", " ++ renderList (y :: r)

/-- A type that may be left out. -/
def renderOption : Option Expr → String
  | none => "(ast: <nil>)"
  | some x => x.render

/-- An index that may be left out. -/
def renderEnd : Option Expr → String
  | none => ""
  | some x => x.render

/-- Parameters and results. -/
def Signature.render : Signature → String
  | .mk _ ps rs => "(" ++ renderFields ", " false ps ++ ")" ++ renderResults rs

/-- The results of a signature, in brackets unless there is a single unnamed one. -/
def renderResults : List Field → String
  | [] => ""
  | .mk d [] t p c :: [] => " " ++ (Field.mk d [] t p c).render false
  | f :: fs => " (" ++ renderFields ", " false (f :: fs) ++ ")"

/-- Fields with a separator between them. -/
def renderFields (sep : String) (elems : Bool) : List Field → String
  | [] => ""
  | f :: [] => f.render elems
  | f :: g :: r => f.render elems ++ sep ++ renderFields sep elems (g :: r)

/-- A field; in an interface, a method is its name and signature. -/
def Field.render (elems : Bool) : Field → String
  | .mk _ names type _ _ =>
    let head := join ", " (names.map (·.text))
    match type with
    | .func s =>
      if elems then head ++ s.render
      else head ++ (if names.isEmpty then "" else " ") ++ "func" ++ s.render
    | t => head ++ (if names.isEmpty then "" else " ") ++ t.render

end

/-- The name that a type refers to, without pointers, brackets, type arguments and package. -/
def Expr.baseName : Expr → String
  | .ident n => n.text
  | .star x => x.baseName
  | .index x _ => x.baseName
  | .paren x => x.baseName
  | .select _ n => n.text
  | _ => ""

/-- Whether an expression is a given name. -/
def Expr.isIdent (name : String) : Expr → Bool
  | .ident n => n.text == name
  | _ => false

/-- An expression without the brackets around it. -/
def Expr.unparen : Expr → Expr
  | .paren x => x.unparen
  | x => x

/-! ## 3. Declarations -/

/-- A type declaration. -/
structure TypeSpec where
  doc : Option CommentGroup
  name : Name
  typeParams : List Field
  isAlias : Bool
  type : Expr
deriving Inhabited

/-- A line of a constant or variable declaration. -/
structure ValueSpec where
  doc : Option CommentGroup
  names : List Name
  type : Option Expr
  trail : Option CommentGroup
deriving Inhabited

/-- A function or method declaration; `receiver` is present for a method. -/
structure FuncDecl where
  doc : Option CommentGroup
  receiver : Option (List Field)
  name : Name
  sig : Signature

/-- What a value declaration declares. -/
inductive ValueKind where
  | const
  | var
deriving Repr, DecidableEq, Inhabited

/-- A declaration of a file. -/
inductive Decl where
  | imports
  | types (doc : Option CommentGroup) (specs : List TypeSpec)
  | values (kind : ValueKind) (doc : Option CommentGroup) (specs : List ValueSpec)
  | func (decl : FuncDecl)

/-- A parsed file. -/
structure File where
  /-- The name under which the file was parsed. -/
  path : String
  /-- The name in its package clause. -/
  package : String
  /-- Whether it carries the marker of machine-written files. -/
  generated : Bool
  decls : List Decl
  /-- What its line directives say. -/
  marks : List Mark
  /-- The number of its lines; a newline at its end starts none. -/
  lines : Nat
deriving Inhabited

/-- The place reported for a position of the file. -/
def File.place (f : File) (p : Pos) : Place := Source.place f.path f.marks p

end DocAudit.Source
