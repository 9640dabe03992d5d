import DocAudit.Source.Syntax

/-!
# Signatures

The one-line text that stands for a declaration: a type's head, a function's name with the types of
its parameters and results.  Parameter names are left out; a type that several names share is
written once for each.
-/

namespace DocAudit.Source

open DocAudit.Text

/-- The types of a parameter list, one for each parameter. -/
def fieldTypes (fs : List Field) : List String :=
  fs.flatMap fun f => List.replicate (max f.names.length 1) f.type.render

/-- The type parameters of a declaration in brackets; nothing if there are none. -/
def typeParamText (fs : List Field) : String :=
  if fs.isEmpty then ""
  else
    let group (f : Field) : String := join ", " (f.names.map (·.text)) ++ " " ++ f.type.render
    "[" ++ join ", " (fs.map group) ++ "]"

/-- The signature of a function or method. -/
def funcSignature (name : String) (s : Signature) : String :=
  let results := match fieldTypes s.results with
    | [] => ""
    | [r] => " " ++ r
    | rs => " (" ++ join ", " rs ++ ")"
  name ++ typeParamText s.typeParams ++ "(" ++ join ", " (fieldTypes s.params) ++ ")" ++ results

/-- The signature of a type: its head, with the body of a struct or interface left out. -/
def TypeSpec.signature (t : TypeSpec) : String :=
  let body := match t.type with
    | .struct _ => "struct"
    | .interface _ => "interface"
    | x => x.render
  "type " ++ t.name.text ++ typeParamText t.typeParams ++ (if t.isAlias then " =" else "") ++
    " " ++ body

/-- The signature of a constant or variable. -/
def valueSignature (kind : ValueKind) (name : String) (type : Option Expr) : String :=
  let word := match kind with
    | .const => "const"
    | .var => "var"
  word ++ " " ++ name ++ (match type with
    | some t => " " ++ t.render
    | none => "")

end DocAudit.Source
