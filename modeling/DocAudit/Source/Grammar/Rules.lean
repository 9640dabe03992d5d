import DocAudit.Source.Grammar.Reader

/-!
# The grammar of declarations, types, expressions and statements

Each rule is a plain definition over a record of the rules it calls again (`Rules`); `rulesAt` ties
the knot, with a bound on how deep the rules nest.  A rule takes the *level*: negative in the
header of a control statement, where an opening brace starts the statement's block and not a
literal, and zero or more elsewhere.

Functions, struct and interface types, blocks, clauses and control statements open scopes, which
may nest `maxScopes` deep in a declaration.
-/

namespace DocAudit.Source

open Reader

/-! ## 1. The rules that call each other -/

/-- The kinds of phrase that other phrases contain. -/
inductive Phrase where
  /-- A type, if there is one. -/
  | type
  /-- An operand with its unary operators. -/
  | unary
  /-- An expression of operators that bind at least as tightly as `prec`. -/
  | binary (prec : Nat)
  /-- The braces of a composite literal; the answer tells whether they hold elements. -/
  | elements
  /-- A statement. -/
  | stmt
  /-- A conditional statement. -/
  | cond

/-- What a phrase is read to. -/
def Phrase.Out : Phrase → Type
  | .type => Option Expr
  | .unary => Expr
  | .binary _ => Expr
  | .elements => Bool
  | .stmt => Unit
  | .cond => Unit

/-- A reader for every kind of phrase at every level. -/
abbrev Rules := (p : Phrase) → (level : Int) → Reader p.Out

/-! ## 2. Types -/

/-- A type. -/
def readType (r : Rules) (lev : Int) : Reader Expr := do
  match ← r .type lev with
  | some t => pure t
  | none => refuse

/-- An expression. -/
def readExpr (r : Rules) (lev : Int) : Reader Expr := r (.binary 1) lev

/-- A name that may be qualified by a package. -/
def readTypeName : Reader Expr := do
  let n ← ident
  if ← trySym "." then
    let m ← ident
    pure (.select (.ident n.toIdent) m.toIdent)
  else pure (.ident n.toIdent)

/-- Types with commas between them, up to a closing bracket. -/
def readTypes (r : Rules) (lev : Int) (closing : String) (start : List Expr) :
    Reader (List Expr) :=
  repeated start fun acc => do
    if ← atSym closing then pure (acc, false)
    else
      let t ← readType r lev
      let more ← comma closing
      pure (acc ++ [t], more)

/-- The type arguments after a type name. -/
def readInstance (r : Rules) (lev : Int) (x : Expr) : Reader Expr := do
  sym "["
  let args ← readTypes r (lev + 1) "]" []
  sym "]"
  if args.isEmpty then refuse else pure (.index x args)

/-- A type name with its type arguments, if any. -/
def readNamedType (r : Rules) (lev : Int) : Reader Expr := do
  let x ← readTypeName
  if ← atSym "[" then readInstance r lev x else pure x

/-- What follows a name read already, as a qualified or instantiated type. -/
def readQualified (r : Rules) (lev : Int) (n : Name) : Reader Expr := do
  let x ← if ← trySym "." then
      let m ← ident
      pure (Expr.select (.ident n.toIdent) m.toIdent)
    else pure (.ident n.toIdent)
  if ← atSym "[" then readInstance r lev x else pure x

/-- An array or slice type after its opening bracket; the length may have been read. -/
def readArray (r : Rules) (lev : Int) (len : Option Expr) : Reader Expr := do
  let len ← match len with
    | some l => pure (some l)
    | none =>
      if ← trySym "..." then pure (some Expr.dots)
      else if ← atSym "]" then pure none
      else some <$> readExpr r (lev + 1)
  sym "]"
  let elem ← readType r lev
  pure (.array len elem)

/-- After a name and before a bracket: an array-typed field of that name, or an embedded instance of
a type of that name. -/
def readFieldOrInstance (r : Rules) (lev : Int) (x : Name) : Reader (Option Name × Expr) := do
  sym "["
  let (args, trailing) ← repeated ([], false) fun (acc, _) => do
    if ← atSym "]" then pure ((acc, !acc.isEmpty), false)
    else
      let e ← readExpr r (lev + 1)
      let more ← trySym ","
      pure ((acc ++ [e], false), more)
  sym "]"
  match args with
  | [] =>
    let elem ← readType r lev
    pure (some x, .array none elem)
  | [a] =>
    match ← r .type lev with
    | some elem => if trailing then refuse else pure (some x, .array (some a) elem)
    | none => pure (none, .index (.ident x.toIdent) args)
  | _ => pure (none, .index (.ident x.toIdent) args)

/-- A field of a struct. -/
def readField (r : Rules) (lev : Int) : Reader Field := do
  let first ← item
  let (names, type) ←
    match first.tok with
    | .ident _ => do
      let n ← ident
      match ← tok with
      | .sym "." => pure ([], ← readQualified r lev n)
      | .lit .string _ => pure ([], Expr.ident n.toIdent)
      | .semi _ => pure ([], Expr.ident n.toIdent)
      | .sym "\x7d" => pure ([], Expr.ident n.toIdent)
      | _ =>
        let names ← repeated [n] fun acc => do
          if ← trySym "," then
            let m ← ident
            pure (acc ++ [m], true)
          else pure (acc, false)
        if names.length == 1 && (← atSym "[") then
          let (m, t) ← readFieldOrInstance r lev n
          pure (m.toList, t)
        else pure (names, ← readType r lev)
    | .sym "*" => do
      next
      let n ← ident
      let t ← readQualified r lev n
      pure ([], Expr.star t)
    | _ => refuse
  let typePos ← pure first.pos
  match ← tok with
  | .lit .string _ => next
  | _ => pure ()
  let trail ← endOfLine
  pure (.mk first.lead names type typePos trail)

/-- A struct type. -/
def readStruct (r : Rules) (lev : Int) : Reader Expr := inScope do
  word "struct"
  sym "\x7b"
  let fs ← repeated [] fun acc => do
    match ← tok with
    | .ident _ | .sym "*" | .sym "(" =>
      let f ← readField r lev
      pure (acc ++ [f], true)
    | _ => pure (acc, false)
  sym "\x7d"
  pure (.struct fs)

/-- A term of a type set: a type, or the types with an underlying type. -/
def readTerm (r : Rules) (lev : Int) : Reader Expr := do
  if ← trySym "~" then
    let t ← readType r lev
    pure (.unary "~" t)
  else readType r lev

/-- The union of terms that goes on after its first term. -/
def readUnionFrom (r : Rules) (lev : Int) (x : Expr) : Reader Expr :=
  repeated x fun acc => do
    if ← trySym "|" then
      let t ← readTerm r lev
      pure (.binary "|" acc t, true)
    else pure (acc, false)

/-- A union of terms. -/
def readUnion (r : Rules) (lev : Int) : Reader Expr := do
  let x ← readTerm r lev
  readUnionFrom r lev x

/-! ## 3. Parameters -/

/-- A parameter as written: a name, a type or both. -/
structure Param where
  name : Option Name
  type : Option Expr
  pos : Pos

/-- The type of a parameter after its name, where `sets` allows unions. -/
def readParamAfter (r : Rules) (lev : Int) (sets : Bool) (n : Name) : Reader Param := do
  match ← tok with
  | .ident _ | .sym "*" | .sym "<-" | .word "func" | .word "chan" | .word "map" | .word "struct"
  | .word "interface" | .sym "(" =>
    let t ← readType r lev
    let t ← if sets then readUnionFrom r lev t else pure t
    pure ⟨some n, some t, n.pos⟩
  | .sym "[" =>
    let (m, t) ← readFieldOrInstance r lev n
    let t ← if sets then readUnionFrom r lev t else pure t
    pure ⟨m, some t, n.pos⟩
  | .sym "..." =>
    next
    let t ← readType r lev
    pure ⟨some n, some (.variadic t), n.pos⟩
  | .sym "." =>
    let t ← readQualified r lev n
    let t ← if sets then readUnionFrom r lev t else pure t
    pure ⟨none, some t, n.pos⟩
  | .sym "~" =>
    if sets then
      let t ← readUnion r lev
      pure ⟨some n, some t, n.pos⟩
    else pure ⟨some n, none, n.pos⟩
  | .sym "|" =>
    if sets then
      let t ← readUnionFrom r lev (.ident n.toIdent)
      pure ⟨none, some t, n.pos⟩
    else pure ⟨some n, none, n.pos⟩
  | _ => pure ⟨some n, none, n.pos⟩

/-- A parameter; `sets` allows unions of types, as in type parameter lists. -/
def readParam (r : Rules) (lev : Int) (sets : Bool) : Reader Param := do
  let i ← item
  match i.tok with
  | .ident _ =>
    let n ← ident
    readParamAfter r lev sets n
  | .sym "~" =>
    if sets then
      let t ← readUnion r lev
      pure ⟨none, some t, i.pos⟩
    else refuse
  | .sym "..." =>
    next
    let t ← readType r lev
    pure ⟨none, some (.variadic t), i.pos⟩
  | .sym "*" | .sym "<-" | .word "func" | .sym "[" | .word "chan" | .word "map" | .word "struct"
  | .word "interface" | .sym "(" =>
    let t ← readType r lev
    let t ← if sets then readUnionFrom r lev t else pure t
    pure ⟨none, some t, i.pos⟩
  | _ => refuse

/-- Whether a type is that of a variadic parameter. -/
def Expr.isVariadic : Expr → Bool
  | .variadic _ => true
  | _ => false

/-- Parameters that all have names, grouped: names without a type take the next type.  `none` if a
name has no type or a type no name. -/
def groupParams (names : List Name) : List Param → Option (List Field)
  | [] => if names.isEmpty then some [] else none
  | p :: ps =>
    match p.name, p.type with
    | some n, some t => do
      let rest ← groupParams [] ps
      some (.mk none (names ++ [n]) t p.pos none :: rest)
    | some n, none => groupParams (names ++ [n]) ps
    | _, _ => none

/-- Whether the variadic types of a list stand where they may: on its last parameter alone, and
nowhere unless `allowed`. -/
def variadicOk (allowed : Bool) : List Field → Bool
  | [] => true
  | [f] => !f.type.isVariadic || (allowed && f.names.length ≤ 1)
  | f :: fs => !f.type.isVariadic && variadicOk allowed fs

/-- The fields that a list of parameters declares.  If no parameter has both a name and a type,
all names are types, which a type parameter list refuses. -/
def fieldsOf (typeParams variadic : Bool) (ps : List Param) : Option (List Field) := do
  let named := ps.any fun p => p.name.isSome && p.type.isSome
  let fs ←
    if ps.isEmpty then some []
    else if named then groupParams [] ps
    else if typeParams then none
    else some (ps.map fun p =>
      .bare ((p.type <|> p.name.map fun n => Expr.ident n.toIdent).getD .dots) p.pos)
  if variadicOk variadic fs then some fs else none

/-- Parameters up to a closing bracket, a first one having been read. -/
def readParamsFrom (r : Rules) (lev : Int) (closing : String) (first : List Param) :
    Reader (List Param) :=
  repeated first fun acc => do
    if ← atSym closing then pure (acc, false)
    else
      let p ← readParam r lev (closing == "]")
      let more ← comma closing
      pure (acc ++ [p], more)

/-- The fields of a parameter list, or a refusal. -/
def checkedFields (typeParams variadic : Bool) (ps : List Param) : Reader (List Field) :=
  match fieldsOf typeParams variadic ps with
  | some fs => pure fs
  | none => refuse

/-- Parameters in round brackets. -/
def readParams (r : Rules) (lev : Int) (variadic : Bool) : Reader (List Field) := do
  sym "("
  let ps ← readParamsFrom r lev ")" []
  sym ")"
  checkedFields false variadic ps

/-- Type parameters in square brackets, if there are any. -/
def readTypeParams (r : Rules) (lev : Int) : Reader (List Field) := do
  if ← trySym "[" then
    let ps ← readParamsFrom r lev "]" []
    sym "]"
    if ps.isEmpty then refuse else checkedFields true false ps
  else pure []

/-- The results of a function. -/
def readResults (r : Rules) (lev : Int) : Reader (List Field) := do
  if ← atSym "(" then readParams r lev false
  else
    let p ← pos
    match ← r .type lev with
    | some t => pure [.bare t p]
    | none => pure []

/-- A function type, which has no type parameters. -/
def readFuncType (r : Rules) (lev : Int) : Reader Signature := inScope do
  word "func"
  let ps ← readParams r lev true
  let rs ← readResults r lev
  pure (.mk [] ps rs)

/-! ## 4. Interfaces and the other types -/

/-- An element of an interface that starts with a name: a method, or an embedded type. -/
def readMethod (r : Rules) (lev : Int) : Reader (List Name × Expr) := do
  let n ← ident
  if ← atSym "." then
    let t ← readQualified r lev n
    pure ([], t)
  else if ← atSym "[" then
    next
    let x ← readExpr r (lev + 1)
    let more ← comma "]"
    let args ← if more then readTypes r (lev + 1) "]" [x] else pure [x]
    sym "]"
    pure ([], .index (.ident n.toIdent) args)
  else if ← atSym "(" then inScope do
    let ps ← readParams r lev true
    let rs ← readResults r lev
    pure ([n], .func (.mk [] ps rs))
  else pure ([], .ident n.toIdent)

/-- An interface type. -/
def readInterface (r : Rules) (lev : Int) : Reader Expr := inScope do
  word "interface"
  sym "\x7b"
  let fs ← repeated [] fun acc => do
    let i ← item
    match i.tok with
    | .ident _ =>
      let (names, t) ← readMethod r lev
      let t ← if names.isEmpty then readUnionFrom r lev t else pure t
      let trail ← endOfLine
      pure (acc ++ [.mk i.lead names t i.pos trail], true)
    | .sym "~" =>
      let t ← readUnion r lev
      let trail ← endOfLine
      pure (acc ++ [.mk none [] t i.pos trail], true)
    | _ =>
      match ← r .type lev with
      | some t =>
        let t ← readUnionFrom r lev t
        let trail ← endOfLine
        pure (acc ++ [.mk none [] t i.pos trail], true)
      | none => pure (acc, false)
  sym "\x7d"
  pure (.interface fs)

/-- A map type. -/
def readMap (r : Rules) (lev : Int) : Reader Expr := do
  word "map"
  sym "["
  let k ← readType r lev
  sym "]"
  let v ← readType r lev
  pure (.map k v)

/-- A channel type. -/
def readChan (r : Rules) (lev : Int) : Reader Expr := do
  if ← atWord "chan" then
    next
    let dir ← if ← trySym "<-" then pure ChanDir.send else pure .both
    let t ← readType r lev
    pure (.chan dir t)
  else
    sym "<-"
    word "chan"
    let t ← readType r lev
    pure (.chan .receive t)

/-- A type, if there is one. -/
def typeRule (r : Rules) (lev : Int) : Reader (Option Expr) := do
  match ← tok with
  | .ident _ => some <$> readNamedType r lev
  | .sym "[" => next; some <$> readArray r lev none
  | .word "struct" => some <$> readStruct r lev
  | .sym "*" => next; return some (.star (← readType r lev))
  | .word "func" => return some (.func (← readFuncType r lev))
  | .word "interface" => some <$> readInterface r lev
  | .word "map" => some <$> readMap r lev
  | .word "chan" => some <$> readChan r lev
  | .sym "<-" => some <$> readChan r lev
  | .sym "(" =>
    next
    let t ← readType r lev
    sym ")"
    pure (some (.paren t))
  | _ => pure none

/-! ## 5. Expressions -/

/-- The statements of a block or clause. -/
def readStmts (r : Rules) (lev : Int) : Reader Unit :=
  repeated () fun _ => do
    match ← tok with
    | .word "case" | .word "default" | .sym "\x7d" | .eof => pure ((), false)
    | _ =>
      r .stmt lev
      pure ((), true)

/-- A block. -/
def readBlock (r : Rules) (lev : Int) : Reader Unit := inScope do
  sym "\x7b"
  readStmts r lev
  sym "\x7d"

/-- An operand: a name, a literal, a bracketed expression, a function literal or a type. -/
def readOperand (r : Rules) (lev : Int) : Reader Expr := do
  match ← tok with
  | .ident n => next; pure (.ident n)
  | .lit _ t => next; pure (.lit t)
  | .sym "(" =>
    next
    let x ← readExpr r (lev + 1)
    sym ")"
    pure (.paren x)
  | .word "func" =>
    let s ← readFuncType r lev
    if ← atSym "\x7b" then
      readBlock r (lev + 1)
      pure (.funcLit s)
    else pure (.func s)
  | _ => readType r lev

/-- An index, slice or instance after its operand. -/
def readIndex (r : Rules) (lev : Int) (x : Expr) : Reader Expr := do
  sym "["
  let inner := lev + 1
  let first ← if ← atSym ":" then pure none else some <$> readExpr r inner
  match ← tok, first with
  | .sym ":", _ =>
    next
    let stop : Reader (Option Expr) := do
      match ← tok with
      | .sym ":" | .sym "]" | .eof => pure none
      | _ => some <$> readExpr r inner
    let high ← stop
    if ← trySym ":" then
      let max ← stop
      sym "]"
      if high.isNone || max.isNone then refuse
      else pure (.slice x first high max true)
    else
      sym "]"
      pure (.slice x first high none false)
  | .sym ",", some f =>
    let args ← repeated [f] fun acc => do
      if ← trySym "," then
        if ← atSym "]" then pure (acc, true)
        else
          let t ← readType r inner
          pure (acc ++ [t], true)
      else pure (acc, false)
    sym "]"
    pure (.index x args)
  | _, some f =>
    sym "]"
    pure (.index x [f])
  | _, none => refuse

/-- The arguments of a call or conversion. -/
def readCall (r : Rules) (lev : Int) (f : Expr) : Reader Expr := do
  sym "("
  let (args, spread) ← repeated ([], false) fun (acc, spread) => do
    if spread || (← atSym ")") then pure ((acc, spread), false)
    else
      let x ← readExpr r (lev + 1)
      let dots ← trySym "..."
      let more ← comma ")"
      pure ((acc ++ [x], dots), more)
  sym ")"
  pure (.call f args spread)

/-- Whether an opening brace after an operand starts the elements of a literal of that type. -/
def Expr.takesElements (lev : Int) : Expr → Bool
  | .ident _ | .select _ _ | .index _ _ => 0 ≤ lev
  | .array _ _ | .struct _ | .map _ _ => true
  | _ => false

/-- Selectors, assertions, indices, calls and literals after an operand. -/
def readPrimaryFrom (r : Rules) (lev : Int) (x : Expr) : Reader Expr :=
  repeated x fun x => do
    match ← tok with
    | .sym "." =>
      next
      match ← tok with
      | .ident n => next; pure (.select x n, true)
      | .sym "(" =>
        next
        let t ← if ← atWord "type" then next; pure none else some <$> readType r lev
        sym ")"
        pure (.assert x t, true)
      | _ => refuse
    | .sym "[" => return (← readIndex r lev x, true)
    | .sym "(" => return (← readCall r lev x, true)
    | .sym "\x7b" =>
      match x with
      | .paren _ => if x.unparen.takesElements lev then refuse else pure (x, false)
      | _ =>
        if x.takesElements lev then
          let filled ← r .elements lev
          pure (.composite (some x) filled, true)
        else pure (x, false)
    | _ => pure (x, false)

/-- The braces of a composite literal. -/
def elementsRule (r : Rules) (lev : Int) : Reader Bool := do
  let value : Reader Unit := do
    if ← atSym "\x7b" then let _ ← r .elements (lev + 1) else let _ ← readExpr r (lev + 1)
  sym "\x7b"
  let filled ← repeated false fun filled => do
    if ← atSym "\x7d" then pure (filled, false)
    else
      value
      if ← trySym ":" then value
      let more ← comma "\x7d"
      pure (true, more)
  sym "\x7d"
  pure filled

/-- A receiving arrow before a channel type belongs to the type: `<-chan T` after `<-` and
`chan T`, and so on inwards.  `none` if no channel type takes it. -/
def Expr.takeArrow : Expr → Option Expr
  | .chan .both e => some (.chan .receive e)
  | .chan .send e => (e.takeArrow).map (.chan .receive)
  | _ => none

/-- An operand with its unary operators. -/
def unaryRule (r : Rules) (lev : Int) : Reader Expr := do
  match ← tok with
  | .sym "<-" =>
    next
    let x ← r .unary lev
    match x with
    | .chan _ _ =>
      match x.takeArrow with
      | some t => pure t
      | none => refuse
    | _ => pure (.unary "<-" x)
  | .sym "*" =>
    next
    let x ← r .unary lev
    pure (.star x)
  | .sym op =>
    if ["+", "-", "!", "^", "&", "~"].contains op then
      next
      let x ← r .unary lev
      pure (.unary op x)
    else
      let x ← readOperand r lev
      readPrimaryFrom r lev x
  | _ =>
    let x ← readOperand r lev
    readPrimaryFrom r lev x

/-- How tightly a binary operator binds; zero for other tokens. -/
def precedence : Tok → Nat
  | .sym "||" => 1
  | .sym "&&" => 2
  | .sym s =>
    if ["==", "!=", "<", "<=", ">", ">="].contains s then 3
    else if ["+", "-", "|", "^"].contains s then 4
    else if ["*", "/", "%", "<<", ">>", "&", "&^"].contains s then 5
    else 0
  | _ => 0

/-- The binary operators after a first operand. -/
def readBinaryFrom (r : Rules) (lev : Int) (prec : Nat) (x : Expr) : Reader Expr :=
  repeated x fun x => do
    let t ← tok
    let p := precedence t
    match t with
    | .sym op =>
      if p < prec || p == 0 then pure (x, false)
      else
        next
        let y ← r (.binary (p + 1)) lev
        pure (.binary op x y, true)
    | _ => pure (x, false)

/-- Expressions with commas between them. -/
def readExprs (r : Rules) (lev : Int) : Reader (List Expr) := do
  let x ← readExpr r lev
  repeated [x] fun acc => do
    if ← trySym "," then
      let y ← readExpr r lev
      pure (acc ++ [y], true)
    else pure (acc, false)

/-! ## 6. Declarations -/

/-- The type parameter name and constraint that an expression after an opening bracket can be read
as: `P *C` and `P (C)` are read so where `force` or the constraint's form asks for it. -/
def Expr.isTypeForm : Expr → Bool
  | .array _ _ | .struct _ | .func _ | .interface _ | .map _ _ | .chan _ _ => true
  | .binary _ x y => x.isTypeForm || y.isTypeForm
  | .unary op _ => op == "~"
  | .paren x => x.isTypeForm
  | _ => false

/-- A name alone, or a name followed by a constraint, that an expression can be read as. -/
def Expr.asTypeParam (force : Bool) : Expr → Option (Ident × Option Expr)
  | .ident n => some (n, none)
  | .binary "*" (.ident n) y => if force || y.isTypeForm then some (n, some (.star y)) else none
  | .binary "|" x y =>
    match x.asTypeParam (force || y.isTypeForm) with
    | some (n, some l) => some (n, some (.binary "|" l y))
    | _ => none
  | .call (.ident n) [a] false => if force || a.isTypeForm then some (n, some (.paren a)) else none
  | _ => none

/-- A type declaration whose name has been read and is followed by an opening bracket: an array
type, or a generic type. -/
def readBracketType (r : Rules) (lev : Int) : Reader (List Field × Bool × Expr) := do
  sym "["
  if ← atIdent then
    let n ← ident
    let x ←
      if ← atSym "[" then pure (Expr.ident n.toIdent)
      else
        let lhs ← readPrimaryFrom r (lev + 1) (.ident n.toIdent)
        readBinaryFrom r (lev + 1) 1 lhs
    let force ← atSym ","
    let closed ← atSym "]"
    match x.asTypeParam force with
    | some (_, some c) =>
      let c ← readUnionFrom r lev c
      generic [⟨some n, some c, n.pos⟩] (← comma "]")
    | some (_, none) =>
      if closed then pure ([], false, ← readArray r lev (some x))
      else
        let p ← readParamAfter r lev true n
        generic [p] (← comma "]")
    | none => pure ([], false, ← readArray r lev (some x))
  else pure ([], false, ← readArray r lev none)
where
  /-- The rest of a generic type declaration. -/
  generic (first : List Param) (more : Bool) : Reader (List Field × Bool × Expr) := do
    let ps ← if more then readParamsFrom r lev "]" first else pure first
    sym "]"
    let fs ← checkedFields true false ps
    let isAlias ← trySym "="
    let t ← readType r lev
    pure (fs, isAlias, t)

/-- A type declaration. -/
def readTypeSpec (r : Rules) (lev : Int) (doc : Option CommentGroup) : Reader TypeSpec := do
  let n ← ident
  let (params, isAlias, t) ←
    if ← atSym "[" then readBracketType r lev
    else
      let isAlias ← trySym "="
      let t ← readType r lev
      pure ([], isAlias, t)
  let _ ← endOfLine
  pure ⟨doc, n, params, isAlias, t⟩

/-- A line of a constant or variable declaration. -/
def readValueSpec (r : Rules) (lev : Int) (kind : ValueKind) (doc : Option CommentGroup) :
    Reader ValueSpec := do
  let n ← ident
  let names ← repeated [n] fun acc => do
    if ← trySym "," then
      let m ← ident
      pure (acc ++ [m], true)
    else pure (acc, false)
  let type ← match kind with
    | .const => r .type lev
    | .var => if ← atSym "=" then pure none else some <$> readType r lev
  if ← trySym "=" then let _ ← readExprs r lev
  let trail ← endOfLine
  pure ⟨doc, names, type, trail⟩

/-- An import. -/
def readImport : Reader Unit := do
  match ← tok with
  | .ident _ => next
  | .sym "." => next
  | _ => pure ()
  match ← tok with
  | .lit .string _ => next
  | _ => refuse
  let _ ← endOfLine

/-- The lines of a declaration after its keyword, one or a bracketed list of them.  A line of
which `opens` holds opens a scope that lasts to the end of the list. -/
def readSpecs {α : Type} (opens : α → Bool) (spec : Option CommentGroup → Reader α) :
    Reader (List α) := do
  let read (acc : List α) (doc : Option CommentGroup) : Reader (List α) := do
    let (x, inner) ← measured (spec doc)
    let xs := acc ++ [x]
    reach (inner + xs.countP opens)
    pure xs
  if ← trySym "(" then
    let xs ← repeated [] fun acc => do
      if ← atSym ")" then pure (acc, false)
      else
        let i ← item
        return (← read acc i.lead, true)
    sym ")"
    let _ ← endOfLine
    pure xs
  else read [] none

/-- A declaration that starts with a keyword other than `func`. -/
def readGeneral (r : Rules) (lev : Int) : Reader Decl := do
  let i ← item
  match i.tok with
  | .word "import" =>
    next
    let _ ← readSpecs (fun _ => false) fun _ => readImport
    pure .imports
  | .word "type" =>
    next
    let specs ← readSpecs (fun t => !t.typeParams.isEmpty) (readTypeSpec r lev)
    pure (.types i.lead specs)
  | .word "const" =>
    next
    let specs ← readSpecs (fun _ => false) (readValueSpec r lev .const)
    pure (.values .const i.lead specs)
  | .word "var" =>
    next
    let specs ← readSpecs (fun _ => false) (readValueSpec r lev .var)
    pure (.values .var i.lead specs)
  | _ => refuse

/-! ## 7. Statements -/

/-- What a simple statement turned out to be. -/
inductive Simple where
  | expr (x : Expr)
  | assign (op : String) (targets : Nat) (values : List Expr)
  /-- The clause of a ranging loop, with the number of its targets. -/
  | range (targets : Nat)
  | labelled
  | other

/-- Where a simple statement stands: with labels allowed, with a range clause allowed, or plain. -/
inductive SimplePlace where
  | plain
  | labels
  | ranges
deriving DecidableEq

/-- The assignment operators. -/
def assignOps : List String :=
  [":=", "=", "+=", "-=", "*=", "/=", "%=", "&=", "|=", "^=", "<<=", ">>=", "&^="]

/-- The left side of a simple statement.  In a short declaration it holds names, and scopes in it
do not count. -/
def readTargets (r : Rules) (lev : Int) : Reader (List Expr × Nat) := do
  let (xs, inner) ← measured (readExprs r lev)
  if !(← atSym ":=") then reach inner
  pure (xs, inner)

/-- A simple statement. -/
def readSimple (r : Rules) (lev : Int) (at_ : SimplePlace) : Reader Simple := do
  let (xs, inner) ← readTargets r lev
  match ← tok, xs with
  | .sym ":", [x] =>
    next
    match x with
    | .ident _ =>
      if at_ == .labels then
        r .stmt lev
        pure .labelled
      else refuse
    | _ => refuse
  | .sym "<-", [_] =>
    next
    let _ ← readExpr r lev
    pure .other
  | .sym "++", [_] => next; pure .other
  | .sym "--", [_] => next; pure .other
  | .sym op, xs =>
    if assignOps.contains op then
      next
      if at_ == .ranges && (op == ":=" || op == "=") && (← atWord "range") then
        next
        let _ ← readExpr r lev
        reach inner
        pure (.range xs.length)
      else
        let ys ← readExprs r lev
        pure (.assign op xs.length ys)
    else match xs with
      | [x] => pure (.expr x)
      | _ => refuse
  | _, [x] => pure (.expr x)
  | _, _ => refuse

/-- Takes a simple statement that has to be an expression. -/
def asExpr : Simple → Reader Unit
  | .expr _ => pure ()
  | _ => refuse

/-- A call after `go` or `defer`. -/
def readCallStmt (r : Rules) (lev : Int) : Reader Unit := do
  next
  match ← readExpr r lev with
  | .call _ _ _ =>
    let _ ← endOfLine
  | _ => refuse

/-- The header of a conditional statement. -/
def readCondHeader (r : Rules) : Reader Unit := do
  if ← atSym "\x7b" then refuse
  let first ← if ← atSemi then pure none else some <$> readSimple r (-1) .plain
  if ← atSym "\x7b" then
    match first with
    | some s => asExpr s
    | none => refuse
  else
    if ← atSemi then next else refuse
    if ← atSym "\x7b" then refuse
    let s ← readSimple r (-1) .plain
    asExpr s

/-- A conditional statement. -/
def condRule (r : Rules) (lev : Int) : Reader Unit := inScope do
  word "if"
  readCondHeader r
  readBlock r lev
  if ← atWord "else" then
    next
    if ← atWord "if" then r .cond lev
    else
      readBlock r lev
      let _ ← endOfLine
  else
    let _ ← endOfLine

/-- Whether an expression is the guard of a type switch. -/
def Expr.isGuard : Expr → Bool
  | .assert _ none => true
  | _ => false

/-- Takes the tag of a switch: nothing, an expression, or the guard of a type switch. -/
def checkTag : Option Simple → Reader Unit
  | none => pure ()
  | some (.expr _) => pure ()
  | some (.assign op 1 [x]) => if op == ":=" && x.isGuard then pure () else refuse
  | _ => refuse

/-- Clauses in braces, each of which `clause` reads after its keyword and up to its colon. -/
def readClauses (r : Rules) (lev : Int) (clause : Reader Unit) : Reader Unit := do
  sym "\x7b"
  repeated () fun _ => do
    match ← tok with
    | .word "case" =>
      next
      clause
      sym ":"
      inScope (readStmts r lev)
      pure ((), true)
    | .word "default" =>
      next
      sym ":"
      inScope (readStmts r lev)
      pure ((), true)
    | _ => pure ((), false)
  sym "\x7d"
  let _ ← endOfLine

/-- A switch statement.  A tag after a first statement opens a scope of its own. -/
def readSwitch (r : Rules) (lev : Int) : Reader Unit := inScope do
  word "switch"
  let rest (tag : Option Simple) : Reader Unit := do
    checkTag tag
    readClauses r lev do let _ ← readExprs r lev
  if ← atSym "\x7b" then rest none
  else
    let first ← if ← atSemi then pure none else some <$> readSimple r (-1) .plain
    if ← atSemi then
      next
      if ← atSym "\x7b" then rest none
      else
        let tagged : Reader Unit := do
          let tag ← readSimple r (-1) .plain
          rest (some tag)
        if first.isSome then inScope tagged else tagged
    else rest first

/-- A communication clause of a select statement. -/
def readComm (r : Rules) (lev : Int) : Reader Unit := do
  let (lhs, _) ← readTargets r lev
  match ← tok with
  | .sym "<-" =>
    if lhs.length > 1 then refuse
    next
    let _ ← readExpr r lev
  | .sym "=" | .sym ":=" =>
    if lhs.length > 2 then refuse
    next
    let _ ← readExpr r lev
  | _ => if lhs.length > 1 then refuse

/-- The header of a loop. -/
def readLoopHeader (r : Rules) : Reader Unit := do
  if ← atSym "\x7b" then return
  let first ←
    if ← atSemi then pure none
    else if ← atWord "range" then
      next
      let _ ← readExpr r (-1)
      pure (some (Simple.range 0))
    else some <$> readSimple r (-1) .ranges
  match first with
  | some (.range n) => if n > 2 then refuse
  | _ =>
    if ← atSemi then
      next
      let middle ←
        if ← atSemi then pure none
        else if ← atSym "\x7b" then refuse
        else some <$> readSimple r (-1) .plain
      let _ ← endOfLine
      if !(← atSym "\x7b") then let _ ← readSimple r (-1) .plain
      match middle with
      | some s => asExpr s
      | none => pure ()
    else match first with
      | some s => asExpr s
      | none => pure ()

/-- A statement. -/
def stmtRule (r : Rules) (lev : Int) : Reader Unit := do
  let simple : Reader Unit := do
    match ← readSimple r lev .labels with
    | .labelled => pure ()
    | _ => let _ ← endOfLine
  match ← tok with
  | .word "const" | .word "type" | .word "var" => let _ ← readGeneral r lev
  | .ident _ | .lit _ _ | .word "func" | .word "struct" | .word "map" | .word "chan"
  | .word "interface" => simple
  | .word "go" | .word "defer" => readCallStmt r lev
  | .word "return" =>
    next
    match ← tok with
    | .semi _ => pure ()
    | .sym "\x7d" => pure ()
    | _ => let _ ← readExprs r lev
    let _ ← endOfLine
  | .word "goto" =>
    next
    let _ ← ident
    let _ ← endOfLine
  | .word "break" | .word "continue" =>
    next
    if ← atIdent then next
    let _ ← endOfLine
  | .word "fallthrough" =>
    next
    let _ ← endOfLine
  | .word "if" => r .cond lev
  | .word "switch" => readSwitch r lev
  | .word "select" =>
    next
    readClauses r lev (inScope (readComm r lev))
  | .word "for" =>
    next
    inScope do
      readLoopHeader r
      readBlock r lev
    let _ ← endOfLine
  | .semi _ => next
  | .sym "\x7b" =>
    readBlock r lev
    let _ ← endOfLine
  | .sym "\x7d" => pure ()
  | .sym s =>
    if ["(", "[", "+", "-", "*", "&", "^", "<-", "!"].contains s then simple else refuse
  | _ => refuse

/-! ## 8. Tying the knot -/

/-- The rules over the rules they call. -/
def rulesStep (r : Rules) : Rules
  | .type, lev => typeRule r lev
  | .unary, lev => unaryRule r lev
  | .binary prec, lev => do
    let x ← r .unary lev
    readBinaryFrom r lev prec x
  | .elements, lev => elementsRule r lev
  | .stmt, lev => stmtRule r lev
  | .cond, lev => condRule r lev

/-- The rules for phrases nested at most `depth` deep. -/
def rulesAt : (depth : Nat) → Rules
  | 0, _, _ => refuse
  | n + 1, p, lev => rulesStep (fun q l => rulesAt n q l) p lev

/-! ## 9. Files -/

/-- A function or method. -/
def readFunc (r : Rules) : Reader FuncDecl := do
  let i ← item
  word "func"
  let f ← inScope do
    let receiver ← if ← atSym "(" then some <$> readParams r 0 true else pure none
    let n ← ident
    let tps ← readTypeParams r 0
    let ps ← readParams r 0 true
    let rs ← readResults r 0
    pure (⟨i.lead, receiver, n, .mk tps ps rs⟩ : FuncDecl)
  match ← tok with
  | .sym "\x7b" =>
    readBlock r 0
    let _ ← endOfLine
  | .semi _ =>
    next
    if ← atSym "\x7b" then refuse
  | _ =>
    let _ ← endOfLine
  pure f

/-- The declarations of a file up to its end; imports come first. -/
def readDecls (r : Rules) : Reader (List Decl) := do
  let (ds, _) ← repeated (([], true) : List Decl × Bool) fun (acc, imports) => do
    match ← tok with
    | .eof => pure ((acc, imports), false)
    | .word "import" =>
      if !imports then refuse
      let d ← readGeneral r 0
      pure ((acc ++ [d], true), true)
    | .word "func" =>
      let f ← readFunc r
      pure ((acc ++ [.func f], false), true)
    | _ =>
      let d ← readGeneral r 0
      pure ((acc ++ [d], false), true)
  pure ds

/-- How deep scopes may nest in a declaration. -/
def maxScopes : Nat := 999

/-- The package clause and the declarations of a file, with the position of the clause. -/
def readFile (r : Rules) : Reader (Pos × String × List Decl) := do
  let p ← pos
  word "package"
  let n ← ident
  let _ ← endOfLine
  let ds ← readDecls r
  if (← get).nesting ≤ maxScopes then pure (p, n.text, ds) else refuse

/-- The number of lines of a text; a newline at its end starts none. -/
def lineCount : List Char → Nat
  | c :: d :: cs => lineCount (d :: cs) + if c == '\n' then 1 else 0
  | _ => 1

/-- **Parses a file**: `none` if its text is no source file. -/
def File.parse? (path text : String) : Option File := do
  let xs ← lex text
  let marks ← marksOf path text.utf8ByteSize xs
  let items := attach xs
  let ((p, package, decls), _) ← readFile (rulesAt (4 * items.length + 8)) |>.run ⟨items, 0⟩
  some ⟨path, package, isGenerated p.offset (commentsOf xs), decls, marks,
    lineCount text.toList⟩

end DocAudit.Source
