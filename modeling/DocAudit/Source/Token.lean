import DocAudit.Source.Position
import DocAudit.Text.Category
import DocAudit.Text.CharTable

/-!
# Tokens of a source file

`lex` cuts the text of a Go source file into tokens.  It refuses the whole file where the language
has no token: an unfinished comment or literal, a malformed number, a stray character.

* A semicolon is inserted at the end of a line whose last token can end a statement
  (`Tok.endsStatement`).  A comment that runs over a line end counts as that line end.
* Comments are tokens too; `Comment.lean` moves them to the tokens they belong to.
-/

namespace DocAudit.Source

open DocAudit.Text

/-! ## 1. Identifiers -/

/-- A character that starts an identifier. -/
def isNameStart (c : Char) : Bool := c == '_' || isLetter c

/-- A character that continues an identifier. -/
def isNamePart (c : Char) : Bool := isNameStart c || isDecimalDigit c

/-- Whether a text is an identifier. -/
def isIdentText : List Char → Bool
  | [] => false
  | c :: cs => isNameStart c && cs.all isNamePart

/-- An identifier: a text of which the first character starts one and the others continue it. -/
structure Ident where
  text : String
  valid : isIdentText text.toList = true
deriving Repr, DecidableEq

instance : Inhabited Ident := ⟨"_", by decide⟩

/-- The identifier that starts with `c` and goes on at the start of `r`. -/
def Ident.scan (c : Char) (r : List Char) (h : isNameStart c = true) : Ident where
  text := String.ofList (c :: r.takeWhile isNamePart)
  valid := by simp [isIdentText, h]

/-! ## 2. Tokens -/

/-- The kinds of basic literals. -/
inductive LitKind where
  | int
  | float
  | imaginary
  | char
  | string
deriving Repr, DecidableEq, Inhabited

/-- A token. -/
inductive Tok where
  /-- An identifier. -/
  | ident (name : Ident)
  /-- A keyword. -/
  | word (text : String)
  /-- A basic literal, as written. -/
  | lit (kind : LitKind) (text : String)
  /-- An operator or bracket. -/
  | sym (text : String)
  /-- A semicolon, written in the text or inserted at the end of a line. -/
  | semi (written : Bool)
  /-- A comment, as written. -/
  | comment (text : String)
  /-- The end of the file. -/
  | eof
deriving Repr, DecidableEq, Inhabited

/-- A token and where it starts. -/
structure Lexeme where
  tok : Tok
  pos : Pos
deriving Repr, DecidableEq, Inhabited

/-- The keywords. -/
def keywords : List String :=
  ["break", "case", "chan", "const", "continue", "default", "defer", "else", "fallthrough", "for",
    "func", "go", "goto", "if", "import", "interface", "map", "package", "range", "return",
    "select", "struct", "switch", "type", "var"]

/-- The operators and brackets, longer ones before their beginnings. -/
def symbols : List String :=
  ["<<=", ">>=", "&^=", "...", "&&", "||", "<-", "++", "--", "==", "!=", "<=", ">=", ":=", "+=",
    "-=", "*=", "/=", "%=", "&=", "|=", "^=", "<<", ">>", "&^", "+", "-", "*", "/", "%", "&", "|",
    "^", "<", ">", "=", "!", "(", ")", "[", "]", "\x7b", "\x7d", ",", ".", ":", "~"]

/-- Whether a line end after this token ends a statement. -/
def Tok.endsStatement : Tok → Bool
  | .ident _ => true
  | .lit _ _ => true
  | .word w => ["break", "continue", "fallthrough", "return"].contains w
  | .sym s => [")", "]", "\x7d", "++", "--"].contains s
  | _ => false

/-! ## 3. Numbers -/

/-- The radix a number is written in. -/
inductive Radix where
  /-- No leading zero. -/
  | plain
  /-- A lone leading zero. -/
  | zero
  | hex
  | octal
  | binary
deriving Repr, DecidableEq

/-- The radix mark at the start of a number, and what follows it. -/
def radixOf : List Char → Radix × List Char × List Char
  | '0' :: x :: r =>
    if x == 'x' || x == 'X' then (.hex, ['0', x], r)
    else if x == 'o' || x == 'O' then (.octal, ['0', x], r)
    else if x == 'b' || x == 'B' then (.binary, ['0', x], r)
    else (.zero, ['0'], x :: r)
  | '0' :: [] => (.zero, ['0'], [])
  | cs => (.plain, [], cs)

/-- A digit of any radix, or the separator. -/
def isDigitPart (hex : Bool) (c : Char) : Bool :=
  c == '_' || if hex then (hexDigit? c).isSome else c.isDigit

/-- Whether every separator in the digits of a number stands between two digits.  `prev` says what
came before: a digit, a separator or anything else. -/
def separatorsOk (hex : Bool) : (prev : Char) → List Char → Bool
  | prev, [] => prev != '_'
  | prev, c :: cs =>
    if c == '_' then prev == '0' && separatorsOk hex '_' cs
    else if c.isDigit || (hex && (hexDigit? c).isSome) then separatorsOk hex '0' cs
    else prev != '_' && separatorsOk hex '.' cs

/-- The exponent of a number: nothing, or its mark, sign and digits; `none` if it is malformed. -/
def scanExponent (radix : Radix) (isFloat : Bool) (r : List Char) :
    Option (List Char × List Char) :=
  match r with
  | e :: r' =>
    if e == 'e' || e == 'E' || e == 'p' || e == 'P' then
      let isP := e == 'p' || e == 'P'
      let fits := if isP then radix == .hex else radix == .plain || radix == .zero
      let (sign, r'') := match r' with
        | s :: t => if s == '+' || s == '-' then ([s], t) else ([], r')
        | [] => ([], [])
      let (ds, rest) := r''.span (isDigitPart false)
      if fits && ds.any Char.isDigit then some (e :: sign ++ ds, rest) else none
    else if radix == .hex && isFloat then none else some ([], r)
  | [] => if radix == .hex && isFloat then none else some ([], [])

/-- A number: its kind, its text and what follows. -/
def scanNumber (cs : List Char) : Option (LitKind × List Char × List Char) := do
  let (radix, mark, r₀) := radixOf cs
  let (whole, r₁) := r₀.span (isDigitPart (radix == Radix.hex))
  let (frac, r₂) := match r₁ with
    | '.' :: t => let (f, u) := t.span (isDigitPart (radix == Radix.hex)); ('.' :: f, u)
    | _ => ([], r₁)
  let isFloat := !frac.isEmpty
  if isFloat && (radix == Radix.octal || radix == Radix.binary) then none
  let digit := fun c => c != '_' && c != '.'
  if !(radix == Radix.zero || whole.any digit || frac.any digit) then none
  let (expo, r₃) ← scanExponent radix isFloat r₂
  let (imag, r₄) := match r₃ with
    | 'i' :: t => (['i'], t)
    | _ => ([], r₃)
  let kind := if !imag.isEmpty then LitKind.imaginary
    else if isFloat || !expo.isEmpty then .float else .int
  let below := match radix with
    | .binary => '2'
    | .zero | .octal => '8'
    | _ => ':'
  let tooLarge (c : Char) : Bool := c != '_' && !decide (c < below)
  if kind == LitKind.int && radix != Radix.hex && whole.any tooLarge then none
  let body := whole ++ frac ++ expo ++ imag
  let text := mark ++ body
  let start := if radix == Radix.plain || radix == Radix.zero then '.' else '0'
  if !separatorsOk (radix == Radix.hex) start (if start == '0' then body else text) then none
  some (kind, text, r₄)

/-! ## 4. Characters and strings -/

/-- Where a scan of a quoted literal stands. -/
inductive QuoteState where
  /-- Between characters. -/
  | plain
  /-- After a backslash. -/
  | escape
  /-- Inside a numeric escape: digits left, radix, largest value, value so far. -/
  | digits (left radix most value : Nat)

/-- The rest of a quoted literal after its opening quote: the characters it holds, how many they
are, and what follows; `none` if it is malformed. -/
def scanQuoted (quote : Char) : QuoteState → List Char → Option (List Char × Nat × List Char)
  | _, [] => none
  | .plain, c :: cs =>
    if c == quote then some ([c], 0, cs)
    else if c == '\n' then none
    else do
      let (t, n, r) ← scanQuoted quote (if c == '\\' then .escape else .plain) cs
      some (c :: t, n + 1, r)
  | .escape, c :: cs => do
    let next ←
      if c == quote || ['a', 'b', 'f', 'n', 'r', 't', 'v', '\\'].contains c then
        some QuoteState.plain
      else if c == 'x' then some (.digits 2 16 255 0)
      else if c == 'u' then some (.digits 4 16 0x10FFFF 0)
      else if c == 'U' then some (.digits 8 16 0x10FFFF 0)
      else match hexDigit? c with
        | some d => if d < 8 then some (.digits 2 8 255 d) else none
        | none => none
    let (t, n, r) ← scanQuoted quote next cs
    some (c :: t, n, r)
  | .digits left radix most value, c :: cs => do
    let d ← hexDigit? c
    if d ≥ radix then none
    let v := value * radix + d
    if left ≤ 1 && (v > most || (0xD800 ≤ v && v < 0xE000)) then none
    let next := if left ≤ 1 then .plain else .digits (left - 1) radix most v
    let (t, n, r) ← scanQuoted quote next cs
    some (c :: t, n, r)

/-- The text up to and with a raw literal's closing quote, and what follows. -/
def scanRaw : List Char → Option (List Char × List Char)
  | [] => none
  | c :: cs =>
    if c == '\x60' then some ([c], cs)
    else (scanRaw cs).map fun (t, r) => (c :: t, r)

/-! ## 5. Comments -/

/-- The text up to and with the end of a block comment, and what follows. -/
def scanBlock : List Char → Option (List Char × List Char)
  | [] => none
  | c :: cs =>
    match c, cs with
    | '*', '/' :: r => some (['*', '/'], r)
    | _, _ => (scanBlock cs).map fun (t, r) => (c :: t, r)

/-! ## 6. The lexer -/

/-- The first operator or bracket of `syms` that a text starts with. -/
def scanSymbol (cs : List Char) : List String → Option (String × List Char)
  | [] => none
  | s :: rest =>
    match dropStart? s.toList cs with
    | some r => some (s, r)
    | none => scanSymbol cs rest

/-- The token at the start of a text that does not start with white space: the token, the text it
takes and what follows. -/
def scanToken : List Char → Option (Tok × List Char × List Char)
  | [] => none
  | '/' :: '/' :: r =>
    let (t, r') := r.span (· != '\n')
    some (.comment (String.ofList ('/' :: '/' :: t)), '/' :: '/' :: t, r')
  | '/' :: '*' :: r => do
    let (t, r') ← scanBlock r
    some (.comment (String.ofList ('/' :: '*' :: t)), '/' :: '*' :: t, r')
  | '"' :: r => do
    let (t, _, r') ← scanQuoted '"' .plain r
    some (.lit .string (String.ofList ('"' :: t)), '"' :: t, r')
  | '\'' :: r => do
    let (t, n, r') ← scanQuoted '\'' .plain r
    if n == 1 then some (.lit .char (String.ofList ('\'' :: t)), '\'' :: t, r') else none
  | '\x60' :: r => do
    let (t, r') ← scanRaw r
    let text := '\x60' :: t
    some (.lit .string (String.ofList (text.filter (· != '\r'))), text, r')
  | ';' :: r => some (.semi true, [';'], r)
  | c :: r =>
    if h : isNameStart c then
      let name := Ident.scan c r h
      some (if keywords.contains name.text then .word name.text else .ident name,
        c :: r.takeWhile isNamePart, r.dropWhile isNamePart)
    else if c.isDigit || (c == '.' && (r.head?.map Char.isDigit).getD false) then do
      let (k, t, r') ← scanNumber (c :: r)
      some (.lit k (String.ofList t), t, r')
    else do
      let (s, r') ← scanSymbol (c :: r) symbols
      some (.sym s, s.toList, r')

/-- White space between tokens; a line end counts only where it ends no statement. -/
def isGap (ending : Bool) (c : Char) : Bool :=
  c == ' ' || c == '\t' || c == '\r' || (c == '\n' && !ending)

/-- The tokens of a text from a position on, `ending` telling whether the previous token can end a
statement. -/
def lexFrom (ending : Bool) (pos : Pos) (cs : List Char) : Option (List Lexeme) :=
  match cs with
  | [] => some (if ending then [⟨.semi false, pos⟩, ⟨.eof, pos⟩] else [⟨.eof, pos⟩])
  | c :: rest =>
    if isGap ending c then lexFrom ending (pos.step c) rest
    else if c == '\n' then do
      let more ← lexFrom false (pos.step c) rest
      some (⟨.semi false, pos⟩ :: more)
    else
      match scanToken (c :: rest) with
      | none => none
      | some (tok, taken, rest') =>
        if _h : rest'.length < (c :: rest).length then
          match tok with
          | .comment _ =>
            if ending && taken.contains '\n' then do
              let more ← lexFrom false (pos.after taken) rest'
              let nl := pos.after (taken.takeWhile (· != '\n'))
              some (⟨tok, pos⟩ :: ⟨.semi false, nl⟩ :: more)
            else do
              let more ← lexFrom ending (pos.after taken) rest'
              some (⟨tok, pos⟩ :: more)
          | _ => do
            let more ← lexFrom tok.endsStatement (pos.after taken) rest'
            some (⟨tok, pos⟩ :: more)
        else none
termination_by cs.length
decreasing_by all_goals simp_all

/-- The tokens of a file.  A byte order mark may stand first and nowhere else, and a zero
character nowhere. -/
def lex (text : String) : Option (List Lexeme) :=
  let bom := Char.ofNat 0xFEFF
  let (pos, body) := match text.toList with
    | c :: cs => if c == bom then (Pos.start.step c, cs) else (Pos.start, c :: cs)
    | [] => (Pos.start, [])
  if body.any (fun c => c == bom || c == '\x00') then none else lexFrom false pos body

end DocAudit.Source
