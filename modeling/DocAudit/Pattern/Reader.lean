import DocAudit.Pattern.Regex

/-!
# Reading regular expressions

`Regex.parse` reads the text of an expression from left to right, one construct at a time.  What is
read so far is a stack of frames, one for each open group: a frame holds the finished branches of
its group and the pieces of the branch that is being read.  Only a closing bracket looks below the
top frame.

* `ParseError` names what is wrong and the part of the text that shows it;
* `readConstruct` looks only at the text and the flags in force, and `ParseState.take` only at the
  stack;
* flags set inside a group end with the group, because a frame keeps the flags from before it.
-/

namespace DocAudit.Pattern

open DocAudit.Text

/-! ## 1. Errors -/

/-- What can be wrong with the text of an expression. -/
inductive ParseFault where
  | invalidRange
  | invalidEscape
  | invalidNamedCapture
  | invalidGroup
  | nestedRepeat
  | invalidRepeatCount
  | missingBracket
  | missingParen
  | missingRepeatArgument
  | trailingBackslash
  | unexpectedParen
  | tooDeep
  | tooLarge
deriving Repr, DecidableEq, Inhabited

/-- The words for a fault. -/
def ParseFault.words : ParseFault → String
  | .invalidRange => "invalid character class range"
  | .invalidEscape => "invalid escape sequence"
  | .invalidNamedCapture => "invalid named capture"
  | .invalidGroup => "invalid or unsupported Perl syntax"
  | .nestedRepeat => "invalid nested repetition operator"
  | .invalidRepeatCount => "invalid repeat count"
  | .missingBracket => "missing closing ]"
  | .missingParen => "missing closing )"
  | .missingRepeatArgument => "missing argument to repetition operator"
  | .trailingBackslash => "trailing backslash at end of expression"
  | .unexpectedParen => "unexpected )"
  | .tooDeep => "expression nests too deeply"
  | .tooLarge => "expression too large"

/-- A fault and the text that shows it. -/
structure ParseError where
  fault : ParseFault
  text : String
deriving Repr, DecidableEq, Inhabited

/-- The message of an error. -/
def ParseError.message (e : ParseError) : String :=
  "error parsing regexp: " ++ e.fault.words ++ ": `" ++ e.text ++ "`"

/-- The result of reading a part of an expression. -/
abbrev Parsed (α : Type) := Except ParseError α

/-- An error shown by the part of `s` before its ending `t`. -/
def failAt {α : Type} (fault : ParseFault) (s t : List Char) : Parsed α :=
  .error ⟨fault, String.ofList (s.take (s.length - t.length))⟩

/-! ## 2. Flags and frames -/

/-- The flags in force. -/
structure Flags where
  /-- Letters match without regard to case. -/
  fold : Bool
  /-- Line anchors hold at every line. -/
  lines : Bool
  /-- The dot matches a newline. -/
  dotAll : Bool
deriving Repr, DecidableEq, Inhabited

/-- An open group: its finished branches, the pieces of the current branch in reverse, the flags
from before it, and whether it is counted. -/
structure Frame where
  branches : List Regex
  pieces : List Regex
  saved : Flags
  counted : Bool

/-- What has been read: the flags in force, the innermost open group, the groups around it, and
the text from the repetition operator that ended just here, if one did. -/
structure ParseState where
  flags : Flags
  top : Frame
  outer : List Frame
  lastRepeat : Option (List Char)

/-- A frame without contents. -/
def Frame.fresh (saved : Flags) (counted : Bool) : Frame := ⟨[], [], saved, counted⟩

/-- The start of an expression. -/
def ParseState.start : ParseState :=
  ⟨⟨false, false, false⟩, Frame.fresh ⟨false, false, false⟩ false, [], none⟩

/-- Pieces in reverse, as one sequence. -/
def sequence : List Regex → Regex
  | [] => .empty
  | r :: rs => rs.foldl (fun acc p => .seq p acc) r

/-- Branches as one choice, the last of them given apart. -/
def choice (branches : List Regex) (last : Regex) : Regex := branches.foldr .alt last

/-- The expression that a frame holds. -/
def Frame.body (f : Frame) : Regex := choice f.branches (sequence f.pieces)

/-- The expression that a frame becomes when its group is closed. -/
def Frame.regex (f : Frame) : Regex := if f.counted then .group f.body else f.body

/-- One more piece in the current branch. -/
def ParseState.push (st : ParseState) (r : Regex) : ParseState :=
  { st with top := { st.top with pieces := r :: st.top.pieces } }

/-- How deep an expression may nest. -/
def maxHeight : Nat := 1000

/-- How many instructions an expression may take. -/
def maxCost : Nat := 3355443

/-- An expression that keeps the limits, or the error that it does not. -/
def withinLimits (whole : List Char) (r : Regex) : Parsed Regex :=
  if r.cost > maxCost then .error ⟨.tooLarge, String.ofList whole⟩
  else if r.height > maxHeight then .error ⟨.tooDeep, String.ofList whole⟩
  else .ok r

/-! ## 3. Escapes -/

/-- The digits of an escape in braces: the value read so far and the number of digits. -/
def readHexBraces : (value count : Nat) → List Char → Except (List Char) (Nat × List Char)
  | _, _, [] => .error []
  | v, n, c :: t =>
    if c == '}' then (if n == 0 then .error t else .ok (v, t))
    else match hexDigit? c with
      | none => .error t
      | some d => if v * 16 + d > 0x10FFFF then .error t else readHexBraces (v * 16 + d) (n + 1) t

/-- An octal digit. -/
def octal? (c : Char) : Option Nat := (hexDigit? c).bind fun d => if d < 8 then some d else none

/-- Up to `left` more octal digits. -/
def readOctal : (left : Nat) → (value : Nat) → List Char → Nat × List Char
  | 0, v, t => (v, t)
  | _ + 1, v, [] => (v, [])
  | n + 1, v, c :: t =>
    match octal? c with
    | some d => readOctal n (v * 8 + d) t
    | none => (v, c :: t)

/-- The character that an escape stands for; `s` starts with the backslash. -/
def readEscape (s : List Char) : Parsed (Nat × List Char) :=
  match s with
  | [] => .error ⟨.trailingBackslash, ""⟩
  | _ :: [] => .error ⟨.trailingBackslash, ""⟩
  | _ :: c :: t =>
    let bad (rest : List Char) : Parsed (Nat × List Char) := failAt .invalidEscape s rest
    if c == '0' then .ok (readOctal 2 0 t)
    else if '1' ≤ c && c ≤ '7' then
      match t.head?.bind octal?, octal? c with
      | some _, some d => .ok (readOctal 2 d t)
      | _, _ => bad t
    else if c == 'x' then
      match t with
      | [] => bad []
      | '{' :: t' =>
        match readHexBraces 0 0 t' with
        | .ok r => .ok r
        | .error rest => bad rest
      | h :: t' =>
        match t' with
        | [] => bad []
        | l :: t'' =>
          match hexDigit? h, hexDigit? l with
          | some a, some b => .ok (a * 16 + b, t'')
          | _, _ => bad t''
    else if c == 'a' then .ok (7, t)
    else if c == 'f' then .ok (12, t)
    else if c == 'n' then .ok (10, t)
    else if c == 'r' then .ok (13, t)
    else if c == 't' then .ok (9, t)
    else if c == 'v' then .ok (11, t)
    else if c.toNat < 128 && !c.isAlphanum then .ok (c.toNat, t)
    else bad t

/-- The class that a property name stands for, with a leading `^` for all else; `shown` is the text
that shows an error. -/
def namedProperty (negated : Bool) (shown name : List Char) : Parsed NamedSet :=
  let (inverted, plain) := match name with
    | '^' :: n => (true, n)
    | n => (false, n)
  match propertySet? (String.ofList plain) with
  | none => .error ⟨.invalidRange, String.ofList shown⟩
  | some set => .ok (if negated != inverted then set.compl else set)

/-- A property class; `s` starts with the backslash and the letter. -/
def readProperty (s : List Char) : Parsed (NamedSet × List Char) :=
  match s with
  | _ :: p :: '{' :: t =>
    match cutFirst ['}'] t with
    | none => .error ⟨.invalidRange, String.ofList s⟩
    | some (name, rest) =>
      (namedProperty (p == 'P') (s.take (s.length - rest.length)) name).map (·, rest)
  | _ :: p :: c :: rest => (namedProperty (p == 'P') (s.take 3) [c]).map (·, rest)
  | _ => .error ⟨.invalidRange, String.ofList s⟩

/-! ## 4. Classes -/

/-- A character of a class; `whole` is the text from the opening bracket on. -/
def readClassChar (whole : List Char) (s : List Char) : Parsed (Nat × List Char) :=
  match s with
  | [] => .error ⟨.missingBracket, String.ofList whole⟩
  | '\\' :: _ => readEscape s
  | c :: t => .ok (c.toNat, t)

/-- A class written between `[:` and `:]`, if there is one. -/
def readBracketSet (s : List Char) : Parsed (Option (NamedSet × List Char)) :=
  match s with
  | '[' :: ':' :: t =>
    match cutFirst [':', ']'] t with
    | none => .ok none
    | some (name, rest) =>
      let (inverted, plain) := match name with
        | '^' :: n => (true, n)
        | n => (false, n)
      match bracketSets.find? fun p => p.1.toList == plain with
      | none => failAt .invalidRange s rest
      | some (_, set) => .ok (some (if inverted then set.compl else set, rest))
  | _ => .ok none

/-- One item of a class. -/
def readClassItem (whole s : List Char) : Parsed (ClassItem × List Char) := do
  match ← readBracketSet s with
  | some (set, t) => return (.named set, t)
  | none =>
    match s with
    | '\\' :: c :: t =>
      if c == 'p' || c == 'P' then
        let (set, t') ← readProperty s
        return (.named set, t')
      match letterSet? c with
      | some set => return (.named set, t)
      | none => range
    | _ => range
where
  /-- A single character or a range of them. -/
  range : Parsed (ClassItem × List Char) := do
    let (lo, t) ← readClassChar whole s
    match t with
    | '-' :: d :: t' =>
      if d == ']' then return (.range lo lo, t)
      let (hi, t'') ← readClassChar whole (d :: t')
      if hi < lo then failAt .invalidRange s t'' else return (.range lo hi, t'')
    | _ => return (.range lo lo, t)

/-- The items of a class up to its closing bracket, which may also stand first as itself. -/
def readClassItems (whole : List Char) (first : Bool) (items : List ClassItem) (s : List Char) :
    Parsed (List ClassItem × List Char) :=
  if !first && s.head? == some ']' then .ok (items.reverse, s.drop 1)
  else
    match readClassItem whole s with
    | .error e => .error e
    | .ok (item, t) =>
      if _h : t.length < s.length then readClassItems whole false (item :: items) t
      else .error ⟨.missingBracket, String.ofList whole⟩
termination_by s.length

/-- A class; `s` starts with the opening bracket. -/
def readClass (fold : Bool) (s : List Char) : Parsed (CharClass × List Char) := do
  let body := s.drop 1
  let (negated, body) := match body with
    | '^' :: t => (true, t)
    | t => (false, t)
  let (items, rest) ← readClassItems s true [] body
  return (⟨negated, fold, items⟩, rest)

/-! ## 5. Groups -/

/-- What a part of the text does to what has been read before it. -/
inductive Construct where
  /-- More pieces of the current branch, in their order. -/
  | pieces (rs : List Regex)
  /-- Other flags for the rest of the group. -/
  | flags (new : Flags)
  /-- The start of a group, counted or not, with the flags inside it. -/
  | opening (counted : Bool) (inner : Flags)
  /-- The end of a branch. -/
  | bar
  /-- The end of a group. -/
  | closing
  /-- A repetition of the last piece. -/
  | repetition (op : Regex → Regex)

/-- Whether a name may name a group. -/
def isGroupName (n : List Char) : Bool := !n.isEmpty && n.all fun c => c == '_' || c.isAlphanum

/-- The flags of a group after its opening mark; `s` starts with the bracket. -/
def readFlags (s : List Char) :
    (flags : Flags) → (minus sawFlag : Bool) → List Char → Parsed (Construct × List Char)
  | _, _, _, [] => failAt .invalidGroup s []
  | flags, minus, sawFlag, c :: t =>
    if c == 'i' then readFlags s { flags with fold := !minus } minus true t
    else if c == 'm' then readFlags s { flags with lines := !minus } minus true t
    else if c == 's' then readFlags s { flags with dotAll := !minus } minus true t
    else if c == 'U' then readFlags s flags minus true t
    else if c == '-' && !minus then readFlags s flags true false t
    else if (c == ':' || c == ')') && (!minus || sawFlag) then
      .ok (if c == ':' then .opening false flags else .flags flags, t)
    else failAt .invalidGroup s t

/-- How long the mark of a named group is from its bracket on, if `t`, the text behind the question
mark, goes on as one. -/
def nameMark? (t : List Char) : Option Nat :=
  match t with
  | 'P' :: '<' :: _ :: _ => some 4
  | '<' :: _ :: _ => some 3
  | _ => none

/-- A group with a name, which is counted as one without; `s` starts with the bracket. -/
def readNamedGroup (flags : Flags) (skip : Nat) (s : List Char) :
    Parsed (Construct × List Char) :=
  match cutFirst ['>'] s with
  | none => .error ⟨.invalidNamedCapture, String.ofList s⟩
  | some (mark, rest) =>
    if isGroupName (mark.drop skip) then .ok (.opening true flags, rest)
    else failAt .invalidNamedCapture s rest

/-- A group that starts with a question mark; `s` starts with the bracket. -/
def readSpecialGroup (flags : Flags) (s : List Char) : Parsed (Construct × List Char) :=
  match nameMark? (s.drop 2) with
  | some skip => readNamedGroup flags skip s
  | none => readFlags s flags false false (s.drop 2)

/-! ## 6. Repetition -/

/-- A number without leading zeros: its value, or none if it is past all limits. -/
def readCount (s : List Char) : Option (Option Nat × List Char) :=
  let (ds, rest) := s.span Char.isDigit
  match ds with
  | [] => none
  | '0' :: _ :: _ => none
  | _ =>
    let n := ds.foldl (fun n c => n * 10 + (c.toNat - '0'.toNat)) 0
    some (if n < 1000000000 then some n else none, rest)

/-- The counts between braces: least and most, absent where past all limits or open, with a flag
that tells whether the most is open. -/
def readCounts (s : List Char) : Option (Option Nat × Option Nat × Bool × List Char) := do
  let (min, t) ← readCount s
  match t with
  | '}' :: rest => some (min, min, false, rest)
  | ',' :: '}' :: rest => some (min, none, true, rest)
  | ',' :: t' =>
    let (max, t'') ← readCount t'
    match t'' with
    | '}' :: rest => some (min, max, false, rest)
    | _ => none
  | _ => none

/-- A repetition operator; a question mark behind it only changes which match is preferred. -/
def repetition (op : Regex → Regex) (after : List Char) : Construct × List Char :=
  (.repetition op, match after with
    | '?' :: t => t
    | t => t)

/-- A repetition with counts, or a brace that stands for itself; `t` starts with the brace. -/
def readBraces (fold : Bool) (t : List Char) : Parsed (Construct × List Char) :=
  match readCounts (t.drop 1) with
  | none => .ok (.pieces [.char '{'.toNat fold], t.drop 1)
  | some (some min, some max, _, after) =>
    if min > 1000 || max > 1000 || min > max then failAt .invalidRepeatCount t after
    else .ok (repetition (.rep min (some max)) after)
  | some (some min, none, true, after) =>
    if min > 1000 then failAt .invalidRepeatCount t after
    else .ok (repetition (.rep min none) after)
  | some (_, _, _, after) => failAt .invalidRepeatCount t after

/-! ## 7. The reader -/

/-- A quotation, whose characters stand for themselves, up to its end or that of the text. -/
def readQuotation (fold : Bool) (t : List Char) : Construct × List Char :=
  let (lit, after) := (cutFirst ['\\', 'E'] t).getD (t, [])
  (.pieces (lit.map fun c => .char c.toNat fold), after)

/-- What a backslash starts outside of a class; `t` starts with the backslash. -/
def readBackslash (fold : Bool) (t : List Char) : Parsed (Construct × List Char) :=
  match t with
  | _ :: c :: rest =>
    if c == 'A' then .ok (.pieces [.anchor .textStart], rest)
    else if c == 'b' then .ok (.pieces [.anchor .wordEdge], rest)
    else if c == 'B' then .ok (.pieces [.anchor .noWordEdge], rest)
    else if c == 'C' then failAt .invalidEscape t rest
    else if c == 'z' then .ok (.pieces [.anchor .textEnd], rest)
    else if c == 'Q' then .ok (readQuotation fold rest)
    else if c == 'p' || c == 'P' then do
      let (set, after) ← readProperty t
      return (.pieces [.cls ⟨false, fold, [.named set]⟩], after)
    else match letterSet? c with
      | some set => .ok (.pieces [.cls ⟨false, fold, [.named set]⟩], rest)
      | none => do
        let (code, after) ← readEscape t
        return (.pieces [.char code fold], after)
  | _ => .error ⟨.trailingBackslash, ""⟩

/-- The construct that the text `t` starts with, and what follows it. -/
def readConstruct (flags : Flags) (t : List Char) : Parsed (Construct × List Char) :=
  match t with
  | [] => .ok (.pieces [], [])
  | '(' :: '?' :: _ => readSpecialGroup flags t
  | '(' :: rest => .ok (.opening true flags, rest)
  | '|' :: rest => .ok (.bar, rest)
  | ')' :: rest => .ok (.closing, rest)
  | '^' :: rest => .ok (.pieces [.anchor (if flags.lines then .lineStart else .textStart)], rest)
  | '$' :: rest => .ok (.pieces [.anchor (if flags.lines then .lineEnd else .textEnd)], rest)
  | '.' :: rest => .ok (.pieces [.any flags.dotAll], rest)
  | '[' :: _ => do
    let (k, rest) ← readClass flags.fold t
    return (.pieces [.cls k], rest)
  | '*' :: rest => .ok (repetition .star rest)
  | '+' :: rest => .ok (repetition .plus rest)
  | '?' :: rest => .ok (repetition .opt rest)
  | '{' :: _ => readBraces flags.fold t
  | '\\' :: _ => readBackslash flags.fold t
  | c :: rest => .ok (.pieces [.char c.toNat flags.fold], rest)

/-- Closes the innermost group. -/
def ParseState.closeGroup (whole : List Char) (st : ParseState) : Parsed ParseState := do
  let _ ← withinLimits whole st.top.body
  match st.outer with
  | [] => .error ⟨.unexpectedParen, String.ofList whole⟩
  | f :: fs =>
    let r ← withinLimits whole st.top.regex
    return { st with
      flags := st.top.saved
      top := { f with pieces := r :: f.pieces }
      outer := fs }

/-- Whether a repetition with counts multiplies with those inside it to no more than is allowed. -/
def Regex.repeatable (r : Regex) : Bool :=
  match r with
  | .rep min max _ =>
    if min ≥ 2 || (max.map fun m => decide (m ≥ 2)).getD false then r.repeatsWithin 1000 else true
  | _ => true

/-- Applies a repetition operator, which the text from `before` up to `after` writes, to the last
piece. -/
def ParseState.repeatLast (whole : List Char) (st : ParseState) (op : Regex → Regex)
    (before after : List Char) : Parsed ParseState := do
  match st.lastRepeat with
  | some last => failAt .nestedRepeat last after
  | none =>
    match st.top.pieces with
    | [] => failAt .missingRepeatArgument before after
    | p :: ps =>
      let r ← withinLimits whole (op p)
      if r.repeatable then
        return { st with
          top := { st.top with pieces := r :: ps }
          lastRepeat := some before }
      else failAt .invalidRepeatCount before after

/-- The state after a construct, which the text from `before` up to `after` writes. -/
def ParseState.take (whole : List Char) (st : ParseState) (before after : List Char) :
    Construct → Parsed ParseState
  | .pieces rs => .ok (rs.foldl ParseState.push { st with lastRepeat := none })
  | .flags new => .ok { st with flags := new, lastRepeat := none }
  | .opening counted inner =>
    .ok ⟨inner, Frame.fresh st.flags counted, st.top :: st.outer, none⟩
  | .bar => do
    let r ← withinLimits whole (sequence st.top.pieces)
    return { st with
      top := { st.top with branches := st.top.branches ++ [r], pieces := [] }
      lastRepeat := none }
  | .closing => { st with lastRepeat := none }.closeGroup whole
  | .repetition op => st.repeatLast whole op before after

/-- One step: the state after the construct that `t` starts with, and what follows it. -/
def ParseState.step (whole : List Char) (st : ParseState) (t : List Char) :
    Parsed (ParseState × List Char) := do
  let (k, rest) ← readConstruct st.flags t
  return (← st.take whole t rest k, rest)

/-- Reads the rest of an expression. -/
def ParseState.run (whole : List Char) (st : ParseState) (t : List Char) : Parsed ParseState :=
  match t with
  | [] => .ok st
  | c :: cs =>
    match st.step whole (c :: cs) with
    | .error e => .error e
    | .ok (st', rest) =>
      if _h : rest.length < (c :: cs).length then st'.run whole rest
      else .error ⟨.missingParen, String.ofList whole⟩
termination_by t.length
decreasing_by assumption

/-- The expression that the whole text writes, once all of it is read. -/
def ParseState.finish (whole : List Char) (st : ParseState) : Parsed Regex := do
  let body ← withinLimits whole st.top.body
  if st.outer.isEmpty then return body
  else .error ⟨.missingParen, String.ofList whole⟩

/-- **Reads the text of a regular expression.** -/
def Regex.parse (text : String) : Parsed Regex := do
  let whole := text.toList
  let st ← ParseState.start.run whole whole
  st.finish whole

end DocAudit.Pattern
