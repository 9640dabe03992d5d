import DocAudit.Command.Catalog

/-!
# Suggestions while a command line is typed

A shell asks what the word being typed may become, given the words before it.  The answer is a list
of words with a line about each, and whether names of files may come in their place.

* `suggest` is the answer to a request.
* While the value of a flag is typed there is nothing to suggest but files.  A word that starts with
  a dash becomes a flag that has not been given yet; any other word becomes the name of a command, as
  long as there is no operand before it.
-/

namespace DocAudit.Command

open DocAudit.Text

/-! ## 1. Answers -/

/-- A word that may be typed, and what it stands for. -/
structure Suggestion where
  word : String
  about : String
deriving Repr, DecidableEq, Inhabited

/-- What may be typed; `files` tells whether that may also be the name of a file. -/
structure Advice where
  suggestions : List Suggestion
  files : Bool
deriving Repr, DecidableEq, Inhabited

/-- Nothing to suggest but files. -/
def Advice.none : Advice := ⟨[], true⟩

/-- The number by which a shell knows whether files may be suggested. -/
def Advice.code (a : Advice) : Nat := if a.files then 0 else 4

/-- The name of that number. -/
def Advice.codeName (a : Advice) : String :=
  if a.files then "ShellCompDirectiveDefault" else "ShellCompDirectiveNoFileComp"

/-- An answer as a shell reads it: a suggestion a line, and the number. -/
def Advice.text (a : Advice) (described : Bool) : String :=
  let line (s : Suggestion) : String := if described then s.word ++ "\t" ++ s.about else s.word
  join "" (a.suggestions.map fun s => line s ++ "\n") ++ ":" ++ toString a.code ++ "\n"

/-! ## 2. What is being typed -/

/-- The flag that is named by a letter or by its long name. -/
def flagNamed? (flags : List Flag) : List Char → Option Flag
  | [c] => byLetter? flags c
  | name => byName? flags (String.ofList name)

/-- The name in an argument that is a flag: all behind two dashes, or the last letter behind one. -/
def flagName : List Char → List Char
  | '-' :: '-' :: name => name
  | letters => letters.getLast?.toList

/-- What the last word of a command line is. -/
inductive Typed where
  /-- The value of a flag. -/
  | value (text : String)
  /-- A word that is no value. -/
  | word (text : String)
  /-- The value of a flag that the command does not have. -/
  | unknown (text : String)

/-- What a word is by the argument before it, with the arguments that are complete; `whole` is the
word as it was typed. -/
def typedAfter (flags : List Flag) (args : List String) (word whole : String) :
    Typed × List String :=
  match args.getLast?.map String.toList with
  | some ('-' :: c :: cs) =>
    if ('-' :: c :: cs) == ['-', '-'] || cs.contains '=' || c == '=' then (.word word, args)
    else
      match flagNamed? flags (flagName ('-' :: c :: cs)) with
      | .none => (.unknown whole, args)
      | some f => if f.alone?.isSome then (.word word, args) else (.value word, args.dropLast)
  | _ => (.word word, args)

/-- What the last word of a command line is, with the arguments before it that are complete. -/
def typed (flags : List Flag) (args : List String) (word : String) : Typed × List String :=
  if !hasStart word "-" then typedAfter flags args word word
  else match cutFirst ['='] word.toList with
    | .none => (.word word, args)
    | some (head, value) =>
      match flagName head with
      | [] => typedAfter flags args (String.ofList value) word
      | name =>
        if (flagNamed? flags name).isSome then (.value (String.ofList value), args)
        else (.unknown word, args)

/-! ## 3. Suggesting -/

/-- The suggestions for a flag. -/
def flagSuggestions (start : String) (f : Flag) : List Suggestion :=
  let words := ("--" ++ f.name) :: (f.letter.map fun c => "-" ++ String.ofList [c]).toList
  (words.filter (hasStart · start)).map fun w => ⟨w, f.usage⟩

/-- The flags that may still be given: those shared with other commands come first. -/
def suggestFlags (r : Route Action) (p : Parsed) (start : String) : Advice :=
  let free (f : Flag) : Bool := !p.given.any (·.1 == f.name)
  let flags := sortFlags (sharedFlags r) ++ sortFlags (ownFlags r)
  ⟨(flags.filter free).flatMap (flagSuggestions start), false⟩

/-- The commands below a command whose names start with a word. -/
def suggestCommands (c : Tree Action) (start : String) : List Suggestion :=
  let sorted := c.children.mergeSort fun a b => decide (a.info.name ≤ b.info.name)
  (sorted.filter fun d => hasStart d.info.name start).map fun d => ⟨d.info.name, d.info.short⟩

/-- The suggestions for an operand behind others; with `nested` also the commands below. -/
def suggestOperands (r : Route Action) (operands : List String) (nested : Bool) (start : String) :
    Advice :=
  let c := r.command
  let below := if nested && operands.isEmpty then c.children else []
  let names := if below.isEmpty then [] else suggestCommands c start
  match c.info.operands with
  | .files => ⟨names, below.isEmpty⟩
  | .nothing => ⟨names, false⟩
  | .commands =>
    match find operands with
    | .ok (topic, _) => ⟨names ++ suggestCommands topic.command start, false⟩
    | .error _ => ⟨names, false⟩

/-- The suggestions for a word behind the arguments of a command. -/
def suggestFor (r : Route Action) (args : List String) (word : String) : Advice :=
  let flags := ownFlags r ++ sharedFlags r
  let (typed, args) := typed flags args word
  match parse flags args with
  | .error _ => .none
  | .ok p =>
    -- Behind `--` there are operands only, and one more `--` would be one of them.
    let stopped := match parse flags (args ++ ["--"]) with
      | .ok q => decide (q.operands.length > p.operands.length)
      | .error _ => false
    let asks := p.given.any fun g => g.1 == "help" || g.1 == "version"
    match typed with
    | .value text =>
      if asks then ⟨[], false⟩
      else if stopped then suggestOperands r p.operands false text
      else .none
    | .unknown text =>
      if !stopped then .none
      else if asks then ⟨[], false⟩
      else suggestOperands r p.operands true text
    | .word text =>
      if asks then ⟨[], false⟩
      else if !stopped && hasStart text "-" && !text.toList.contains '=' then
        suggestFlags r p text
      else suggestOperands r p.operands true text

/-- **What the last of some words may become**, given those before it. -/
def suggest (before : List String) (word : String) : Advice :=
  match find before with
  | .ok (r, args) => suggestFor r args word
  | .error _ => .none

/-! ## 4. Requests -/

/-- The names of the requests, with whether the answer describes its words. -/
def requests : List (String × Bool) := [("__complete", true), ("__completeNoDesc", false)]

/-- The request that some arguments make, and the words that it is about. -/
def request? (args : List String) : Option (Bool × List String) := do
  let (name, rest) ← firstOperand? (program.info.flags ++ globalFlags) args
  return (← requests.lookup name, rest)

end DocAudit.Command
