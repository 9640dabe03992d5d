import DocAudit.Pattern.Reader
import DocAudit.Text.Quoted

/-!
# Pattern sets and filters

A pattern stands for whole texts: it is read between the marks `^(?:` and `)$`.  A set of patterns
matches what one of them matches; a filter is an include set, where the empty set includes
everything, and an exclude set that wins over it.

* `PatternSet.compile` refuses a list at its first faulty pattern and says which it is.
-/

namespace DocAudit.Pattern

open DocAudit.Text

/-! ## 1. Anchored patterns -/

/-- The text of the expression that matches a pattern against a whole text. -/
def anchored (p : String) : String := "^(?:" ++ p ++ ")$"

/-- The expression of a pattern.  The fault of the pattern itself is reported before one that shows
only in the anchored text. -/
def compileAnchored (p : String) : Parsed Regex :=
  match Regex.parse (anchored p) with
  | .ok r => .ok r
  | .error e =>
    match Regex.parse p with
    | .error own => .error own
    | .ok _ => .error e

/-- A faulty pattern: its text, its place in its list, and the fault. -/
structure PatternError where
  pattern : String
  index : Nat
  cause : ParseError
deriving Repr, DecidableEq, Inhabited

/-- The message of a faulty pattern. -/
def PatternError.message (e : PatternError) : String :=
  "invalid pattern " ++ quoted e.pattern ++ ": " ++ e.cause.message

/-! ## 2. Sets -/

/-- A pattern with its expression. -/
structure Compiled where
  source : String
  regex : Regex

/-- A list of patterns, of which one has to match. -/
structure PatternSet where
  entries : List Compiled

namespace PatternSet

/-- The set without patterns, which matches nothing. -/
def empty : PatternSet := ⟨[]⟩

instance : Inhabited PatternSet := ⟨empty⟩

/-- The patterns of a list from the place `index` on. -/
def compileFrom (index : Nat) : List String → Except PatternError (List Compiled)
  | [] => .ok []
  | p :: ps =>
    match compileAnchored p with
    | .error e => .error ⟨p, index, e⟩
    | .ok r =>
      match compileFrom (index + 1) ps with
      | .error e => .error e
      | .ok rest => .ok (⟨p, r⟩ :: rest)

/-- The set of a list of patterns, or its first faulty pattern. -/
def compile (ps : List String) : Except PatternError PatternSet :=
  (compileFrom 0 ps).map PatternSet.mk

/-- Whether a pattern of the set matches a text. -/
def matches_ (s : PatternSet) (value : String) : Bool := s.entries.any fun e => e.regex.found value

/-- Whether a pattern of the set matches one of the texts. -/
def matchesAny (s : PatternSet) (values : List String) : Bool := values.any s.matches_

/-- Whether the set has no patterns. -/
def isEmpty (s : PatternSet) : Bool := s.entries.isEmpty

/-- The number of patterns. -/
def size (s : PatternSet) : Nat := s.entries.length

/-- The texts of the patterns. -/
def sources (s : PatternSet) : List String := s.entries.map (·.source)

end PatternSet

/-! ## 3. Filters -/

/-- An include set and an exclude set. -/
structure PatternFilter where
  includes : PatternSet
  excludes : PatternSet
deriving Inhabited

/-- The list of a filter that holds a faulty pattern. -/
inductive FilterSide where
  | include_
  | exclude
deriving Repr, DecidableEq, Inhabited

/-- The word for a list of a filter. -/
def FilterSide.word : FilterSide → String
  | .include_ => "include"
  | .exclude => "exclude"

namespace PatternFilter

/-- The filter of two lists of patterns, or the first faulty pattern and the list that holds it. -/
def compile (includes excludes : List String) :
    Except (FilterSide × PatternError) PatternFilter := do
  let inc ← (PatternSet.compile includes).mapError (FilterSide.include_, ·)
  let exc ← (PatternSet.compile excludes).mapError (FilterSide.exclude, ·)
  return ⟨inc, exc⟩

/-- The filter of two sets, an absent one being empty. -/
def ofSets (includes excludes : Option PatternSet) : PatternFilter :=
  ⟨includes.getD .empty, excludes.getD .empty⟩

/-- Whether the filter lets a text pass. -/
def matches_ (f : PatternFilter) (value : String) : Bool :=
  !f.excludes.matches_ value && (f.includes.isEmpty || f.includes.matches_ value)

/-- Whether the filter lets one of the texts pass. -/
def matchesAny (f : PatternFilter) (values : List String) : Bool := values.any f.matches_

/-- Whether the filter admits a thing that carries the given labels: none of them is excluded, and
one of them is included unless everything is. -/
def admits (f : PatternFilter) (labels : List String) : Bool :=
  !f.excludes.matchesAny labels && (f.includes.isEmpty || f.includes.matchesAny labels)

/-- Whether the filter lets everything pass. -/
def universal (f : PatternFilter) : Bool := f.includes.isEmpty && f.excludes.isEmpty

/-! ## 4. Filters that may be absent -/

/-- Whether there is a filter and it lets a text pass.  What it means for a thing that it has no
filter is for those to say who look at the thing. -/
def passedBy (f : Option PatternFilter) (value : String) : Bool := f.any (·.matches_ value)

/-- Whether there is a filter and it lets one of the texts pass. -/
def anyPassedBy (f : Option PatternFilter) (values : List String) : Bool :=
  f.any (·.matchesAny values)

/-- Whether there is a filter and it lets everything pass. -/
def isUniversal (f : Option PatternFilter) : Bool := f.any (·.universal)

end PatternFilter

end DocAudit.Pattern
