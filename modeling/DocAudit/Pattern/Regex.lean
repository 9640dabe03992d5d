import DocAudit.Pattern.CharClass

/-!
# Regular expressions and where they match

An expression relates positions of a text: it leads from a position to every position at which a
match that starts there can end.  `Regex.ends` computes this for a whole set of starting positions
at once, so that no part of the text is looked at twice for the same part of the expression.

* `Regex.Leads` is the relation, stated rule by rule;
* `Regex.found` tells whether some part of a text matches.
-/

namespace DocAudit.Pattern

open DocAudit.Text

/-! ## 1. Expressions -/

/-- A condition on a position. -/
inductive Anchor where
  | textStart
  | textEnd
  | lineStart
  | lineEnd
  | wordEdge
  | noWordEdge
deriving Repr, DecidableEq

/-- A regular expression. -/
inductive Regex where
  /-- The empty text. -/
  | empty
  /-- One character, given by its code point, with or without regard to case. -/
  | char (code : Nat) (fold : Bool)
  /-- Any character, newlines included or not. -/
  | any (newline : Bool)
  /-- A character of a class. -/
  | cls (k : CharClass)
  | anchor (a : Anchor)
  | seq (r s : Regex)
  | alt (r s : Regex)
  /-- A group that is counted. -/
  | group (r : Regex)
  | star (r : Regex)
  | plus (r : Regex)
  | opt (r : Regex)
  /-- At least `min` and at most `max` times. -/
  | rep (min : Nat) (max : Option Nat) (r : Regex)

/-! ## 2. Single steps -/

/-- A character of a word, for word edges. -/
def isWordChar (c : Char) : Bool := c.isAlphanum || c == '_'

/-- Whether the character at a position is one of a word. -/
def wordAt (v : Array Char) (i : Nat) : Bool := (v[i]?.map isWordChar).getD false

/-- Whether an anchor holds at a position. -/
def Anchor.holds (v : Array Char) (i : Nat) : Anchor → Bool
  | .textStart => i == 0
  | .textEnd => i == v.size
  | .lineStart => i == 0 || v[i - 1]? == some '\n'
  | .lineEnd => i == v.size || v[i]? == some '\n'
  | .wordEdge => (i != 0 && wordAt v (i - 1)) != wordAt v i
  | .noWordEdge => (i != 0 && wordAt v (i - 1)) == wordAt v i

/-- Whether a character of an expression, given by its code point, is the character `c`. -/
def sameChar (code : Nat) (fold : Bool) (c : Char) : Bool :=
  if fold then
    (if code == c.toNat then true
      else match (Char.ofNat code).toNat == code with
        | true => foldCase (Char.ofNat code) == foldCase c
        | false => false)
  else code == c.toNat

/-! ## 3. The relation -/

/-- **`r.Leads v i j`: a match of `r` in the text `v` can start at `i` and end at `j`.** -/
inductive Regex.Leads (v : Array Char) : Regex → Nat → Nat → Prop where
  | empty {i : Nat} : Leads v .empty i i
  | char {code : Nat} {fold : Bool} {i : Nat} {c : Char} :
      v[i]? = some c → sameChar code fold c = true → Leads v (.char code fold) i (i + 1)
  | any {newline : Bool} {i : Nat} {c : Char} :
      v[i]? = some c → (newline || c != '\n') = true → Leads v (.any newline) i (i + 1)
  | cls {k : CharClass} {i : Nat} {c : Char} :
      v[i]? = some c → k.has c = true → Leads v (.cls k) i (i + 1)
  | anchor {a : Anchor} {i : Nat} : a.holds v i = true → Leads v (.anchor a) i i
  | seq {r s : Regex} {i j k : Nat} : Leads v r i j → Leads v s j k → Leads v (.seq r s) i k
  | altLeft {r s : Regex} {i j : Nat} : Leads v r i j → Leads v (.alt r s) i j
  | altRight {r s : Regex} {i j : Nat} : Leads v s i j → Leads v (.alt r s) i j
  | group {r : Regex} {i j : Nat} : Leads v r i j → Leads v (.group r) i j
  | starNil {r : Regex} {i : Nat} : Leads v (.star r) i i
  | starCons {r : Regex} {i j k : Nat} :
      Leads v r i j → Leads v (.star r) j k → Leads v (.star r) i k
  | plus {r : Regex} {i j k : Nat} : Leads v r i j → Leads v (.star r) j k → Leads v (.plus r) i k
  | optNil {r : Regex} {i : Nat} : Leads v (.opt r) i i
  | optSome {r : Regex} {i j : Nat} : Leads v r i j → Leads v (.opt r) i j
  | repNil {r : Regex} {max : Option Nat} {i : Nat} : Leads v (.rep 0 max r) i i
  | repMore {r : Regex} {min : Nat} {max : Option Nat} {i j k : Nat} :
      max ≠ some 0 → Leads v r i j → Leads v (.rep (min - 1) (max.map (· - 1)) r) j k →
      Leads v (.rep min max r) i k

/-! ## 4. Sets of positions -/

/-- The union of two rising lists of positions, rising again. -/
def union : List Nat → List Nat → List Nat
  | [], ys => ys
  | x :: xs, [] => x :: xs
  | x :: xs, y :: ys =>
    if x < y then x :: union xs (y :: ys)
    else if y < x then y :: union (x :: xs) ys
    else x :: union xs ys
termination_by xs ys => xs.length + ys.length

/-- The positions of the first rising list that are not in the second. -/
def minus : List Nat → List Nat → List Nat
  | [], _ => []
  | x :: xs, [] => x :: xs
  | x :: xs, y :: ys =>
    if x < y then x :: minus xs (y :: ys)
    else if y < x then minus (x :: xs) ys
    else minus xs ys
termination_by xs ys => xs.length + ys.length

/-- The positions after one character that passes a test. -/
def steps (v : Array Char) (p : Char → Bool) (s : List Nat) : List Nat :=
  s.filterMap fun i => match v[i]? with
    | some c => if p c then some (i + 1) else none
    | none => none

/-- Everything that repeated use of `f` reaches from `front`, together with `seen`. -/
def closure (f : List Nat → List Nat) : (fuel : Nat) → (seen front : List Nat) → List Nat
  | 0, seen, _ => seen
  | n + 1, seen, front =>
    let new := minus (f front) seen
    if new.isEmpty then seen else closure f n (union seen new) new

/-- `n` uses of `f`, one after the other. -/
def times (f : List Nat → List Nat) : Nat → List Nat → List Nat
  | 0, s => s
  | n + 1, s => if s.isEmpty then [] else times f n (f s)

/-- Up to `n` uses of `f`, together with `seen`. -/
def upTo (f : List Nat → List Nat) : Nat → (seen front : List Nat) → List Nat
  | 0, seen, _ => seen
  | n + 1, seen, front =>
    let next := f front
    if next.isEmpty then seen else upTo f n (union seen next) next

/-- **The positions at which a match that starts in `s` can end.** -/
def Regex.ends (v : Array Char) : Regex → List Nat → List Nat
  | .empty, s => s
  | .char code fold, s => steps v (sameChar code fold) s
  | .any newline, s => steps v (fun c => newline || c != '\n') s
  | .cls k, s => steps v k.has s
  | .anchor a, s => s.filter fun i => a.holds v i
  | .seq r t, s =>
    let mid := r.ends v s
    if mid.isEmpty then [] else t.ends v mid
  | .alt r t, s => union (r.ends v s) (t.ends v s)
  | .group r, s => r.ends v s
  | .star r, s => closure (r.ends v) (v.size + 1) s s
  | .plus r, s =>
    let first := r.ends v s
    closure (r.ends v) (v.size + 1) first first
  | .opt r, s => union s (r.ends v s)
  | .rep min max r, s =>
    let first := times (r.ends v) min s
    match max with
    | none => closure (r.ends v) (v.size + 1) first first
    | some m => upTo (r.ends v) (m - min) first first

/-- Whether an expression matches some part of a text. -/
def Regex.found (r : Regex) (text : String) : Bool :=
  let v := text.toList.toArray
  !(r.ends v (List.range (v.size + 1))).isEmpty

/-! ## 5. Measures -/

/-- Whether an expression is a plain sequence of characters. -/
def Regex.isLiteral : Regex → Bool
  | .char _ _ => true
  | .seq r s => r.isLiteral && s.isLiteral
  | _ => false

/-- Whether an expression is a choice between single characters. -/
def Regex.isSingle : Regex → Bool
  | .char _ _ => true
  | .cls _ => true
  | .any _ => true
  | .alt r s => r.isSingle && s.isSingle
  | _ => false

/-- How deep an expression nests inside a sequence, inside a choice or by itself: a sequence of
sequences counts as one, and so does a choice of choices. -/
def Regex.heightIn : (inSeq inAlt : Bool) → Regex → Nat
  | inSeq, _, .seq r s =>
    let h := max (r.heightIn true false) (s.heightIn true false)
    if inSeq || (r.isLiteral && s.isLiteral) then h else 1 + h
  | _, inAlt, .alt r s =>
    let h := max (r.heightIn false true) (s.heightIn false true)
    if inAlt || (r.isSingle && s.isSingle) then h else 1 + h
  | _, _, .group r => 1 + r.heightIn false false
  | _, _, .star r => 1 + r.heightIn false false
  | _, _, .plus r => 1 + r.heightIn false false
  | _, _, .opt r => 1 + r.heightIn false false
  | _, _, .rep _ _ r => 1 + r.heightIn false false
  | _, _, _ => 1

/-- How deep an expression nests. -/
def Regex.height (r : Regex) : Nat := r.heightIn false false

/-- How many instructions an expression takes when its counted repetitions are written out. -/
def Regex.cost : Regex → Nat
  | .seq r s => r.cost + s.cost
  | .alt r s => r.cost + s.cost + 1
  | .group r => 2 + r.cost
  | .star r => 2 + r.cost
  | .plus r => 1 + r.cost
  | .opt r => 1 + r.cost
  | .rep 0 none r => 2 + r.cost
  | .rep n none r => 1 + n * r.cost
  | .rep n (some m) r => max 1 (m * r.cost + (m - n))
  | .empty => 1
  | .char _ _ => 1
  | .any _ => 1
  | .cls _ => 1
  | .anchor _ => 1

/-- Whether nested counted repetitions multiply to at most `most`. -/
def Regex.repeatsWithin : Regex → (most : Nat) → Bool
  | .seq r s, n => r.repeatsWithin n && s.repeatsWithin n
  | .alt r s, n => r.repeatsWithin n && s.repeatsWithin n
  | .group r, n => r.repeatsWithin n
  | .star r, n => r.repeatsWithin n
  | .plus r, n => r.repeatsWithin n
  | .opt r, n => r.repeatsWithin n
  | .rep min max r, n =>
    let m := max.getD min
    if max == some 0 then true
    else if m > n then false
    else r.repeatsWithin (if m > 0 then n / m else n)
  | .empty, _ => true
  | .char _ _, _ => true
  | .any _, _ => true
  | .cls _, _ => true
  | .anchor _, _ => true

end DocAudit.Pattern
