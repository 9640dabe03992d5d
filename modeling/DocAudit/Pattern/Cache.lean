import DocAudit.Pattern.Set

/-!
# A cache of compiled patterns

A pattern that has been compiled is kept for the next time it is asked for, by any set.  It is kept
under the text of its anchored expression, in a store of bounded size that is free to give patterns
up; faulty patterns are not kept.

* `Store` is what a store offers, and `Recent` one that gives up what has not been asked for the
  longest;
* `Cache.compile` compiles a pattern through a store, and `Cache.compileSet` a list of patterns.
-/

namespace DocAudit.Pattern

/-! ## 1. Stores -/

/-- What a store of values under keys offers. -/
structure Store (σ κ ν : Type) where
  /-- An empty store with room for so many values, if there is to be room at all. -/
  new : Nat → Option σ
  /-- The value under a key, if it is kept; asking may reorder the store. -/
  get : σ → κ → Option ν × σ
  /-- The store with a value under a key; others may be given up. -/
  add : σ → κ → ν → σ
  /-- The number of values that a store has room for. -/
  room : σ → Nat
  /-- What is kept. -/
  contents : σ → List (κ × ν)

/-- Values under their keys, those asked for last first. -/
structure Recent (κ ν : Type) where
  room : Nat
  entries : List (κ × ν)

namespace Recent

variable {κ ν : Type} [BEq κ]

/-- An empty store. -/
def new (room : Nat) : Option (Recent κ ν) := if room = 0 then none else some ⟨room, []⟩

/-- The store with a value in front; the last one goes if there are too many. -/
def add (s : Recent κ ν) (k : κ) (v : ν) : Recent κ ν :=
  { s with entries := ((k, v) :: s.entries.filter (·.1 != k)).take s.room }

/-- The value under a key, which goes to the front. -/
def get (s : Recent κ ν) (k : κ) : Option ν × Recent κ ν :=
  match s.entries.lookup k with
  | some v => (some v, s.add k v)
  | none => (none, s)

/-- **The store that gives up what has not been asked for the longest.** -/
def store : Store (Recent κ ν) κ ν := ⟨new, get, add, Recent.room, Recent.entries⟩

end Recent

/-! ## 2. Compiling through a store -/

namespace Cache

/-- How many expressions a cache keeps at most. -/
def capacity : Nat := 1024

variable {σ : Type} (store : Store σ String Regex)

/-- The cache without patterns. -/
def start : Option σ := store.new capacity

/-- **Compiles a pattern**, or takes the expression that is kept for its anchored text. -/
def compile (c : σ) (p : String) : Parsed Regex × σ :=
  match store.get c (anchored p) with
  | (some r, c) => (.ok r, c)
  | (none, c) =>
    match compileAnchored p with
    | .ok r => (.ok r, store.add c (anchored p) r)
    | .error e => (.error e, c)

/-- Compiles patterns one after the other. -/
def compileAll (c : σ) : List String → List (Parsed Regex) × σ
  | [] => ([], c)
  | p :: ps =>
    let (r, c) := compile store c p
    let (rs, c) := compileAll c ps
    (r :: rs, c)

/-- The patterns of a list from the place `index` on. -/
def compileFrom (c : σ) (index : Nat) :
    List String → Except PatternError (List Compiled) × σ
  | [] => (.ok [], c)
  | p :: ps =>
    match compile store c p with
    | (.error e, c) => (.error ⟨p, index, e⟩, c)
    | (.ok r, c) =>
      match compileFrom c (index + 1) ps with
      | (.error e, c) => (.error e, c)
      | (.ok rest, c) => (.ok (⟨p, r⟩ :: rest), c)

/-- The set of a list of patterns, or its first faulty pattern. -/
def compileSet (c : σ) (ps : List String) : Except PatternError PatternSet × σ :=
  let (r, c) := compileFrom store c 0 ps
  (r.map PatternSet.mk, c)

end Cache

end DocAudit.Pattern
