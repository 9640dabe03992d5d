import DocAudit.Policy.Compile

/-!
# Compiling once

A configuration that is asked for again and again is compiled once.  Which configuration is meant is
told by a key; a result is told apart from others by its place in the memo.  Only successes are
kept, so a configuration that does not compile fails every time.
-/

namespace DocAudit.Policy

/-- A compiled configuration and its place in a memo. -/
structure Memoized where
  place : Nat
  compiled : Compiled

/-- Compiled configurations under their keys, in the order in which they came. -/
structure Memo (κ : Type) where
  entries : List (κ × Compiled)

namespace Memo

variable {κ : Type} [BEq κ]

/-- The memo without configurations. -/
def empty : Memo κ := ⟨[]⟩

/-- The configuration kept under a key, with its place. -/
def get? (m : Memo κ) (k : κ) : Option Memoized :=
  (m.entries.zipIdx.find? fun e => e.1.1 == k).map fun e => ⟨e.2, e.1.2⟩

/-- **The configuration kept under a key**, or the one that `make` gives, which is then kept. -/
def getOrMake (m : Memo κ) (k : κ) (make : Except Error Compiled) :
    Except Error Memoized × Memo κ :=
  match m.get? k with
  | some r => (.ok r, m)
  | none =>
    match make with
    | .ok c => (.ok ⟨m.entries.length, c⟩, ⟨m.entries ++ [(k, c)]⟩)
    | .error e => (.error e, m)

/-- Compiles the configuration that a key stands for; without a configuration there is nothing to
keep. -/
def compile (m : Memo κ) (c : Option (κ × Config)) : Except Error Memoized × Memo κ :=
  match c with
  | none => (.error .noConfig, m)
  | some (k, c) => m.getOrMake k (compileChecked (some c))

/-- Compiles configurations one after the other. -/
def compileAll (m : Memo κ) : List (Option (κ × Config)) →
    List (Except Error Memoized) × Memo κ
  | [] => ([], m)
  | c :: cs =>
    let (r, m) := m.compile c
    let (rs, m) := compileAll m cs
    (r :: rs, m)

end Memo

end DocAudit.Policy
