import DocAudit.Rule.DocNamePrefix
import DocAudit.Rule.DocPresence

/-!
# Registries of rules

A registry holds rules with distinct ids, none of which is blank.  `Registry.all` lists them in the
order of their ids, whatever the order in which they came.
-/

namespace DocAudit.Rule

open DocAudit.Text

/-- Rules by id. -/
structure Registry where
  rules : List Rule

namespace Registry

/-- The registry without rules. -/
def empty : Registry := ⟨[]⟩

/-- The rule with an id. -/
def lookup (g : Registry) (id : String) : Option Rule := g.rules.find? (·.id == id)

/-- **The registry with one more rule**, whose id must be new and not blank. -/
def register (g : Registry) (r : Rule) : Except Error Registry :=
  if trim r.id == "" then .error (.plain "rule id must not be empty")
  else if (g.lookup r.id).isSome then
    .error (.plain ("rule " ++ quoted r.id ++ " is already registered"))
  else .ok ⟨g.rules ++ [r]⟩

/-- A call that registers a rule; one that must not fail stops the program if it does. -/
inductive Call where
  | register (rule : Rule)
  | mustRegister (rule : Rule)

/-- The rule of a call. -/
def Call.rule : Call → Rule
  | .register r => r
  | .mustRegister r => r

/-- What comes of a call. -/
inductive Answer where
  | registered
  | refused (cause : Error)
  /-- The program is stopped. -/
  | stopped (cause : Error)

/-- The answer to a call that fails. -/
def Call.failure : Call → Error → Answer
  | .register _, e => .refused e
  | .mustRegister _, e => .stopped e

/-- A call, and the registry after it. -/
def call (g : Registry) (c : Call) : Answer × Registry :=
  match g.register c.rule with
  | .ok g' => (.registered, g')
  | .error e => (c.failure e, g)

/-- Calls one after the other, each on the registry that the one before has left. -/
def callAll (g : Registry) : List Call → List Answer × Registry
  | [] => ([], g)
  | c :: cs =>
    let (a, g) := g.call c
    let (as, g) := callAll g cs
    (a :: as, g)

/-- The registry of the rules that come with the library. -/
def builtin : Registry := ⟨[docPresence, docNamePrefix]⟩

/-- The rules in the order of their ids. -/
def all (g : Registry) : List Rule := g.rules.mergeSort fun a b => decide (a.id ≤ b.id)

/-- The ids of the rules, sorted. -/
def ids (g : Registry) : List String := g.all.map (·.id)

end Registry

end DocAudit.Rule
