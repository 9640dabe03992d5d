import DocAudit.Error
import DocAudit.Inventory

/-!
# Rules

A rule looks at an inventory and makes findings: elements with something to say about them.  How
severe a finding is, and whether it is reported at all, is not the rule's business.

* A rule reads its options before it looks, so one with wrong options fails even on an empty
  inventory.
* A rule that fails may still hand back findings: they are counted, and nothing else is made of them.
-/

namespace DocAudit

/-- Something that a rule says about an element. -/
structure Finding where
  element : Element
  message : String
deriving Repr, DecidableEq, Inhabited

/-- What a rule hands back: what it has found, and the error that it failed with, if it failed. -/
structure Evaluation where
  findings : List Finding
  error? : Option Error

/-- The findings of an evaluation; those of a rule that failed do not count. -/
def Evaluation.result (e : Evaluation) : Except Error (List Finding) :=
  match e.error? with
  | some x => .error x
  | none => .ok e.findings

/-- A rule: its id, a line about it, and how it gets ready with its options.  It then looks at an
inventory, and is told whether it has been called off. -/
structure Rule where
  id : String
  description : String
  prepare : Option Yaml.Node → Except Error (Bool → Inventory → Evaluation)

namespace Rule

/-- What a rule hands back on an inventory. -/
def evaluation (r : Rule) (v : Inventory) (options : Option Yaml.Node) (cancelled : Bool) :
    Evaluation :=
  match r.prepare options with
  | .error e => ⟨[], some e⟩
  | .ok look => look cancelled v

/-- **The findings of a rule.** -/
def evaluate (r : Rule) (v : Inventory) (options : Option Yaml.Node) (cancelled : Bool) :
    Except Error (List Finding) := (r.evaluation v options cancelled).result

/-- A look that finds things, unless it has been called off before. -/
def looking (find : Inventory → List Finding) (cancelled : Bool) (v : Inventory) : Evaluation :=
  if cancelled then ⟨[], some .cancelled⟩ else ⟨find v, none⟩

/-- The elements that satisfy `bad`, each with its message. -/
def report (bad : Element → Bool) (message : Element → String) (v : Inventory) : List Finding :=
  (v.elements.filter bad).map fun e => ⟨e, message e⟩

/-- Decodes the options of the rule `id` over their defaults. -/
def readOptions {α : Type} (id : String) (slot : Yaml.Slot α) (defaults : α)
    (options : Option Yaml.Node) : Except Error α :=
  match options with
  | none => .ok defaults
  | some n => (slot.run n defaults).mapError fun e => Error.ruleOptions id (.yaml e)

end Rule

end DocAudit
