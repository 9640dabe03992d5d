import DocAudit.Element
import DocAudit.Error

/-!
# Inventories

An inventory is what a scan finds: elements in the order of their discovery, and the doc texts
recorded under the elements' keys.

* `merge` appends the elements of another inventory whose keys are new, with their texts: what was
  found first stays.
-/

namespace DocAudit

/-- Elements with the doc texts recorded for their keys. -/
structure Inventory where
  elements : List Element
  docs : List (ElementKey × String)
deriving Repr, DecidableEq, Inhabited

namespace Inventory

/-- The inventory without elements. -/
def empty : Inventory := ⟨[], []⟩

/-- The number of elements. -/
def size (v : Inventory) : Nat := v.elements.length

/-- The text recorded for a key. -/
def docAt? (v : Inventory) (k : ElementKey) : Option String := v.docs.lookup k

/-- The doc text of an element, if one is recorded. -/
def doc? (v : Inventory) (e : Element) : Option String := v.docAt? e.key

/-- Whether an element with a key has been found. -/
def hasKey (v : Inventory) (k : ElementKey) : Bool := v.elements.any (·.key == k)

/-- The inventory with an element at its end, and its text if it has one; an element whose key has
been found changes nothing. -/
def add (v : Inventory) (e : Element) (doc : Option String) : Inventory :=
  if v.hasKey e.key then v
  else
    { elements := v.elements ++ [e]
      docs := match doc with
        | some d => (e.key, d) :: v.docs
        | none => v.docs }

/-- The inventory with a text recorded for a key, in place of an earlier one. -/
def record (v : Inventory) (k : ElementKey) (doc : String) : Inventory :=
  { v with docs := (k, doc) :: v.docs }

/-- **The elements of `v`, then those of `w` with new keys.** -/
def merge (v w : Inventory) : Inventory :=
  w.elements.foldl (fun acc e => acc.add e (w.doc? e)) v

/-- The inventory of elements and their texts as given: elements are kept even where their keys
agree, and of two texts for a key the later one holds. -/
def ofList (xs : List (Element × Option String)) : Inventory :=
  xs.foldl (fun v x => match x.2 with
    | some d => v.record x.1.key d
    | none => v) ⟨xs.map (·.1), []⟩

/-! ## Inventories that may be missing -/

/-- The doc text of an element in an inventory that may be missing. -/
def docIn? (v : Option Inventory) (e : Element) : Option String := v.bind (·.doc? e)

/-- The number of elements of an inventory that may be missing. -/
def sizeIn (v : Option Inventory) : Nat := v.elim 0 (·.size)

/-- The merge of inventories that may be missing.  A second one that is missing adds nothing; where
the first is missing, another stops the program. -/
def mergeOn (v w : Option Inventory) : Except Error (Option Inventory) :=
  match v, w with
  | v, none => .ok v
  | some v, some w => .ok (some (v.merge w))
  | none, some _ => .error .missing

end Inventory

end DocAudit
