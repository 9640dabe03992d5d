import DocAudit.Yaml.Node
import DocAudit.Yaml.Scalar
import DocAudit.Text.Quoted

/-!
# Decoding nodes into values

A *slot* decodes a node over the value that is already there and tells whether the node gave a
value.  Mappings decode over records key by key, so what a document leaves out stays as it was; a
list replaces the list that was there; null clears lists, maps and optional values and leaves
everything else.

* Mismatches are collected, so that one run reports all of them (`Fault`); only a document that
  cannot be read as one at all stops the run (`Stop`).
* With `strict`, a key that no field takes is a mismatch too.
* A mapping may ask for others to be merged in.  Its own entries come first, and what they set the
  merged ones cannot set again (`Intake`).
-/

namespace DocAudit.Yaml

open DocAudit.Text DocAudit.Decimal

/-! ## 1. Faults -/

/-- What does not fit between a document and the type it is decoded into. -/
inductive Fault where
  /-- A node of the wrong kind, with its text if it is a scalar. -/
  | mismatch (line : Nat) (tag : String) (value : Option String) (type : String)
  | unknownField (line : Nat) (name type : String)
  | repeatedField (line : Nat) (name type : String)
  | duplicateKey (line : Nat) (name : String) (first : Nat)
deriving Repr, DecidableEq, Inhabited

/-- The first characters of a text that fit in `n` bytes; a character that is cut leaves one
replacement mark for each of its bytes inside. -/
def takeBytes : (n : Nat) → List Char → List Char
  | _, [] => []
  | n, c :: cs =>
    if c.utf8Size ≤ n then c :: takeBytes (n - c.utf8Size) cs
    else List.replicate n (Char.ofNat 0xFFFD)

/-- A text as a mismatch shows it: long ones are cut. -/
def excerpt (s : String) : String :=
  if s.utf8ByteSize > 10 then String.ofList (takeBytes 7 s.toList) ++ "..." else s

/-- The message of a fault. -/
def Fault.message : Fault → String
  | .mismatch line tag value type =>
    "line " ++ toString line ++ ": cannot unmarshal " ++ shortTag tag ++
      (match value with
        | some v => " `" ++ excerpt v ++ "`"
        | none => "") ++ " into " ++ type
  | .unknownField line name type =>
    "line " ++ toString line ++ ": field " ++ name ++ " not found in type " ++ type
  | .repeatedField line name type =>
    "line " ++ toString line ++ ": field " ++ name ++ " already set in type " ++ type
  | .duplicateKey line name first =>
    "line " ++ toString line ++ ": mapping key " ++ quoted name ++ " already defined at line " ++
      toString first

/-- What stops a run: the document is malformed, or a key that has to be compared with others is a
collection, of a type that cannot be compared. -/
inductive Stop where
  | malformed
  | incomparable (type : String)
deriving Repr, DecidableEq, Inhabited

/-- Why a document cannot be decoded: the run was stopped, or the document does not fit. -/
inductive Error where
  | malformed
  | incomparable (type : String)
  | faults (list : List Fault)
deriving Repr, DecidableEq, Inhabited

/-- The error of a run that was stopped. -/
def Stop.error : Stop → Error
  | .malformed => .malformed
  | .incomparable type => .incomparable type

/-- The message of an error. -/
def Error.message : Error → String
  | .malformed => "yaml: syntax error"
  | .incomparable type => "runtime error: hash of unhashable type " ++ type
  | .faults fs => "yaml: unmarshal errors:\n  " ++ join "\n  " (fs.map Fault.message)

/-! ## 2. Runs -/

/-- What a run has come to. -/
structure Run where
  faults : List Fault
  /-- How many nodes have been decoded, and how many of them for an alias. -/
  decoded : Nat
  aliased : Nat
  /-- How many aliases are being followed. -/
  depth : Nat
  /-- The anchored nodes that are being decoded, the innermost first. -/
  around : List Node
  /-- The names of those that are decoded again inside themselves. -/
  again : List String

/-- A run that has not started. -/
def Run.start : Run := ⟨[], 0, 0, 0, [], []⟩

/-- Up to here almost all nodes may be decoded for aliases, and from `manyNodes` on a tenth. -/
def fewNodes : Nat := 400000

/-- From here on a tenth of the nodes may be decoded for aliases. -/
def manyNodes : Nat := 4000000

/-- Whether too large a share of the nodes has been decoded for aliases: more than 99 in a hundred
in small documents and more than ten in large ones, with an even slope between them. -/
def Run.isExcessive (r : Run) : Bool :=
  let span := manyNodes - fewNodes
  let beyond := min r.decoded manyNodes - fewNodes
  decide (r.aliased > 100) && decide (r.decoded > 1000) &&
    decide (r.aliased * 100 * span > r.decoded * (99 * span - 89 * beyond))

/-- A computation that collects faults until it is stopped. -/
abbrev Decoder (α : Type) := StateT Run (Except Stop) α

/-- Records a fault. -/
def report (f : Fault) : Decoder Unit := modify fun r => { r with faults := r.faults ++ [f] }

/-- Stops: the document is malformed. -/
def malformed {α : Type} : Decoder α := throw .malformed

/-- Counts a node; a document that is little but aliases is refused. -/
def countNode : Decoder Unit := do
  modify fun r => { r with
    decoded := r.decoded + 1, aliased := if r.depth > 0 then r.aliased + 1 else r.aliased }
  if (← get).isExcessive then malformed

/-- Decodes inside a node, which aliases may refer to if it has an anchor. -/
def inside {α : Type} (n : Node) (act : Decoder α) : Decoder α :=
  if n.head.anchor == "" then act
  else do
    modify fun r => { r with around := n :: r.around }
    let a ← act
    modify fun r => { r with around := r.around.tail }
    return a

/-- Decodes the target of an alias. -/
def following {α : Type} (act : Decoder α) : Decoder α := do
  modify fun r => { r with depth := r.depth + 1 }
  let a ← act
  modify fun r => { r with depth := r.depth - 1 }
  return a

/-- Decodes a node inside itself; a second time it would never end. -/
def onceAgain {α : Type} (name : String) (act : Node → Decoder α) : Decoder α := do
  let r ← get
  match r.around.find? (·.head.anchor == name) with
  | none => malformed
  | some t =>
    if r.again.contains name then malformed
    modify fun r => { r with again := name :: r.again }
    let a ← act t
    modify fun r => { r with again := r.again.tail }
    return a

/-- A slot: decodes a node that is no alias over a value, and tells whether the node gave one. -/
abbrev Slot (α : Type) := Node → α → Decoder (α × Bool)

/-- Decodes a node, or the one that an alias stands for, over a value. -/
def Slot.decode {α : Type} (slot : Slot α) (n : Node) (old : α) : Decoder (α × Bool) := do
  countNode
  let visit (t : Node) : Decoder (α × Bool) := following do
    countNode
    inside t (slot t old)
  match n with
  | .alias _ _ (some t) => visit t
  | .alias _ name none => onceAgain name visit
  | n => inside n (slot n old)

/-- The result of a run from its start. -/
def Decoder.result {α : Type} (act : Decoder α) : Except Error α :=
  match act.run .start with
  | .error e => .error e.error
  | .ok (a, r) => if r.faults.isEmpty then .ok a else .error (.faults r.faults)

/-- Decodes a node over a value. -/
def Slot.run {α : Type} (slot : Slot α) (n : Node) (old : α) : Except Error α :=
  (slot.decode n old).result.map (·.1)

/-! ## 3. Mismatches -/

/-- Whether two keys are the same key of a mapping. -/
def sameKey : Node → Node → Bool
  | .scalar _ _ v, .scalar _ _ w => v == w
  | .seq _ _ _, .seq _ _ _ => true
  | .map _ _ _, .map _ _ _ => true
  | .alias _ n _, .alias _ m _ => n == m
  | _, _ => false

/-- The text of a key, empty for collections. -/
def Node.keyText : Node → String
  | .scalar _ _ v => v
  | .alias _ n _ => n
  | _ => ""

/-- The faults of keys that stand twice in a mapping. -/
def duplicates : List (Node × Node) → List Fault
  | [] => []
  | (k, _) :: rest =>
    (rest.filter fun (j, _) => sameKey k j).map
      (fun (j, _) => Fault.duplicateKey j.line j.keyText k.line) ++ duplicates rest

/-- The text that a mismatch shows; under the tag of a collection there is none. -/
def shownText (tag : String) (v : String) : Option String :=
  if tag == "!!seq" || tag == "!!map" then none else some v

/-- Records that a node is of the wrong kind for a type.  Keys that stand twice come first. -/
def mismatch {α : Type} (type : String) (n : Node) (old : α) : Decoder (α × Bool) := do
  let fault (h : Head) (v : String) : Fault :=
    .mismatch h.line h.tag (shownText h.tag v) type
  match n with
  | .scalar h _ v => report (fault h v)
  | .seq h _ _ => report (fault h "")
  | .map h _ entries =>
    match duplicates entries with
    | [] => report (fault h "")
    | fs => fs.forM report
  | .alias _ _ _ => pure ()
  return (old, false)

/-! ## 4. Scalars -/

/-- The value of a scalar node. -/
def scalarValue (h : Head) (style : ScalarStyle) (v : String) : Decoder Value :=
  if h.tag == "!!str" || (style != .plain && (h.tag == "" || h.tag == "!")) then pure (.text v)
  else match valueUnder h.tag v with
    | some x => pure x
    | none => malformed

/-- A slot for scalars; `accept` takes the value and the source text. -/
def scalarSlot {α : Type} (type : String) (accept : Value → String → Option α) : Slot α :=
  fun n old => do
    match n with
    | .scalar h style v =>
      match ← scalarValue h style v with
      | .null => return (old, false)
      | x =>
        match accept x v with
        | some a => return (a, true)
        | none => mismatch type n old
    | n => mismatch type n old

/-- A text with a type of its own; a scalar whose value is no text gives its source text. -/
def wordSlot {α : Type} (type : String) (mk : String → α) : Slot α :=
  scalarSlot type fun v s =>
    match v with
    | .text t => some (mk t)
    | _ => some (mk s)

/-- A text. -/
def textSlot (type : String) : Slot String := wordSlot type id

/-- The truth value of a value; some unquoted words count as one. -/
def truth? : Value → Option Bool
  | .bool b => some b
  | .text s =>
    if ["y", "Y", "yes", "Yes", "YES", "on", "On", "ON"].contains s then some true
    else if ["n", "N", "no", "No", "NO", "off", "Off", "OFF"].contains s then some false
    else none
  | _ => none

/-- A truth value. -/
def boolSlot : Slot Bool := scalarSlot "bool" fun v _ => truth? v

/-- The 64-bit number of a value; fractions are cut off.  A fraction at the upper end of the range
wraps around, and one below the range counts as its lower end. -/
def int64? : Value → Option Int64
  | .int n => if n < Decimal.signedEnd then some (Int64.ofInt n) else none
  | .float x =>
    match x.truncate? with
    | some n =>
      if n > Decimal.signedEnd then none
      else some (if n < -Decimal.signedEnd then Int64.minValue else Int64.ofInt n)
    | none => if x.isInfinite && x.negative then some Int64.minValue else none
  | _ => none

/-- A 64-bit number. -/
def intSlot : Slot Int64 := scalarSlot "int" fun v _ => int64? v

/-- The floating-point number of a value. -/
def float? : Value → Option Binary64
  | .int n => some (.ofInt n)
  | .float x => some x
  | _ => none

/-- A floating-point number. -/
def floatSlot : Slot Binary64 := scalarSlot "float64" fun v _ => float? v

/-! ## 5. Lists and optional values -/

/-- The items of a list that give a value, in order. -/
def itemsOf {α : Type} (elem : Slot α) (fresh : α) : List Node → Decoder (List α)
  | [] => pure []
  | n :: ns => do
    let (a, good) ← elem.decode n fresh
    let rest ← itemsOf elem fresh ns
    return (if good then a :: rest else rest)

/-- A list, which replaces the one that was there. -/
def listSlot {α : Type} (type : String) (elem : Slot α) (fresh : α) : Slot (List α) :=
  fun n old => do
    match n with
    | .seq _ _ items => return (← itemsOf elem fresh items, true)
    | .scalar h style v =>
      match ← scalarValue h style v with
      | .null => return ([], true)
      | _ => mismatch type n old
    | n => mismatch type n old

/-- An optional value of a type; null is none. -/
def optionSlot {α : Type} (type : String) (slot : Slot α) (fresh : α) : Slot (Option α) :=
  fun n old => do
    if n.isNull then
      match n with
      | .scalar h style v =>
        let _ ← scalarValue h style v
        return (none, true)
      | n => mismatch ("*" ++ type) n old
    else
      let (a, good) ← slot n (old.getD fresh)
      return (some a, good)

/-! ## 6. Mappings -/

/-- How the entries of a mapping are taken in.  `κ` is what keys are compared by. -/
structure Intake (κ σ : Type) where
  /-- The key that a node gives, if it gives one; the flag tells whether the mapping is merged into
  another. -/
  key : (merged : Bool) → Node → Decoder (Option κ)
  /-- Takes in an entry, of which the node of the key and that of the value follow the key. -/
  entry : κ → Node → Node → σ → Decoder σ
  /-- The keys of a mapping that the mappings merged into it cannot set again. -/
  keys : List (Node × Node) → Decoder (List κ)
  /-- What changes where a mapping starts; the flag tells whether it is merged into another. -/
  opening : (merged : Bool) → σ → σ

namespace Intake

variable {κ σ : Type} [BEq κ]

/-- Takes in the entries of a mapping itself.  In a mapping merged into another, `set` holds the
keys that have been set already. -/
def own (m : Intake κ σ) : List (Node × Node) → (set : Option (List κ)) → σ →
    Decoder (Option (List κ) × σ)
  | [], set, s => pure (set, s)
  | (k, v) :: rest, set, s => do
    if k.isMerge then own m rest set s
    else match ← m.key set.isSome k with
      | none => own m rest set s
      | some a =>
        if set.any (·.contains a) then own m rest set s
        else own m rest (set.map (a :: ·)) (← m.entry a k v s)

mutual

/-- Takes in a mapping that is merged into another, or that of an alias; nothing else can be
merged. -/
def merge (m : Intake κ σ) : Node → List κ → σ → Decoder (List κ × σ)
  | .map h _ entries, set, s => do
    countNode
    match duplicates entries with
    | [] =>
      inside (.map h false entries) do
        let (left, s) ← m.own entries (some set) (m.opening true s)
        mergeLast m entries (left.getD set) s
    | fs =>
      fs.forM report
      return (set, s)
  | .alias _ _ (some (.map h flow entries)), set, s => do
    countNode
    following (merge m (.map h flow entries) set s)
  | _, _, _ => malformed

/-- Takes in mappings one after the other. -/
def mergeAll (m : Intake κ σ) : List Node → List κ → σ → Decoder (List κ × σ)
  | [], set, s => pure (set, s)
  | n :: ns, set, s => do
    let (set, s) ← merge m n set s
    mergeAll m ns set s

/-- Takes in what the last of the entries that ask for it merges in: a mapping or several. -/
def mergeLast (m : Intake κ σ) : List (Node × Node) → List κ → σ → Decoder (List κ × σ)
  | [], set, s => pure (set, s)
  | (k, v) :: rest, set, s =>
    if k.isMerge && !rest.any (·.1.isMerge) then
      match v with
      | .seq _ _ items => mergeAll m items set s
      | v => merge m v set s
    else mergeLast m rest set s

end

/-- Takes in a mapping; one in which a key stands twice is not taken in at all. -/
def take (m : Intake κ σ) (entries : List (Node × Node)) (s : σ) : Decoder (σ × Bool) :=
  match duplicates entries with
  | [] => do
    let (_, s) ← m.own entries none (m.opening false s)
    if entries.any (·.1.isMerge) then
      let (_, s) ← m.mergeLast entries (← m.keys entries) s
      return (s, true)
    else return (s, true)
  | fs => do
    fs.forM report
    return (s, false)

end Intake

/-! ## 7. Contents -/

/-- What a node holds, whatever it is. -/
inductive Content where
  | scalar (v : Value)
  | list (items : List Content)
  /-- A table; in one by names all keys are texts. -/
  | table (named : Bool) (entries : List (Value × Content))

/-- Nothing. -/
def Content.null : Content := .scalar .null

/-- The type of a content that is no scalar. -/
def Content.collectionType : Content → Option String
  | .scalar _ => none
  | .list _ => some "[]interface \x7b\x7d"
  | .table named _ =>
    some (if named then "map[string]interface \x7b\x7d"
      else "map[interface \x7b\x7d]interface \x7b\x7d")

/-- A dictionary with the value of a key set; a new key comes last. -/
def setEntry {α β : Type} [BEq α] (k : α) (v : β) : List (α × β) → List (α × β)
  | [] => [(k, v)]
  | (j, w) :: rest => if j == k then (j, v) :: rest else (j, w) :: setEntry k v rest

/-- The values of the keys of a mapping. -/
def keyValues (slot : Slot Content) : List (Node × Node) → Decoder (List Value)
  | [] => pure []
  | (k, _) :: rest => do
    let (c, good) ← slot.decode k .null
    match good, c with
    | true, .scalar v => return v :: (← keyValues slot rest)
    | true, c => throw (.incomparable (c.collectionType.getD ""))
    | false, _ => keyValues slot rest

/-- A table: with `named` keys are read as texts, and otherwise as whatever they are, but not as
collections.  The keys of a merged mapping are compared with others first. -/
def tableIntake (named : Bool) (slot : Slot Content) : Intake Value (List (Value × Content)) where
  key merged n :=
    if named then do
      let (s, good) ← (textSlot "string").decode n ""
      return if good then some (.text s) else none
    else do
      let (c, good) ← slot.decode n .null
      match good, c with
      | true, .scalar v => return some v
      | true, c => if merged then throw (.incomparable (c.collectionType.getD "")) else malformed
      | false, _ => return none
  entry a _ v t := do
    let (c, good) ← slot.decode v .null
    return if good then setEntry a c t else t
  keys := keyValues slot
  opening _ t := t

/-- The content of a node that lies at most `depth` deep. -/
def contentWithin : (depth : Nat) → Slot Content
  | 0 => fun _ _ => malformed
  | depth + 1 => fun n old => do
    let slot := contentWithin depth
    match n with
    | .scalar h style v => return (.scalar (← scalarValue h style v), true)
    | .seq _ _ items => return (.list (← itemsOf slot .null items), true)
    | .map _ _ entries =>
      let named := entries.all fun e => e.1.tag == "!!str" || e.1.tag == "!!merge"
      let (t, good) ← (tableIntake named slot).take entries []
      return if good then (.table named t, true) else (old, false)
    | .alias _ _ _ => malformed

/-- How deep nodes may lie, aliases followed. -/
def maxNesting : Nat := 1000000

/-- The content of a node, whatever it is. -/
def contentSlot : Slot Content := contentWithin maxNesting

/-! ## 8. Records -/

/-- A field of a record: its key, and how its value is decoded over the record. -/
structure FieldSlot (R : Type) where
  key : String
  decode : Node → R → Decoder R

/-- The field under a key, decoded by a slot. -/
def field {R α : Type} (key : String) (slot : Slot α) (get : R → α) (set : R → α → R) :
    FieldSlot R :=
  ⟨key, fun n r => do
    let (a, _) ← slot.decode n (get r)
    return set r a⟩

/-- The text of a value that is one. -/
def Value.text? : Value → Option String
  | .text s => some s
  | _ => none

/-- A record, with the names of the fields that the mapping at hand has set. -/
def recordIntake {R : Type} (strict : Bool) (type : String) (fields : List (FieldSlot R)) :
    Intake String (R × List String) where
  key _ n := do
    let (s, good) ← (textSlot "string").decode n ""
    return if good then some s else none
  entry name k v s := do
    let (r, done) := s
    match fields.find? (·.key == name) with
    | some f =>
      if done.contains name then
        report (.repeatedField k.line name type)
        return s
      else return (← f.decode v r, name :: done)
    | none =>
      if strict then report (.unknownField k.line name type)
      return s
  keys entries := do return (← keyValues contentSlot entries).filterMap Value.text?
  opening _ s := (s.1, [])

/-- A record. -/
def recordSlot {R : Type} (strict : Bool) (type : String) (fields : List (FieldSlot R)) : Slot R :=
  fun n old => do
    match n with
    | .map _ _ entries =>
      let ((r, _), good) ← (recordIntake strict type fields).take entries (old, [])
      return (r, good)
    | .scalar h style v =>
      match ← scalarValue h style v with
      | .null => return (old, false)
      | _ => mismatch type n old
    | n => mismatch type n old

/-! ## 9. Dictionaries -/

/-- A dictionary, with a flag that tells whether it was made for the mapping at hand.  A null value
is entered only for a key that is not there yet, or into such a dictionary.  Keys of their own type
differ from the keys of the mapping around, so a merged mapping may set those again. -/
def dictIntake {α β : Type} [BEq α] (key : Slot α) (freshKey : α) (value : Slot β) (fresh : β) :
    Intake α (List (α × β) × Bool) where
  key _ n := do
    let (a, good) ← key.decode n freshKey
    return if good then some a else none
  entry a _ v s := do
    let (d, made) := s
    let (b, good) ← value.decode v fresh
    return if good || (v.isNull && (made || !(d.any fun e => e.1 == a))) then
      (setEntry a b d, made) else s
  keys entries := do
    let _ ← keyValues contentSlot entries
    return []
  opening merged s := (s.1, s.2 && !merged)

/-- A dictionary, decoded over the one that was there. -/
def dictSlot {α β : Type} [BEq α] (type : String) (key : Slot α) (freshKey : α) (value : Slot β)
    (fresh : β) : Slot (List (α × β)) :=
  fun n old => do
    match n with
    | .map _ _ entries =>
      let ((d, _), good) ←
        (dictIntake key freshKey value fresh).take entries (old, old.isEmpty)
      return (d, good)
    | .scalar h style v =>
      match ← scalarValue h style v with
      | .null => return ([], true)
      | _ => mismatch type n old
    | n => mismatch type n old

end DocAudit.Yaml
