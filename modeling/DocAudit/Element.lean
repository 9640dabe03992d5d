import DocAudit.Severity

/-!
# Elements

An element is a declared thing that the audit looks at.  Its kind, its visibility and the other
classes are words, because a configuration or a caller may name one that the library does not know;
the known words are listed in `all`.
-/

namespace DocAudit

/-! ## 1. Classes -/

/-- What an element is. -/
structure Kind where
  text : String
deriving Repr, DecidableEq, Inhabited

namespace Kind

/-- A type. -/
def type : Kind := ⟨"TYPE"⟩

/-- A named field of a struct. -/
def field : Kind := ⟨"FIELD"⟩

/-- A method of a type or an interface. -/
def method : Kind := ⟨"METHOD"⟩

/-- A function that makes a value of a type of its package. -/
def constructor : Kind := ⟨"CONSTRUCTOR"⟩

/-- An embedded field of a struct. -/
def recordComponent : Kind := ⟨"RECORD_COMPONENT"⟩

/-- A function. -/
def function : Kind := ⟨"FUNCTION"⟩

/-- A constant. -/
def constant : Kind := ⟨"CONSTANT"⟩

/-- A variable. -/
def var : Kind := ⟨"VARIABLE"⟩

/-- The known kinds. -/
def all : List Kind :=
  [type, field, method, constructor, recordComponent, function, constant, var]

end Kind

/-- How an element is a member of its package or type. -/
structure MemberKind where
  text : String
deriving Repr, DecidableEq, Inhabited

namespace MemberKind

/-- A named field of a struct. -/
def field : MemberKind := ⟨"FIELD"⟩

/-- A method. -/
def method : MemberKind := ⟨"METHOD"⟩

/-- A constructor. -/
def constructor : MemberKind := ⟨"CONSTRUCTOR"⟩

/-- An embedded field of a struct. -/
def recordComponent : MemberKind := ⟨"RECORD_COMPONENT"⟩

/-- A function. -/
def function : MemberKind := ⟨"FUNCTION"⟩

/-- A constant. -/
def constant : MemberKind := ⟨"CONSTANT"⟩

/-- A variable. -/
def var : MemberKind := ⟨"VARIABLE"⟩

/-- The known member kinds. -/
def all : List MemberKind :=
  [field, method, constructor, recordComponent, function, constant, var]

end MemberKind

/-- How a method gives access to a field. -/
structure AccessorKind where
  text : String
deriving Repr, DecidableEq, Inhabited

namespace AccessorKind

/-- Reads a value. -/
def getter : AccessorKind := ⟨"GETTER"⟩

/-- Writes a value. -/
def setter : AccessorKind := ⟨"SETTER"⟩

/-- Reads a truth value. -/
def booleanGetter : AccessorKind := ⟨"BOOLEAN_GETTER"⟩

/-- The known accessor kinds. -/
def all : List AccessorKind := [getter, setter, booleanGetter]

end AccessorKind

/-- From where an element can be used. -/
structure Visibility where
  text : String
deriving Repr, DecidableEq, Inhabited

namespace Visibility

/-- From everywhere. -/
def pub : Visibility := ⟨"PUBLIC"⟩

/-- From the code around an internal directory. -/
def prot : Visibility := ⟨"PROTECTED"⟩

/-- From its own package. -/
def pkg : Visibility := ⟨"PACKAGE"⟩

/-- From its own declaration. -/
def priv : Visibility := ⟨"PRIVATE"⟩

/-- The known visibilities, widest first. -/
def all : List Visibility := [pub, prot, pkg, priv]

/-- How wide a visibility is. -/
def rank (v : Visibility) : Nat :=
  if v == pub then 3 else if v == prot then 2 else if v == pkg then 1 else 0

/-- The narrower of two visibilities. -/
def min (a b : Visibility) : Visibility := if a.rank < b.rank then a else b

end Visibility

/-- What an annotation policy does to a finding. -/
structure Effect where
  text : String
deriving Repr, DecidableEq, Inhabited

namespace Effect

/-- Drops the finding. -/
def suppress : Effect := ⟨"SUPPRESS"⟩

/-- Drops the finding if it comes from one of some rules. -/
def suppressRules : Effect := ⟨"SUPPRESS_RULES"⟩

/-- Gives the finding a severity. -/
def setSeverity : Effect := ⟨"SET_SEVERITY"⟩

/-- Moves the finding's severity along the scale. -/
def shiftSeverity : Effect := ⟨"SHIFT_SEVERITY"⟩

/-- The known effects. -/
def all : List Effect := [suppress, suppressRules, setSeverity, shiftSeverity]

end Effect

/-! ## 2. Elements and issues -/

/-- What tells elements apart. -/
structure ElementKey where
  kind : Kind
  qualifiedName : String
deriving Repr, DecidableEq, Inhabited

/-- A declared thing. -/
structure Element where
  kind : Kind
  /-- The import path of its package and its name below it. -/
  qualifiedName : String
  /-- The name of its package and its name below it. -/
  displayName : String
  name : String
  sourceFile : String
  line : Int
  visibility : Visibility
  memberKinds : List MemberKind
  accessorKinds : List AccessorKind
  /-- The import path of its package. -/
  package : String
  signature : String
  annotations : List String
deriving Repr, DecidableEq, Inhabited

namespace Element

/-- The key of an element. -/
def key (e : Element) : ElementKey := ⟨e.kind, e.qualifiedName⟩

/-- Whether an element is a member of a kind. -/
def hasMemberKind (e : Element) (k : MemberKind) : Bool := e.memberKinds.contains k

/-- Whether an element is an accessor of a kind. -/
def hasAccessorKind (e : Element) (k : AccessorKind) : Bool := e.accessorKinds.contains k

end Element

/-- A reported finding. -/
structure Issue where
  severity : Severity
  ruleId : String
  message : String
  element : Element
deriving Repr, DecidableEq, Inhabited

end DocAudit
