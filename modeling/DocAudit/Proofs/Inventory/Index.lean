import DocAudit.Proofs.Inventory.Scope
import DocAudit.Proofs.Source.Embedded

/-!
# What names refer to

A package looks types up by their name, and methods by their name and the name of their receiver.
Where one name is declared several times, the first declaration counts.

* `mem_firstsBy_iff`: of the values with one key the first is kept;
* `mem_types_iff` and `hasType_iff`: which declarations of types are looked up;
* `mem_promotedMethods_iff`: which methods a struct gets from the types it embeds;
* `Expr.localName?_or_isQualified`: an expression refers to a type of its own package by a bare name,
  to one of another package by a qualified name.
-/

namespace DocAudit.Source

/-! ## 1. The first of each key -/

section FirstsBy

variable {α : Type} {key : α → String} {x : α}

/-- The values of a list without those whose key stands before or in `seen`. -/
def firstsBy (key : α → String) (seen : List String) : List α → List α
  | [] => []
  | x :: xs =>
    if seen.contains (key x) then firstsBy key seen xs else x :: firstsBy key (key x :: seen) xs

/-- **Of the values with one key the first is kept.** -/
theorem mem_firstsBy_iff : ∀ {seen : List String} {xs : List α},
    x ∈ firstsBy key seen xs ↔ key x ∉ seen ∧ xs.find? (key · == key x) = some x
  | seen, [] => by simp [firstsBy]
  | seen, y :: ys => by
      rw [firstsBy, List.find?_cons]
      by_cases hkey : key y = key x
      · rw [hkey, beq_self_eq_true]
        by_cases hseen : key x ∈ seen
        · rw [if_pos (List.contains_iff_mem.mpr hseen), mem_firstsBy_iff]
          simp [hseen]
        · rw [if_neg (by simpa using hseen), List.mem_cons, mem_firstsBy_iff]
          simp [hseen, eq_comm]
      · have hne : x ≠ y := fun heq => hkey (heq ▸ rfl)
        rw [beq_false_of_ne hkey]
        split
        · exact mem_firstsBy_iff
        · rw [List.mem_cons, mem_firstsBy_iff]
          simp [hne, Ne.symm hkey]

end FirstsBy

theorem firstByName_eq_firstsBy : ∀ (seen : List String) (ts : List TypeDecl),
    firstByName seen ts = firstsBy TypeDecl.name seen ts
  | _, [] => rfl
  | seen, t :: ts => by
      rw [firstByName, firstsBy, firstByName_eq_firstsBy, firstByName_eq_firstsBy]

/-- The name of a declared method. -/
def MethodDecl.name (m : MethodDecl) : String := m.decl.name.text

theorem newMethods_eq_firstsBy : ∀ (seen : List String) (ms : List MethodDecl),
    Package.newMethods seen ms = firstsBy MethodDecl.name seen ms
  | _, [] => rfl
  | seen, m :: ms => by
      rw [Package.newMethods, firstsBy, newMethods_eq_firstsBy, newMethods_eq_firstsBy]
      rfl

namespace Package

variable {p : Package} {t u : TypeDecl} {m : MethodDecl} {type : String}

/-! ## 2. Types -/

/-- A file of the package declares a type of this name. -/
def DeclaresType (p : Package) (type : String) : Prop :=
  ∃ generated doc t, p.HoldsType generated doc t ∧ t.name.text = type

theorem declaresType_iff : p.DeclaresType type ↔ ∃ t ∈ p.typeDecls, t.name = type := by
  simp only [DeclaresType, holdsType_iff]
  constructor
  · rintro ⟨_, _, _, ⟨t, ht, rfl, rfl, rfl⟩, hname⟩
    exact ⟨t, ht, hname⟩
  · rintro ⟨t, ht, hname⟩
    exact ⟨_, _, t.spec, ⟨t, ht, rfl, rfl, rfl⟩, hname⟩

theorem DeclaresType.ne_empty (h : p.DeclaresType type) : type ≠ "" := by
  obtain ⟨_, _, t, -, rfl⟩ := h
  exact t.name.text_ne_empty

/-- **A name refers to the first declaration of a type with this name.** -/
theorem mem_types_iff : t ∈ p.types ↔ p.typeDecls.find? (·.name == t.name) = some t := by
  show t ∈ firstByName [] p.typeDecls ↔ _
  rw [firstByName_eq_firstsBy, mem_firstsBy_iff]
  exact and_iff_right List.not_mem_nil

theorem eq_of_mem_types (ht : t ∈ p.types) (hu : u ∈ p.types) (hname : t.name = u.name) :
    t = u := by
  rw [mem_types_iff] at ht hu
  rw [hname, hu] at ht
  exact (Option.some.inj ht).symm

theorem exists_mem_types_iff : (∃ t ∈ p.types, t.name = type) ↔ p.DeclaresType type := by
  rw [declaresType_iff]
  constructor
  · rintro ⟨t, ht, hname⟩
    exact ⟨t, mem_of_mem_firstByName ht, hname⟩
  · rintro ⟨t, ht, rfl⟩
    have hfound : (p.typeDecls.find? (·.name == t.name)).isSome = true :=
      List.find?_isSome.mpr ⟨t, ht, beq_self_eq_true _⟩
    obtain ⟨u, hu⟩ := Option.isSome_iff_exists.mp hfound
    have hname : u.name = t.name := by simpa using List.find?_some hu
    exact ⟨u, mem_types_iff.mpr (hname ▸ hu), hname⟩

theorem hasType_iff : p.hasType type = true ↔ p.DeclaresType type := by
  simp only [hasType, List.any_eq_true, beq_iff_eq, exists_mem_types_iff]

/-! ## 3. Methods of embedded types -/

/-- The key of the method `name` of the type `type`. -/
def methodKey (p : Package) (type name : String) : ElementKey :=
  ⟨.method, p.importPath ++ "." ++ (type ++ "." ++ name)⟩

/-- The names of the types that a struct embeds, without the packages of those that have one. -/
def embeddedNames (t : TypeDecl) : List String :=
  (structFields t).filterMap fun f => if f.names.isEmpty then some f.type.baseName else none

theorem mem_embeddedNames_iff :
    type ∈ embeddedNames t ↔ ∃ f ∈ structFields t, f.names = [] ∧ f.type.baseName = type := by
  simp only [embeddedNames, List.mem_filterMap, Option.ite_none_right_eq_some,
    List.isEmpty_iff, Option.some.injEq]

/-- The methods of the types of the package that bear the name of an embedded type. -/
def suppliedMethods (p : Package) (t : TypeDecl) : List MethodDecl :=
  ((embeddedNames t).filter p.hasType).flatMap p.methodsOf

/-- **The methods that a struct gets from the types it embeds**: the first with its name, if the
struct declares none with this name. -/
theorem mem_promotedMethods_iff :
    m ∈ p.promotedMethods t ↔ (∀ m' ∈ p.methodsOf t.name, m'.name ≠ m.name) ∧
      (p.suppliedMethods t).find? (·.name == m.name) = some m := by
  show m ∈ newMethods ((p.methodsOf t.name).map MethodDecl.name) (p.suppliedMethods t) ↔ _
  rw [newMethods_eq_firstsBy, mem_firstsBy_iff]
  simp only [List.mem_map, not_exists, not_and, ne_eq]

end Package

/-! ## 4. References to types of the package -/

/-- The names of the type parameters of a declaration. -/
def paramNames (typeParams : List Field) : List String :=
  typeParams.flatMap fun f => f.names.map (·.text)

/-- The name by which an expression refers to a type of its own package: without pointers, brackets
and type arguments, it is a name and not qualified by a package. -/
def Expr.localName? : Expr → Option String
  | .ident n => some n.text
  | .star x => x.localName?
  | .index x _ => x.localName?
  | .paren x => x.localName?
  | _ => none

/-- The expression refers to a type of another package: without pointers, brackets and type
arguments, it is a name that is qualified by a package. -/
def Expr.isQualified : Expr → Bool
  | .star x => x.isQualified
  | .index x _ => x.isQualified
  | .paren x => x.isQualified
  | .select _ _ => true
  | _ => false

theorem Expr.baseName_of_localName? {x : Expr} {name : String} (h : x.localName? = some name) :
    x.baseName = name := by
  fun_induction Expr.localName? x with
  | case1 n => exact Option.some.inj h
  | case2 x ih => exact ih h
  | case3 x args ih => exact ih h
  | case4 x ih => exact ih h
  | case5 => cases h

theorem Expr.localName?_of_isQualified {x : Expr} (h : x.isQualified = true) :
    x.localName? = none := by
  fun_induction Expr.isQualified x with
  | case1 x ih => exact ih h
  | case2 x args ih => exact ih h
  | case3 x ih => exact ih h
  | case4 => rfl
  | case5 => cases h

/-- **What refers to a type refers to one of its own package or of another one.** -/
theorem Expr.localName?_or_isQualified {x : Expr} (h : x.baseName ≠ "") :
    x.localName? = some x.baseName ∨ x.isQualified = true := by
  fun_induction Expr.baseName x with
  | case1 n => exact .inl rfl
  | case2 x ih => exact ih h
  | case3 x args ih => exact ih h
  | case4 x ih => exact ih h
  | case5 x n => exact .inr rfl
  | case6 => exact absurd rfl h

end DocAudit.Source
