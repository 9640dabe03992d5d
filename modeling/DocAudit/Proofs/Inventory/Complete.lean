import DocAudit.Proofs.Inventory.Index

/-!
# What a package declares is listed

A declaration that a scope admits has an element in the inventory, wherever in the files it stands.
The one exception is a struct or interface type in round brackets, of whose members only the
declared methods are listed.

* `Admitted` holds of the traits of the declarations that a scope admits, for any order of the files
  and of the declarations in them;
* `exists_candidate_of_admitted`: each of them is a candidate, if it is not written in brackets;
* `listed_of_admitted`: so its key is in the inventory of every rearrangement of the package.
-/

namespace DocAudit.Source

theorem Expr.unparen_eq_or (x : Expr) :
    x.unparen = x ∨ ∃ y, x = .paren y ∧ x.unparen = y.unparen := by
  cases x with
  | paren y => exact .inr ⟨y, rfl, rfl⟩
  | _ => exact .inl rfl

namespace Package

open Policy

variable {p q : Package} {s : Scope} {c : Candidate} {t : TypeDecl} {x : Traits}
  {generated : Bool} {doc : Option CommentGroup} {spec : TypeSpec} {type : String} {d : FuncDecl}

/-! ## 1. Declarations in any order -/

/-- The traits of a member of a type; it is at most as visible as the type. -/
def memberTraits (p : Package) (owner : String) (kind : Kind) (name : String)
    (accessorKinds : List AccessorKind) (annotations : List String) : Traits where
  kind := kind
  qualifiedName := p.importPath ++ "." ++ (owner ++ "." ++ name)
  name := name
  visibility := (p.visibilityOf name).min (p.visibilityOf owner)
  accessorKinds := accessorKinds
  annotations := annotations

/-- The traits of a function, constant or variable. -/
def topTraits (p : Package) (kind : Kind) (name : String) (annotations : List String) :
    Traits where
  kind := kind
  qualifiedName := p.importPath ++ "." ++ name
  name := name
  visibility := p.visibilityOf name
  accessorKinds := []
  annotations := annotations

/-- The members that the struct or interface type `literal` writes, as members of `owner`. -/
inductive LiteralMember (p : Package) (generated : Bool) (owner : String) (literal : Expr) :
    Traits → Prop
  | field {fs : List Field} {f : Field} {n : Name} :
      literal = .struct fs → f ∈ fs → n ∈ f.names → n.text ≠ "_" →
      LiteralMember p generated owner literal
        (p.memberTraits owner .field n.text [] (annotations (f.doc <|> f.trail) generated))
  | embedded {fs : List Field} {f : Field} :
      literal = .struct fs → f ∈ fs → f.names = [] →
      LiteralMember p generated owner literal
        (p.memberTraits owner .recordComponent f.type.baseName []
          (annotations (f.doc <|> f.trail) generated))
  | method {fs : List Field} {f : Field} {sig : Signature} {n : Name} :
      literal = .interface fs → f ∈ fs → f.type = .func sig → n ∈ f.names →
      LiteralMember p generated owner literal
        (p.memberTraits owner .method n.text (accessorKinds n.text sig [])
          (annotations (f.doc <|> f.trail) generated))

/-- The lower-case names of the fields of a struct. -/
def structWords (t : TypeSpec) : List String :=
  match t.type with
  | .struct fs => fs.flatMap fun f => f.names.map fun id => Text.lowerText id.text
  | _ => []

/-- The traits of a method as a member of a type that is declared as `t`. -/
def methodTraits (p : Package) (t : TypeSpec) (generated : Bool) (d : FuncDecl) : Traits :=
  p.memberTraits t.name.text .method d.name.text
    (accessorKinds d.name.text d.sig (structWords t)) (annotations d.doc generated)

/-- A function is named `New…`, and its first result refers to a type of the package. -/
def Constructs (p : Package) (d : FuncDecl) : Prop :=
  Text.hasStart d.name.text "New" = true ∧ ∃ r rs, d.sig.results = r :: rs ∧
    ∃ generated doc t, p.HoldsType generated doc t ∧ t.name.text = r.type.baseName

/-- A function of this name can be called. -/
def Callable (p : Package) (name : String) : Prop :=
  name ≠ "init" ∧ name ≠ "_" ∧ ¬ (name = "main" ∧ p.name = "main")

/-- The functions, constants and variables of a package. -/
inductive TopLevel (p : Package) : Traits → Prop
  | constructor {generated : Bool} {d : FuncDecl} :
      p.Holds generated (.func d) → d.receiver = none → p.Callable d.name.text → p.Constructs d →
      TopLevel p (p.topTraits .constructor d.name.text (annotations d.doc generated))
  | function {generated : Bool} {d : FuncDecl} :
      p.Holds generated (.func d) → d.receiver = none → p.Callable d.name.text →
      ¬ p.Constructs d →
      TopLevel p (p.topTraits .function d.name.text (annotations d.doc generated))
  | value {generated : Bool} {kind : ValueKind} {doc : Option CommentGroup}
      {specs : List ValueSpec} {v : ValueSpec} {n : Name} :
      p.Holds generated (.values kind doc specs) → v ∈ specs → n ∈ v.names → n.text ≠ "_" →
      TopLevel p (p.topTraits (valueKind kind) n.text
        (annotations (v.doc <|> doc <|> v.trail) generated))

/-- The traits of the declarations of a package that a scope admits. -/
inductive Admitted (p : Package) (s : Scope) : Traits → Prop
  | type {generated : Bool} {doc : Option CommentGroup} {t : TypeSpec} :
      p.HoldsType generated doc t → p.AdmitsType s t (p.typeTraits generated doc t) →
      Admitted p s (p.typeTraits generated doc t)
  | literal {generated : Bool} {doc : Option CommentGroup} {t : TypeSpec} {x : Traits} :
      p.HoldsType generated doc t → p.AdmitsType s t (p.typeTraits generated doc t) →
      p.LiteralMember generated t.name.text t.type.unparen x → s.AdmitsMember x →
      Admitted p s x
  | method {generated : Bool} {doc : Option CommentGroup} {t : TypeSpec} {generated' : Bool}
      {d : FuncDecl} :
      p.HoldsType generated doc t → p.AdmitsType s t (p.typeTraits generated doc t) →
      p.HoldsMethod generated' t.name.text d → s.AdmitsMember (p.methodTraits t generated' d) →
      Admitted p s (p.methodTraits t generated' d)
  | top {x : Traits} : p.TopLevel x → s.AdmitsMember x → Admitted p s x

/-- The member is written in a struct or interface type that stands in brackets. -/
def Bracketed (p : Package) (x : Traits) : Prop :=
  ∃ generated doc t y, p.HoldsType generated doc t ∧ t.type = .paren y ∧
    p.LiteralMember generated t.name.text y.unparen x

/-- All files of the package have been parsed. -/
def Parsed (p : Package) : Prop := ∀ f ∈ p.files, ∃ path text, File.parse? path text = some f

/-- Types have different names. -/
def DistinctTypes (p : Package) : Prop := (p.typeDecls.map TypeDecl.name).Nodup

/-! ## 2. Types of a package -/

theorem firstByName_of_nodup : ∀ {seen : List String} {ts : List TypeDecl},
    (∀ t ∈ ts, t.name ∉ seen) → (ts.map TypeDecl.name).Nodup → firstByName seen ts = ts
  | _, [], _, _ => rfl
  | seen, t :: ts, hseen, hnodup => by
      rw [List.map_cons, List.nodup_cons] at hnodup
      have ht : seen.contains t.name = false := by
        simpa using hseen t List.mem_cons_self
      have hseen' : ∀ u ∈ ts, u.name ∉ t.name :: seen := by
        intro u hu hmem
        rcases List.mem_cons.mp hmem with heq | hmem
        · exact hnodup.1 (heq ▸ List.mem_map_of_mem hu)
        · exact hseen u (List.mem_cons_of_mem t hu) hmem
      rw [firstByName, ht, if_neg Bool.false_ne_true, firstByName_of_nodup hseen' hnodup.2]

/-- Types with different names are all indexed. -/
theorem DistinctTypes.types_eq (h : p.DistinctTypes) : p.types = p.typeDecls :=
  firstByName_of_nodup (fun _ _ => List.not_mem_nil) h

theorem isConstructor_iff : p.isConstructor d = true ↔ p.Constructs d := by
  unfold isConstructor Constructs
  rw [Bool.and_eq_true]
  refine and_congr_right fun _ => ?_
  cases hresults : d.sig.results with
  | nil => simp
  | cons r rs =>
    dsimp only
    rw [hasType_iff]
    constructor
    · exact fun ht => ⟨r, rs, rfl, ht⟩
    · rintro ⟨_, _, heq, ht⟩
      cases heq
      exact ht

theorem isUncallable_eq_false_iff {name : String} :
    p.isUncallable name = false ↔ p.Callable name := by
  simp only [isUncallable, Callable, ← Bool.not_eq_true, Bool.or_eq_true, Bool.and_eq_true,
    beq_iff_eq, not_or, and_assoc, ne_eq]

/-! ## 3. Declarations are candidates -/

theorem exists_mem_fieldCandidates {f : Field} {n : Name} (hn : n ∈ f.names)
    (hblank : n.text ≠ "_") :
    ∃ c ∈ p.fieldCandidates .every t f, c.element.traits =
      p.memberTraits t.name .field n.text []
        (annotations (f.doc <|> f.trail) t.file.generated) := by
  have hnames : f.names.isEmpty = false :=
    List.isEmpty_eq_false_iff.mpr (List.ne_nil_of_mem hn)
  unfold fieldCandidates
  dsimp only
  rw [hnames, if_neg Bool.false_ne_true]
  refine ⟨_, List.mem_ite_nil_right.mpr ⟨rfl, List.mem_map_of_mem ?_⟩, rfl⟩
  exact List.mem_filter.mpr ⟨hn, bne_iff_ne.mpr hblank⟩

theorem exists_mem_fieldCandidates_embedded {f : Field} (hnames : f.names = [])
    (hname : f.type.Named) :
    ∃ c ∈ p.fieldCandidates .every t f, c.element.traits =
      p.memberTraits t.name .recordComponent f.type.baseName []
        (annotations (f.doc <|> f.trail) t.file.generated) := by
  unfold fieldCandidates
  dsimp only
  rw [hnames, List.isEmpty_nil, if_pos rfl]
  refine ⟨_, List.mem_ite_nil_right.mpr ⟨?_, List.mem_singleton_self _⟩, rfl⟩
  exact Bool.and_eq_true_iff.mpr ⟨rfl, bne_iff_ne.mpr hname⟩

theorem exists_mem_methodCandidate (f : File) (n : Name) (sig : Signature) (fields : List String)
    (doc : Option CommentGroup) (generated : Bool) :
    ∃ c ∈ p.methodCandidate .every t f n sig fields doc generated, c.element.traits =
      p.memberTraits t.name .method n.text (accessorKinds n.text sig fields)
        (annotations doc generated) := by
  unfold methodCandidate
  refine ⟨_, List.mem_ite_nil_right.mpr ⟨?_, List.mem_singleton_self _⟩, rfl⟩
  exact Bool.and_eq_true_iff.mpr ⟨rfl, accessorsAllowed_every _⟩

theorem exists_mem_membersOfType_literal {inherited : Bool} (hembed : t.spec.type.NamesEmbedded)
    (hx : p.LiteralMember t.file.generated t.name t.spec.type x) :
    ∃ c ∈ p.membersOfType (wholeScope inherited) t, c.element.traits = x := by
  cases hx with
  | @field fs f n hliteral hf hn hblank =>
    obtain ⟨c, hc, htraits⟩ := exists_mem_fieldCandidates (p := p) (t := t) hn hblank
    exact ⟨c, mem_membersOfType_iff.mpr (.inl ⟨fs, hliteral, f, hf, hc⟩), htraits⟩
  | @embedded fs f hliteral hf hnames =>
    obtain ⟨c, hc, htraits⟩ := exists_mem_fieldCandidates_embedded (p := p) (t := t) hnames
      (hembed fs hliteral f hf hnames)
    exact ⟨c, mem_membersOfType_iff.mpr (.inl ⟨fs, hliteral, f, hf, hc⟩), htraits⟩
  | @method fs f sig n hliteral hf hsig hn =>
    obtain ⟨c, hc, htraits⟩ := exists_mem_methodCandidate (p := p) (t := t) t.file n sig []
      (f.doc <|> f.trail) t.file.generated
    have hinterface : c ∈ p.interfaceCandidates .every t f := by
      unfold interfaceCandidates
      rw [hsig]
      exact List.mem_flatMap.mpr ⟨n, hn, hc⟩
    exact ⟨c, mem_membersOfType_iff.mpr (.inr (.inl ⟨fs, hliteral, f, hf, hinterface⟩)), htraits⟩

theorem exists_mem_membersOfType_method {inherited : Bool}
    (hd : p.HoldsMethod generated t.name d) :
    ∃ c ∈ p.membersOfType (wholeScope inherited) t,
      c.element.traits = p.methodTraits t.spec generated d := by
  obtain ⟨m, hm, rfl, rfl⟩ := holdsMethod_iff.mp hd
  obtain ⟨c, hc, htraits⟩ := exists_mem_methodCandidate (p := p) (t := t) m.file m.decl.name
    m.decl.sig (fieldNames t) m.decl.doc m.file.generated
  refine ⟨c, mem_membersOfType_iff.mpr (.inr (.inr (.inl ⟨m, hm, hc⟩))), htraits.trans ?_⟩
  have hwords : fieldNames t = structWords t.spec := by
    unfold fieldNames structFields structWords
    cases t.spec.type <;> rfl
  rw [hwords]
  rfl

theorem exists_mem_functionCandidate (f : File) (hcallable : p.Callable d.name.text) :
    ∃ c ∈ p.functionCandidate .every f d, c.element.traits =
      p.topTraits (if p.isConstructor d then .constructor else .function) d.name.text
        (annotations d.doc f.generated) := by
  unfold functionCandidate
  refine ⟨_, List.mem_ite_nil_left.mpr ⟨?_, List.mem_singleton_self _⟩, rfl⟩
  rw [isUncallable_eq_false_iff.mpr hcallable, Bool.false_or]
  cases p.isConstructor d <;> exact Bool.false_ne_true

theorem exists_mem_declCandidates (hx : p.TopLevel x) :
    ∃ f ∈ p.files, ∃ d ∈ f.decls, ∃ c ∈ p.declCandidates .every f d, c.element.traits = x := by
  have hfunc : ∀ {f : File} {d : FuncDecl}, d.receiver = none → p.Callable d.name.text →
      ∃ c ∈ p.declCandidates .every f (.func d), c.element.traits =
        p.topTraits (if p.isConstructor d then .constructor else .function) d.name.text
          (annotations d.doc f.generated) := by
    intro f d hreceiver hcallable
    obtain ⟨c, hc, htraits⟩ := exists_mem_functionCandidate (p := p) f hcallable
    refine ⟨c, List.mem_ite_nil_right.mpr ⟨?_, hc⟩, htraits⟩
    rw [hreceiver]
    rfl
  cases hx with
  | @constructor generated d hd hreceiver hcallable hconstructs =>
    obtain ⟨f, hf, rfl, hd⟩ := hd
    obtain ⟨c, hc, htraits⟩ := hfunc (f := f) hreceiver hcallable
    rw [isConstructor_iff.mpr hconstructs, if_pos rfl] at htraits
    exact ⟨f, hf, _, hd, c, hc, htraits⟩
  | @function generated d hd hreceiver hcallable hconstructs =>
    obtain ⟨f, hf, rfl, hd⟩ := hd
    obtain ⟨c, hc, htraits⟩ := hfunc (f := f) hreceiver hcallable
    rw [← isConstructor_iff] at hconstructs
    rw [if_neg hconstructs] at htraits
    exact ⟨f, hf, _, hd, c, hc, htraits⟩
  | @value generated kind doc specs v n hd hv hn hblank =>
    obtain ⟨f, hf, rfl, hd⟩ := hd
    have hname : n ∈ v.names.filter (·.text != "_") :=
      List.mem_filter.mpr ⟨hn, bne_iff_ne.mpr hblank⟩
    refine ⟨f, hf, _, hd, ?_⟩
    cases kind <;>
      exact ⟨_, List.mem_flatMap.mpr ⟨v, hv, List.mem_map_of_mem hname⟩, rfl⟩

/-- A type that the package declares, in its index. -/
theorem DistinctTypes.exists_mem_types (h : p.DistinctTypes)
    (hspec : p.HoldsType generated doc spec) :
    ∃ t ∈ p.types, t.spec = spec ∧ t.declDoc = doc ∧ t.file.generated = generated := by
  rw [h.types_eq]
  exact holdsType_iff.mp hspec

/-- No struct of the package embeds a type without a name. -/
def NamesEmbedded (p : Package) : Prop := ∀ generated d, p.Holds generated d → d.NamesEmbedded

theorem Parsed.namesEmbedded (h : p.Parsed) : p.NamesEmbedded := by
  rintro generated d ⟨f, hf, -, hd⟩
  obtain ⟨path, text, hparse⟩ := h f hf
  exact namesEmbedded_of_parse? hparse d hd

theorem parsed_of_text (importPath path text : String) :
    (⟨importPath, (File.parse? path text).toList⟩ : Package).Parsed :=
  fun _ hf => ⟨path, text, Option.mem_toList.mp hf⟩

theorem Parsed.append {importPath : String} {fs gs : List File}
    (hfs : (⟨importPath, fs⟩ : Package).Parsed) (hgs : (⟨importPath, gs⟩ : Package).Parsed) :
    (⟨importPath, fs ++ gs⟩ : Package).Parsed := by
  intro f hf
  rcases List.mem_append.mp hf with hf | hf
  · exact hfs f hf
  · exact hgs f hf

/-- **A declaration that a scope admits is a candidate**, unless it is written in brackets. -/
theorem exists_candidate_of_admitted (hdistinct : p.DistinctTypes) (hembed : p.NamesEmbedded)
    (hx : p.Admitted s x) : (∃ c ∈ p.candidates s, c.element.traits = x) ∨ p.Bracketed x := by
  -- A member of an admitted type is a candidate if it is one of the whole package.
  have hmember : ∀ {t : TypeDecl}, t ∈ p.types →
      p.AdmitsType s t.spec (p.typeTraits t.file.generated t.declDoc t.spec) →
      s.AdmitsMember x →
      (∃ c ∈ p.membersOfType (wholeScope s.inherited) t, c.element.traits = x) →
      ∃ c ∈ p.candidates s, c.element.traits = x := by
    rintro t ht htype hx ⟨c, hc, rfl⟩
    exact ⟨c, mem_candidates_iff_admits.mpr (.inl ⟨t, ht, htype, .inr ⟨hc, hx⟩⟩), rfl⟩
  cases hx with
  | type hspec htype =>
    obtain ⟨t, ht, rfl, rfl, rfl⟩ := hdistinct.exists_mem_types hspec
    exact .inl ⟨_, mem_candidates_iff_admits.mpr (.inl ⟨t, ht, htype, .inl rfl⟩), rfl⟩
  | @literal generated doc spec x hspec htype hliteral hx =>
    rcases Expr.unparen_eq_or spec.type with heq | ⟨y, hparen, heq⟩
    · rw [heq] at hliteral
      obtain ⟨t, ht, rfl, rfl, rfl⟩ := hdistinct.exists_mem_types hspec
      obtain ⟨specs, hd, ht'⟩ := hspec
      have hnames : t.spec.type.NamesEmbedded := hembed _ _ hd _ _ rfl _ ht'
      exact .inl (hmember ht htype hx (exists_mem_membersOfType_literal hnames hliteral))
    · rw [heq] at hliteral
      exact .inr ⟨generated, doc, spec, y, hspec, hparen, hliteral⟩
  | method hspec htype hd hx =>
    obtain ⟨t, ht, rfl, rfl, rfl⟩ := hdistinct.exists_mem_types hspec
    exact .inl (hmember ht htype hx (exists_mem_membersOfType_method hd))
  | top htop hx =>
    obtain ⟨f, hf, d, hd, c, hc, rfl⟩ := exists_mem_declCandidates htop
    exact .inl ⟨c, mem_candidates_iff_admits.mpr (.inr ⟨⟨f, hf, d, hd, hc⟩, hx⟩), rfl⟩

/-! ## 4. Types in brackets -/

theorem LiteralMember.named {owner : String} {literal : Expr}
    (hx : p.LiteralMember generated owner literal x) :
    x.kind ∈ memberKinds ∧ x.qualifiedName = p.importPath ++ "." ++ (owner ++ "." ++ x.name) ∧
      '.' ∉ x.name.toList := by
  cases hx with
  | @field _ _ n => exact ⟨by simp [memberKinds, memberTraits], rfl, n.dot_notMem⟩
  | @embedded _ f => exact ⟨by simp [memberKinds, memberTraits], rfl, f.type.dot_notMem_baseName⟩
  | @method _ _ _ n => exact ⟨by simp [memberKinds, memberTraits], rfl, n.dot_notMem⟩

/-- Of a type in brackets only the declared methods are candidates. -/
theorem method_of_mem_membersOfType {y : Expr} (hparen : t.spec.type = .paren y)
    (hc : c ∈ p.membersOfType s t) :
    c.element.kind = .method ∧
      ∃ generated d, p.HoldsMethod generated t.name d ∧ d.name.text = c.element.name := by
  rcases mem_membersOfType_iff.mp hc with ⟨fs, htype, -⟩ | ⟨fs, htype, -⟩ | ⟨m, hm, hc⟩ |
    ⟨-, m, hm, -⟩
  · rw [hparen] at htype
    cases htype
  · rw [hparen] at htype
    cases htype
  · have heq := List.mem_singleton.mp (List.mem_ite_nil_right.mp hc).2
    subst heq
    exact ⟨rfl, _, m.decl, holdsMethod_iff.mpr ⟨m, hm, rfl, rfl⟩, rfl⟩
  · simp [promotedMethods, structFields, hparen, newMethods] at hm

/-- **A member that is written in brackets has no candidate**, unless a method of its type is
declared under its name. -/
theorem method_of_bracketed (hdistinct : p.DistinctTypes) (hx : p.Bracketed x)
    (hc : c ∈ p.candidates s) (hkey : c.element.key = x.key) :
    x.kind = .method ∧ ∃ generated type d, p.HoldsMethod generated type d ∧
      x.qualifiedName = p.importPath ++ "." ++ (type ++ "." ++ d.name.text) := by
  obtain ⟨generated, doc, spec, y, hspec, hparen, hliteral⟩ := hx
  obtain ⟨hkind, hname, hdot⟩ := hliteral.named
  have hckind : c.element.kind = x.kind := congrArg ElementKey.kind hkey
  have hcname : c.element.qualifiedName = x.qualifiedName := congrArg ElementKey.qualifiedName hkey
  have htop : ¬ p.TopNamed c.element :=
    fun h => notMem_memberKinds _ h.kind (hckind ▸ hkind)
  obtain ⟨u, hu, rfl, rfl, rfl⟩ := hdistinct.exists_mem_types hspec
  rcases mem_candidates_iff.mp hc with ⟨t, ht, -, rfl | ⟨hc, -⟩⟩ | ⟨⟨f, -, d, -, hc⟩, -⟩
  · exact absurd (topNamed_typeCandidate t) htop
  · have hnamed := memberNamed_of_mem_membersOfType hc
    have hboth := hcname
    rw [hnamed.qualifiedName, hname] at hboth
    obtain ⟨-, howner, -⟩ := eq_of_two_dots t.spec.name.dot_notMem u.spec.name.dot_notMem
      hnamed.dot_notMem hdot hboth
    have htype : t = u := by
      rw [hdistinct.types_eq] at ht hu
      exact List.inj_on_of_nodup_map hdistinct ht hu howner
    subst htype
    obtain ⟨hmethod, generated', d, hd, hdname⟩ := method_of_mem_membersOfType hparen hc
    refine ⟨hckind.symm.trans hmethod, generated', t.name, d, hd, ?_⟩
    rw [← hcname, hnamed.qualifiedName, hdname]
  · exact absurd (topNamed_of_mem_declCandidates hc) htop

/-! ## 5. Rearranged packages -/

/-- The declarations of a package, each with the flag of its file. -/
def holdings (p : Package) : List (Bool × Decl) :=
  p.files.flatMap fun f => f.decls.map fun d => (f.generated, d)

/-- The package `q` has the declarations of `p`, in any files and in any order; a declaration of a
machine-written file stays in one. -/
structure Rearranged (p q : Package) : Prop where
  importPath : q.importPath = p.importPath
  name : q.name = p.name
  holdings : q.holdings.Perm p.holdings

theorem holds_iff {d : Decl} : p.Holds generated d ↔ (generated, d) ∈ p.holdings := by
  simp only [Holds, holdings, List.mem_flatMap, List.mem_map, Prod.mk.injEq]
  constructor
  · rintro ⟨f, hf, hgenerated, hd⟩
    exact ⟨f, hf, d, hd, hgenerated, rfl⟩
  · rintro ⟨f, hf, d, hd, hgenerated, rfl⟩
    exact ⟨f, hf, hgenerated, hd⟩

/-- The names of the types that a declaration declares. -/
def typeNames : Decl → List String
  | .types _ specs => specs.map (·.name.text)
  | _ => []

theorem names_typeDecls (p : Package) :
    p.typeDecls.map TypeDecl.name = p.holdings.flatMap fun h => typeNames h.2 := by
  have hdecl : ∀ (f : File) (d : Decl), (typesOfDecl f d).map TypeDecl.name = typeNames d := by
    intro f d
    cases d with
    | types doc specs => exact List.map_map
    | _ => rfl
  simp only [typeDecls, holdings, List.map_flatMap, hdecl, List.flatMap_assoc, List.flatMap_map]

namespace Rearranged

variable (h : p.Rearranged q)

include h

theorem holds {d : Decl} (hd : p.Holds generated d) : q.Holds generated d :=
  holds_iff.mpr (h.holdings.mem_iff.mpr (holds_iff.mp hd))

theorem symm : q.Rearranged p := ⟨h.importPath.symm, h.name.symm, h.holdings.symm⟩

theorem distinctTypes (hdistinct : p.DistinctTypes) : q.DistinctTypes := by
  unfold DistinctTypes at *
  rw [names_typeDecls] at *
  exact (h.holdings.flatMap_right _).nodup_iff.mpr hdistinct

theorem namesEmbedded (hembed : p.NamesEmbedded) : q.NamesEmbedded :=
  fun generated d hd => hembed generated d (h.symm.holds hd)

theorem visibilityOf (name : String) : q.visibilityOf name = p.visibilityOf name := by
  unfold Package.visibilityOf
  rw [h.name, h.importPath]

theorem holdsType (ht : p.HoldsType generated doc spec) : q.HoldsType generated doc spec := by
  obtain ⟨specs, hd, ht⟩ := ht
  exact ⟨specs, h.holds hd, ht⟩

theorem holdsMethod (hd : p.HoldsMethod generated type d) : q.HoldsMethod generated type d :=
  ⟨h.holds hd.1, hd.2⟩

theorem typeTraits : q.typeTraits generated doc spec = p.typeTraits generated doc spec := by
  unfold Package.typeTraits
  rw [h.visibilityOf, h.importPath]

theorem memberTraits : q.memberTraits = p.memberTraits := by
  funext owner kind name accessors notes
  unfold Package.memberTraits
  rw [h.visibilityOf, h.visibilityOf, h.importPath]

theorem topTraits : q.topTraits = p.topTraits := by
  funext kind name notes
  unfold Package.topTraits
  rw [h.visibilityOf, h.importPath]

theorem admitsType (ht : p.AdmitsType s spec x) : q.AdmitsType s spec x where
  kind := by
    refine ht.kind.imp_right (And.imp_right ?_)
    rintro ⟨generated, d, hd, herror⟩
    exact ⟨generated, d, h.holdsMethod hd, herror⟩
  visibility := ht.visibility
  name := ht.name
  annotations := ht.annotations

theorem literalMember {owner : String} {literal : Expr}
    (hx : p.LiteralMember generated owner literal x) :
    q.LiteralMember generated owner literal x := by
  cases hx with
  | field hliteral hf hn hblank => exact h.memberTraits ▸ .field hliteral hf hn hblank
  | embedded hliteral hf hnames => exact h.memberTraits ▸ .embedded hliteral hf hnames
  | method hliteral hf hsig hn => exact h.memberTraits ▸ .method hliteral hf hsig hn

theorem constructs (hd : p.Constructs d) : q.Constructs d := by
  obtain ⟨hstart, r, rs, hresults, generated, doc, t, ht, hname⟩ := hd
  exact ⟨hstart, r, rs, hresults, generated, doc, t, h.holdsType ht, hname⟩

theorem callable {name : String} (hname : p.Callable name) : q.Callable name := by
  unfold Callable
  rw [h.name]
  exact hname

theorem topLevel (hx : p.TopLevel x) : q.TopLevel x := by
  cases hx with
  | constructor hd hreceiver hcallable hmakes =>
    exact h.topTraits ▸ .constructor (h.holds hd) hreceiver (h.callable hcallable)
      (h.constructs hmakes)
  | function hd hreceiver hcallable hmakes =>
    exact h.topTraits ▸ .function (h.holds hd) hreceiver (h.callable hcallable)
      fun hmakes' => hmakes (h.symm.constructs hmakes')
  | value hd hv hn hblank => exact h.topTraits ▸ .value (h.holds hd) hv hn hblank

/-- **What a scope admits does not depend on where it stands.** -/
theorem admitted (hx : p.Admitted s x) : q.Admitted s x := by
  cases hx with
  | type hspec htype =>
    rw [← h.typeTraits] at htype ⊢
    exact .type (h.holdsType hspec) (h.admitsType htype)
  | literal hspec htype hliteral hx =>
    rw [← h.typeTraits] at htype
    exact .literal (h.holdsType hspec) (h.admitsType htype) (h.literalMember hliteral) hx
  | method hspec htype hd hx =>
    rw [← h.typeTraits] at htype
    unfold methodTraits at hx ⊢
    rw [← h.memberTraits] at hx ⊢
    exact .method (h.holdsType hspec) (h.admitsType htype) (h.holdsMethod hd) hx
  | top htop hx => exact .top (h.topLevel htop) hx

theorem bracketed (hx : p.Bracketed x) : q.Bracketed x := by
  obtain ⟨generated, doc, spec, y, hspec, hparen, hliteral⟩ := hx
  exact ⟨generated, doc, spec, y, h.holdsType hspec, hparen, h.literalMember hliteral⟩

end Rearranged

/-- **What a scope admits is listed, wherever it is declared**, but for the members that are written
in brackets: of these, only methods that the package declares as well are listed. -/
theorem listed_of_admitted (hparsed : p.Parsed) (hdistinct : p.DistinctTypes)
    (hq : p.Rearranged q) (s : Scope) (x : Traits) :
    (p.Admitted s x →
      x.key ∈ (Inventory.ofPackage q s).elements.map Element.key ∨ p.Bracketed x) ∧
    (p.Bracketed x → x.key ∈ (Inventory.ofPackage q s).elements.map Element.key →
      x.kind = .method ∧ ∃ generated type d, p.HoldsMethod generated type d ∧
        x.qualifiedName = p.importPath ++ "." ++ (type ++ "." ++ d.name.text)) := by
  have hdistinct' := hq.distinctTypes hdistinct
  constructor
  · intro hx
    rcases exists_candidate_of_admitted hdistinct' (hq.namesEmbedded hparsed.namesEmbedded)
      (hq.admitted hx) with ⟨c, hc, rfl⟩ | hx
    · exact .inl (Inventory.mem_keys_ofPackage_iff.mpr ⟨c, hc, rfl⟩)
    · exact .inr (hq.symm.bracketed hx)
  · intro hx hkey
    obtain ⟨c, hc, hkey⟩ := Inventory.mem_keys_ofPackage_iff.mp hkey
    obtain ⟨hkind, generated, type, d, hd, hname⟩ :=
      method_of_bracketed hdistinct' (hq.bracketed hx) hc hkey
    exact ⟨hkind, generated, type, d, hq.symm.holdsMethod hd, hq.importPath ▸ hname⟩

/-! ## 6. Two packages -/

theorem visibilityOf_mem_all (p : Package) (name : String) :
    p.visibilityOf name ∈ Visibility.all := by
  unfold visibilityOf
  split_ifs <;> simp [Visibility.all]

theorem admitsType_wholeScope (inherited : Bool) :
    p.AdmitsType (wholeScope inherited) spec (p.typeTraits generated doc spec) where
  kind := by
    left
    cases spec.category <;> rfl
  visibility := p.visibilityOf_mem_all _
  name := rfl
  annotations := rfl

theorem admitsMember_wholeScope {inherited : Bool} {owner name : String} {kind : Kind}
    {accessors : List AccessorKind} {notes : List String}
    (hkind : Config.MemberKinds.every.toggle kind = true) :
    (wholeScope inherited).AdmitsMember (p.memberTraits owner kind name accessors notes) where
  kinds := ⟨hkind, fun _ => rfl, fun _ => rfl⟩
  visibility := by
    show (p.visibilityOf name).min (p.visibilityOf owner) ∈ Visibility.all
    unfold Visibility.min
    split_ifs <;> exact p.visibilityOf_mem_all _
  name := rfl
  annotations := rfl

/-- A generic struct in one file, behind a file with a method of it. -/
def splitPackage : Package where
  importPath := "example.com/p"
  files := (File.parse? "a.go" "package p\n\nfunc (t *(T[K])) M()\n").toList ++
    (File.parse? "b.go" "package p\n\ntype T[K any] struct{ A int }\n").toList

/-- The package with its files in the other order. -/
def turnedPackage : Package := { splitPackage with files := splitPackage.files.reverse }

theorem parsed_splitPackage : splitPackage.Parsed :=
  (parsed_of_text _ _ _).append (parsed_of_text _ _ _)

theorem rearranged_splitPackage : splitPackage.Rearranged turnedPackage where
  importPath := rfl
  name := by decide +kernel
  holdings := splitPackage.files.reverse_perm.flatMap_right _

/-- A method in front of its type, and in another file, is listed in both orders. -/
theorem listed_of_admitted_split :
    ∃ x, splitPackage.Admitted (wholeScope false) x ∧
      x.key = ⟨.method, "example.com/p.T.M"⟩ ∧
      x.key ∈ (Inventory.ofPackage turnedPackage (wholeScope false)).elements.map Element.key := by
  obtain ⟨⟨t, ht, htname, m, hm, hmname⟩, hstruct, hdistinct⟩ :
      (∃ t ∈ splitPackage.typeDecls, t.spec.name.text = "T" ∧
        ∃ m ∈ splitPackage.methodsOf "T", m.decl.name.text = "M") ∧
      (∀ t ∈ splitPackage.typeDecls, t.spec.category = .struct) ∧
      (splitPackage.typeDecls.map TypeDecl.name).Nodup := by
    decide +kernel
  have hspec : splitPackage.HoldsType t.file.generated t.declDoc t.spec :=
    holdsType_iff.mpr ⟨t, ht, rfl, rfl, rfl⟩
  have hd : splitPackage.HoldsMethod m.file.generated t.spec.name.text m.decl :=
    holdsMethod_iff.mpr ⟨m, htname.symm ▸ hm, rfl, rfl⟩
  have hx := Admitted.method hspec (admitsType_wholeScope false) hd
    (admitsMember_wholeScope rfl)
  refine ⟨_, hx, ?_, ?_⟩
  · show (⟨.method, "example.com/p" ++ "." ++ (t.spec.name.text ++ "." ++ m.decl.name.text)⟩ :
      ElementKey) = _
    rw [htname, hmname]
    rfl
  · rcases (listed_of_admitted parsed_splitPackage hdistinct rearranged_splitPackage _ _).1 hx
      with hkey | ⟨_, _, u, y, hu, hparen, -⟩
    · exact hkey
    · obtain ⟨v, hv, rfl, -⟩ := holdsType_iff.mp hu
      have hcategory := hstruct v hv
      unfold TypeSpec.category at hcategory
      rw [hparen] at hcategory
      split at hcategory <;> cases hcategory

/-- A struct in brackets. -/
def bracketPackage : Package where
  importPath := "example.com/p"
  files := (File.parse? "a.go" "package p\n\ntype T (struct{ A int })\n").toList

/-- The field of a struct in brackets is not listed. -/
theorem not_listed_of_bracketed :
    bracketPackage.Parsed ∧ bracketPackage.DistinctTypes ∧
    ∃ x, bracketPackage.Admitted (wholeScope false) x ∧
      x.key ∉ (Inventory.ofPackage bracketPackage (wholeScope false)).elements.map Element.key := by
  obtain ⟨⟨t, ht, htname, f, hf, n, hn, hname⟩, hdistinct, hkey⟩ :
      (∃ t ∈ bracketPackage.typeDecls, t.spec.name.text = "T" ∧
        ∃ f ∈ (match t.spec.type.unparen with
          | .struct fs => fs
          | _ => []), ∃ n ∈ f.names, n.text = "A") ∧
      (bracketPackage.typeDecls.map TypeDecl.name).Nodup ∧
      (⟨.field, "example.com/p.T.A"⟩ : ElementKey) ∉
        (Inventory.ofPackage bracketPackage (wholeScope false)).elements.map Element.key := by
    decide +kernel
  have hspec : bracketPackage.HoldsType t.file.generated t.declDoc t.spec :=
    holdsType_iff.mpr ⟨t, ht, rfl, rfl, rfl⟩
  split at hf
  · rename_i fs hliteral
    have hmember : bracketPackage.LiteralMember t.file.generated t.spec.name.text
        t.spec.type.unparen _ := .field hliteral hf hn (by simp [hname])
    have hx := Admitted.literal hspec (admitsType_wholeScope false) hmember
      (admitsMember_wholeScope rfl)
    refine ⟨parsed_of_text _ _ _, hdistinct, _, hx, ?_⟩
    show (⟨.field, "example.com/p" ++ "." ++ (t.spec.name.text ++ "." ++ n.text)⟩ :
      ElementKey) ∉ _
    rw [htname, hname]
    exact hkey
  · cases hf

end Package

end DocAudit.Source
