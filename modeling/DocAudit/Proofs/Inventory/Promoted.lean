import DocAudit.Proofs.Inventory.Complete

/-!
# Inherited methods

A struct is listed with the methods of the types that it embeds.  Which methods these are is found
by names alone: an embedded field supplies the methods of the type of the package that bears its
name, unless the struct declares a method of this name.

* `ListsMethod`: the element that is listed under the key of a method is that of this method;
* `exists_listsMethod`: the listed methods of a struct are its own and those supplied to it;
* `Promotes` is what the selector rules ask of a method for the struct to have it, and `Clashes`
  lists what may be in the way;
* `inherited_methods`: the inherited methods that are listed are those that the struct has, and
  those for which something is in the way.
-/

namespace DocAudit

open Source Policy

/-! ## 1. The first candidate of a key -/

namespace Inventory

variable {p : Package} {s : Scope} {e : Element}

/-- **An element is listed if it is that of the first candidate with its key.** -/
theorem mem_ofPackage_iff :
    e ∈ (ofPackage p s).elements ↔
      ∃ c, (p.candidates s).find? (·.element.key == e.key) = some c ∧ c.element = e := by
  rw [ofPackage_eq_addAll, mem_addAll_iff, List.find?_map, Option.map_map, Option.map_eq_some_iff]
  exact or_iff_right_iff_imp.mpr (fun h => absurd h List.not_mem_nil) |>.trans (and_iff_right rfl)

/-- The text for a key is the one of the first candidate with this key. -/
theorem docAt?_ofPackage (p : Package) (s : Scope) (k : ElementKey) :
    (ofPackage p s).docAt? k =
      ((p.candidates s).find? (·.element.key == k)).bind (·.doc.map CommentGroup.text) := by
  rw [ofPackage_eq_addAll, docAt?_addAll _ docsBelong_empty, List.find?_map, Option.bind_map]
  rfl

end Inventory

namespace Source.Package

variable {p : Package} {s : Scope} {c : Candidate} {t : TypeDecl} {m : MethodDecl} {name : String}

/-- The element of a declared method, as a method of the type `t`. -/
def methodElement (p : Package) (t : TypeDecl) (m : MethodDecl) : Element :=
  { p.element m.file .method (t.name ++ "." ++ m.name) m.name m.decl.name.pos
      (p.memberVisibility t m.name) with
    memberKinds := [.method]
    accessorKinds := accessorKinds m.name m.decl.sig (fieldNames t)
    signature := funcSignature m.name m.decl.sig
    annotations := annotations m.decl.doc m.file.generated }

theorem mem_declaredMethod_every_iff :
    c ∈ p.declaredMethod .every t m ↔ c = ⟨p.methodElement t m, m.decl.doc⟩ := by
  show c ∈ (if true && accessorsAllowed .every (p.methodElement t m) then
    [⟨p.methodElement t m, m.decl.doc⟩] else []) ↔ _
  rw [accessorsAllowed_every, Bool.and_self, if_pos rfl, List.mem_singleton]

/-- **The scope lists the method `m` for the type `t`**: of the candidates with its key, that of `m`
is the first. -/
def ListsMethod (p : Package) (s : Scope) (t : TypeDecl) (m : MethodDecl) : Prop :=
  (p.candidates s).find? (·.element.key == (p.methodElement t m).key) =
    some ⟨p.methodElement t m, m.decl.doc⟩

theorem ListsMethod.mem (h : p.ListsMethod s t m) :
    p.methodElement t m ∈ (Inventory.ofPackage p s).elements :=
  Inventory.mem_ofPackage_iff.mpr ⟨_, h, rfl⟩

/-- A listed method has the text of its own comment. -/
theorem ListsMethod.doc? (h : p.ListsMethod s t m) :
    (Inventory.ofPackage p s).doc? (p.methodElement t m) = m.decl.doc.map CommentGroup.text := by
  rw [Inventory.doc?, Inventory.docAt?_ofPackage, h]
  rfl

/-! ## 2. The methods of a struct -/

/-- The element is listed as a method of the type `t`. -/
def MethodOf (p : Package) (t : TypeDecl) (e : Element) : Prop :=
  e.key = p.methodKey t.name e.name

instance (p : Package) (t : TypeDecl) (e : Element) : Decidable (p.MethodOf t e) :=
  inferInstanceAs (Decidable (e.key = _))

/-- The methods that a scope may list for a type that is no interface: those declared for it and, if
they are asked for, those supplied to it. -/
def HasMethod (p : Package) (s : Scope) (t : TypeDecl) (m : MethodDecl) : Prop :=
  m ∈ p.methodsOf t.name ∨ s.inherited = true ∧ m ∈ p.promotedMethods t

theorem kind_ne_method_of_mem_fieldCandidates {kinds : Config.MemberKinds} {f : Field}
    (h : c ∈ p.fieldCandidates kinds t f) : c.element.kind ≠ .method := by
  unfold fieldCandidates at h
  dsimp only at h
  split at h
  · obtain rfl := List.mem_singleton.mp (List.mem_ite_nil_right.mp h).2
    show Kind.recordComponent ≠ .method
    decide
  · obtain ⟨n, -, rfl⟩ := List.mem_map.mp (List.mem_ite_nil_right.mp h).2
    show Kind.field ≠ .method
    decide

/-- **The candidates of methods** of a type that is no interface. -/
theorem exists_hasMethod_of_mem_candidates (ht : t ∈ p.types)
    (hform : ∀ es, t.spec.type ≠ .interface es) (hdot : '.' ∉ name.toList)
    (hc : c ∈ p.candidates s)
    (hkey : c.element.key = p.methodKey t.name name) :
    ∃ m, p.HasMethod s t m ∧ m.name = name ∧ c = ⟨p.methodElement t m, m.decl.doc⟩ := by
  have hkind : c.element.kind = .method := congrArg ElementKey.kind hkey
  rcases mem_candidates_iff_admits.mp hc with ⟨u, hu, -, rfl | ⟨hmember, -⟩⟩ | ⟨⟨_, -, _, -, hc⟩, -⟩
  · exact absurd hkind (show Kind.type ≠ .method by decide)
  · have hnamed := memberNamed_of_mem_membersOfType hmember
    have hnames : c.element.qualifiedName = p.importPath ++ "." ++ (t.name ++ "." ++ name) :=
      congrArg ElementKey.qualifiedName hkey
    -- Names have no dots, so the key tells the type, and types have different names.
    rw [hnamed.qualifiedName] at hnames
    obtain ⟨-, htype, hname⟩ := eq_of_two_dots u.spec.name.dot_notMem t.spec.name.dot_notMem
      hnamed.dot_notMem hdot hnames
    obtain rfl := eq_of_mem_types hu ht htype
    rcases mem_membersOfType_iff.mp hmember with ⟨_, -, _, -, hfield⟩ | ⟨es, hinterface, -⟩ |
      ⟨m, hm, hc⟩ | ⟨hinherited, m, hm, hc⟩
    · exact absurd hkind (kind_ne_method_of_mem_fieldCandidates hfield)
    · exact absurd hinterface (hform es)
    · obtain rfl := mem_declaredMethod_every_iff.mp hc
      exact ⟨m, .inl hm, hname, rfl⟩
    · obtain rfl := mem_declaredMethod_every_iff.mp hc
      exact ⟨m, .inr ⟨hinherited, hm⟩, hname, rfl⟩
  · have htop := (topNamed_of_mem_declCandidates hc).kind
    rw [hkind] at htop
    exact absurd htop (by decide)

/-- **A listed method is a declared one**, of its type or of one that supplies it. -/
theorem exists_listsMethod (ht : t ∈ p.types) (hform : ∀ es, t.spec.type ≠ .interface es)
    {e : Element} (he : e ∈ (Inventory.ofPackage p s).elements) (howner : p.MethodOf t e) :
    ∃ m, p.HasMethod s t m ∧ p.ListsMethod s t m ∧ e = p.methodElement t m := by
  obtain ⟨c, hfind, rfl⟩ := Inventory.mem_ofPackage_iff.mp he
  have hc := List.mem_of_find?_eq_some hfind
  have hdot : '.' ∉ c.element.name.toList := by
    rcases named_of_mem_candidates hc with hnamed | ⟨_, -, hnamed⟩
    · exact hnamed.dot_notMem
    · exact hnamed.dot_notMem
  obtain ⟨m, hm, -, rfl⟩ := exists_hasMethod_of_mem_candidates ht hform hdot hc howner
  exact ⟨m, hm, hfind, rfl⟩

/-- A field of the struct `t` supplies the method `m`: the field is embedded and bears the name of
the type of the package for which `m` is declared. -/
structure Supplies (p : Package) (t : TypeDecl) (m : MethodDecl) : Prop where
  method : m ∈ p.methodsOf m.receiver
  type : p.DeclaresType m.receiver
  embeds : ∃ f ∈ structFields t, f.names = [] ∧ f.type.baseName = m.receiver

theorem mem_suppliedMethods_iff : m ∈ p.suppliedMethods t ↔ p.Supplies t m := by
  simp only [suppliedMethods, List.mem_flatMap, List.mem_filter, mem_embeddedNames_iff, hasType_iff]
  constructor
  · rintro ⟨type, ⟨hembeds, htype⟩, hm⟩
    obtain rfl := (mem_methodsOf_iff.mp hm).1
    exact ⟨hm, htype, hembeds⟩
  · intro h
    exact ⟨m.receiver, ⟨h.embeds, h.type⟩, h.method⟩

theorem supplies_of_mem_promotedMethods (h : m ∈ p.promotedMethods t) : p.Supplies t m :=
  mem_suppliedMethods_iff.mp (List.mem_of_find?_eq_some (mem_promotedMethods_iff.mp h).2)

theorem not_interface_of_mem_structFields {f : Field} (hf : f ∈ structFields t) (es : List Field) :
    t.spec.type ≠ .interface es := by
  intro hform
  unfold structFields at hf
  rw [hform] at hf
  cases hf

/-- **A method that the scope admits is listed for the struct to which it is supplied**, if the
struct declares none with its name and none with its name is supplied before. -/
theorem listsMethod_of_mem_promotedMethods (ht : t ∈ p.types) (hm : m ∈ p.promotedMethods t)
    (hinherited : s.inherited = true)
    (htype : p.AdmitsType s t.spec (p.typeCandidate t).element.traits)
    (hadmits : s.AdmitsMember (p.methodElement t m).traits) : p.ListsMethod s t m := by
  have hmember : ⟨p.methodElement t m, m.decl.doc⟩ ∈ p.membersOfType (wholeScope s.inherited) t :=
    mem_membersOfType_iff.mpr (.inr (.inr (.inr
      ⟨hinherited, m, hm, mem_declaredMethod_every_iff.mpr rfl⟩)))
  -- No other candidate has its key: the methods of `t` itself have other names, and of those that
  -- are supplied under one name only the first is promoted.
  refine find?_of_unique
    (mem_candidates_iff_admits.mpr (.inl ⟨t, ht, htype, .inr ⟨hmember, hadmits⟩⟩))
    (beq_self_eq_true _) fun c hc hkey => ?_
  obtain ⟨f, hf, -⟩ := (supplies_of_mem_promotedMethods hm).embeds
  obtain ⟨m', hm', hname, rfl⟩ := exists_hasMethod_of_mem_candidates ht
    (not_interface_of_mem_structFields hf) m.decl.name.dot_notMem hc (beq_iff_eq.mp hkey)
  obtain ⟨hown, hfirst⟩ := mem_promotedMethods_iff.mp hm
  rcases hm' with hm' | ⟨-, hm'⟩
  · exact absurd hname (hown m' hm')
  · have hfirst' := (mem_promotedMethods_iff.mp hm').2
    rw [show m'.name = m.name from hname, hfirst] at hfirst'
    obtain rfl := Option.some.inj hfirst'
    rfl

/-! ## 3. The selector rules -/

/-- A type of the package has a member with this name: a method that is declared for it, or a member
that is written in its declaration. -/
def HasMember (p : Package) (type name : String) : Prop :=
  (∃ m ∈ p.methodsOf type, m.name = name) ∨
    ∃ generated doc u x, p.HoldsType generated doc u ∧ u.name.text = type ∧
      p.LiteralMember generated type u.type.unparen x ∧ x.name = name

/-- **The struct `t` has the method `m`** of a type of its package that it embeds, if it declares no
method of this name itself.  What members the types of other packages have is not known. -/
structure Promotes (p : Package) (t : TypeDecl) (m : MethodDecl) : Prop where
  file : m.file ∈ p.files
  decl : .func m.decl ∈ m.file.decls
  receiver : ∃ r rs, m.decl.receiver = some (r :: rs) ∧ r.type.localName? = some m.receiver
  type : p.DeclaresType m.receiver
  embeds : ∃ f ∈ structFields t, f.names = [] ∧ f.type.localName? = some m.receiver
  noParameter : m.receiver ∉ paramNames t.spec.typeParams
  notBlank : m.name ≠ "_"
  noField : ∀ f ∈ structFields t, ∀ n ∈ f.names, n.text ≠ m.name
  noEmbedded : ∀ f ∈ structFields t, f.names = [] → f.type.baseName ≠ m.name
  noOther : ∀ f ∈ structFields t, f.names = [] → ∀ type, f.type.localName? = some type →
    type ≠ m.receiver → ¬ p.HasMember type m.name

/-- **What is in the way** of a method that a field seems to supply. -/
inductive Clashes (p : Package) (t : TypeDecl) (m : MethodDecl) : Prop
  /-- The method is declared for a type of another package. -/
  | receiver {r : Field} {rs : List Field} :
      m.decl.receiver = some (r :: rs) → r.type.isQualified = true → Clashes p t m
  /-- The embedded type is one of another package. -/
  | qualified {f : Field} :
      f ∈ structFields t → f.names = [] → f.type.isQualified = true →
      f.type.baseName = m.receiver →
      (∀ g ∈ structFields t, g.names = [] → g.type.localName? ≠ some m.receiver) → Clashes p t m
  /-- The embedded type is a type parameter of the struct. -/
  | parameter : m.receiver ∈ paramNames t.spec.typeParams → Clashes p t m
  /-- The method cannot be selected. -/
  | blank : m.name = "_" → Clashes p t m
  /-- The struct has a field with the name of the method. -/
  | field {f : Field} {n : Name} :
      f ∈ structFields t → n ∈ f.names → n.text = m.name → Clashes p t m
  /-- The struct embeds a type with the name of the method. -/
  | embedded {f : Field} :
      f ∈ structFields t → f.names = [] → f.type.baseName = m.name → Clashes p t m
  /-- The struct embeds another type with a member of the name of the method. -/
  | other {f : Field} {type : String} :
      f ∈ structFields t → f.names = [] → f.type.localName? = some type → type ≠ m.receiver →
      p.HasMember type m.name → Clashes p t m

/-- **A struct has a method that is supplied to it, or something is in the way.** -/
theorem Supplies.promotes_or_clashes (h : p.Supplies t m) : p.Promotes t m ∨ p.Clashes t m := by
  obtain ⟨-, hfile, hdecl, r, rs, hreceiver, hbase⟩ := mem_methodsOf_iff.mp h.method
  -- What a rule forbids is one of the clashes; what it demands fails only for a qualified name.
  refine or_iff_not_imp_right.mpr fun hclash =>
    { file := hfile
      decl := hdecl
      receiver := ⟨r, rs, hreceiver, ?_⟩
      type := h.type
      embeds := ?_
      noParameter := fun hparam => hclash (.parameter hparam)
      notBlank := fun hblank => hclash (.blank hblank)
      noField := fun f hf n hn hname => hclash (.field hf hn hname)
      noEmbedded := fun f hf hnames hname => hclash (.embedded hf hnames hname)
      noOther := fun f hf hnames type htype hne hmember =>
        hclash (.other hf hnames htype hne hmember) }
  · rw [← hbase]
    refine (Expr.localName?_or_isQualified (hbase ▸ h.type.ne_empty)).resolve_right fun hqualified =>
      hclash (.receiver hreceiver hqualified)
  · by_contra hnone
    obtain ⟨f, hf, hnames, hname⟩ := h.embeds
    have hlocal : ∀ g ∈ structFields t, g.names = [] → g.type.localName? ≠ some m.receiver :=
      fun g hg hgnames hglocal => hnone ⟨g, hg, hgnames, hglocal⟩
    rcases Expr.localName?_or_isQualified (hname ▸ h.type.ne_empty) with hf' | hqualified
    · exact hlocal f hf hnames (hname ▸ hf')
    · exact hclash (.qualified hf hnames hqualified hname hlocal)

theorem Promotes.supplies (h : p.Promotes t m) : p.Supplies t m := by
  obtain ⟨r, rs, hreceiver, hlocal⟩ := h.receiver
  obtain ⟨f, hf, hnames, hname⟩ := h.embeds
  exact
    { method := mem_methodsOf_iff.mpr
        ⟨rfl, h.file, h.decl, r, rs, hreceiver, Expr.baseName_of_localName? hlocal⟩
      type := h.type
      embeds := ⟨f, hf, hnames, Expr.baseName_of_localName? hname⟩ }

theorem Promotes.not_clashes (h : p.Promotes t m) : ¬ p.Clashes t m := by
  intro hclash
  cases hclash with
  | @receiver r rs hreceiver hqualified =>
    obtain ⟨r', rs', hreceiver', hlocal⟩ := h.receiver
    obtain ⟨rfl, rfl⟩ := List.cons.inj (Option.some.inj (hreceiver.symm.trans hreceiver'))
    rw [Expr.localName?_of_isQualified hqualified] at hlocal
    cases hlocal
  | qualified _ _ _ _ hnone =>
    obtain ⟨g, hg, hnames, hlocal⟩ := h.embeds
    exact hnone g hg hnames hlocal
  | parameter hparam => exact h.noParameter hparam
  | blank hblank => exact h.notBlank hblank
  | field hf hn hname => exact h.noField _ hf _ hn hname
  | embedded hf hnames hname => exact h.noEmbedded _ hf hnames hname
  | other hf hnames htype hne hmember => exact h.noOther _ hf hnames _ htype hne hmember

/-- A struct that embeds one type of its package, and nothing else, has its methods. -/
theorem Supplies.promotes_of_single (h : p.Supplies t m)
    (hfields : ∀ f ∈ structFields t, f.names = [] ∧ f.type.localName? = some m.receiver)
    (hparams : paramNames t.spec.typeParams = []) (hname : m.name ≠ m.receiver ∧ m.name ≠ "_")
    (hreceiver : ∀ rs ∈ m.decl.receiver, ∀ r ∈ rs, r.type.isQualified = false) :
    p.Promotes t m := by
  refine h.promotes_or_clashes.resolve_right fun hclash => ?_
  cases hclash with
  | receiver hr hqualified =>
    rw [hreceiver _ hr _ List.mem_cons_self] at hqualified
    cases hqualified
  | qualified hf _ _ _ hnone => exact hnone _ hf (hfields _ hf).1 (hfields _ hf).2
  | parameter hparam =>
    rw [hparams] at hparam
    cases hparam
  | blank hblank => exact hname.2 hblank
  | field hf hn =>
    rw [(hfields _ hf).1] at hn
    cases hn
  | embedded hf _ hbase =>
    rw [Expr.baseName_of_localName? (hfields _ hf).2] at hbase
    exact hname.1 hbase.symm
  | other hf _ htype hne =>
    rw [(hfields _ hf).2] at htype
    exact hne (Option.some.inj htype).symm

/-- **The inherited methods of a struct**, or of any type that is no interface.  A method that is
listed for it without being declared for it is one that an embedded field supplies: the struct has
it, or else something is in the way.  A method that the struct has is listed if the scope admits it
and no other of its name is supplied. -/
theorem inherited_methods (s : Scope) (ht : t ∈ p.types)
    (hform : ∀ es, t.spec.type ≠ .interface es) :
    (∀ e ∈ (Inventory.ofPackage p s).elements, p.MethodOf t e →
      (∀ m ∈ p.methodsOf t.name, m.name ≠ e.name) →
      s.inherited = true ∧ ∃ m, p.ListsMethod s t m ∧ e = p.methodElement t m ∧
        p.Supplies t m ∧ (p.Promotes t m ∨ p.Clashes t m)) ∧
    ∀ m, p.Promotes t m → ¬ p.Clashes t m ∧
      ((∀ m' ∈ p.methodsOf t.name, m'.name ≠ m.name) →
        (∀ m', p.Supplies t m' → m'.name = m.name → m' = m) → s.inherited = true →
        p.AdmitsType s t.spec (p.typeCandidate t).element.traits →
        s.AdmitsMember (p.methodElement t m).traits → p.ListsMethod s t m) := by
  constructor
  · intro e he howner hown
    obtain ⟨m, hm, hlists, rfl⟩ := exists_listsMethod ht hform he howner
    rcases hm with hm | ⟨hinherited, hm⟩
    · exact absurd rfl (hown m hm)
    · have hsupplies := supplies_of_mem_promotedMethods hm
      exact ⟨hinherited, m, hlists, rfl, hsupplies, hsupplies.promotes_or_clashes⟩
  · intro m hm
    refine ⟨hm.not_clashes, fun hown honly hinherited htype hadmits => ?_⟩
    have hfirst : (p.suppliedMethods t).find? (·.name == m.name) = some m :=
      find?_of_unique (mem_suppliedMethods_iff.mpr hm.supplies) (beq_self_eq_true _)
        fun m' hm' hname => honly m' (mem_suppliedMethods_iff.mp hm') (beq_iff_eq.mp hname)
    exact listsMethod_of_mem_promotedMethods ht (mem_promotedMethods_iff.mpr ⟨hown, hfirst⟩)
      hinherited htype hadmits

/-- A struct that embeds a pointer to a type with a method. -/
def promotingPackage : Package where
  importPath := "example.com/p"
  files := (File.parse? "a.go" ("package p\n\ntype E struct{}\n\nfunc (e *E) M() {}\n\n" ++
    "type T struct{ *E }\n")).toList

/-- The struct has the method of the type that it embeds, and the method is listed for it. -/
theorem inherited_methods_promoted :
    ∃ t ∈ promotingPackage.types,
      ∃ e ∈ (Inventory.ofPackage promotingPackage (wholeScope true)).elements,
        e.key = ⟨.method, "example.com/p.T.M"⟩ ∧
        ∃ m, promotingPackage.Promotes t m ∧ e = promotingPackage.methodElement t m := by
  obtain ⟨⟨t, ht, htname, ⟨f, hf⟩, hparams, hfields, e, he, howner, hkey⟩, hmethods⟩ :
      (∃ t ∈ promotingPackage.types, t.name = "T" ∧ (∃ f ∈ structFields t, True) ∧
        paramNames t.spec.typeParams = [] ∧
        (∀ f ∈ structFields t, f.names = [] ∧ f.type.localName? = some "E") ∧
        ∃ e ∈ (Inventory.ofPackage promotingPackage (wholeScope true)).elements,
          promotingPackage.MethodOf t e ∧ e.key = ⟨.method, "example.com/p.T.M"⟩) ∧
      ∀ m ∈ promotingPackage.methods, m.receiver = "E" ∧ m.name = "M" ∧
        ∀ rs ∈ m.decl.receiver, ∀ r ∈ rs, r.type.isQualified = false := by
    decide +kernel
  have hown : ∀ m ∈ promotingPackage.methodsOf t.name, m.name ≠ e.name := by
    intro m hm
    obtain ⟨hmem, hreceiver⟩ := List.mem_filter.mp hm
    rw [(hmethods m hmem).1, htname] at hreceiver
    cases hreceiver
  obtain ⟨-, m, -, rfl, hsupplies, hm⟩ := (inherited_methods (wholeScope true) ht
    (not_interface_of_mem_structFields hf.1)).1 e he howner hown
  obtain ⟨hreceiver, hmname, hlocal⟩ := hmethods m (List.mem_filter.mp hsupplies.method).1
  refine ⟨t, ht, _, he, hkey, m, hm.resolve_right fun hclash => ?_, rfl⟩
  refine Promotes.not_clashes (hsupplies.promotes_of_single ?_ hparams ?_ hlocal) hclash
  · rw [hreceiver]
    exact hfields
  · rw [hreceiver, hmname]
    decide

/-- Structs that embed a type of another package, a type with a method of the name of a field, and
two types with a method of one name. -/
def clashingPackage : Package where
  importPath := "example.com/p"
  files := (File.parse? "a.go" ("package p\n\nimport \"example.com/other\"\n\n" ++
    "type E struct{}\n\nfunc (E) M() {}\n\ntype F struct{}\n\nfunc (F) M() {}\n\n" ++
    "type T struct{ other.E }\n\ntype U struct{ E; M int }\n\n" ++
    "type V struct{ E; F }\n")).toList

/-- Methods are listed for structs that have none. -/
theorem methods_listed_without_promotion :
    clashingPackage.Parsed ∧
    (∀ type ∈ ["T", "U", "V"], clashingPackage.methodsOf type = [] ∧
      ⟨.method, "example.com/p." ++ type ++ ".M"⟩ ∈
        (Inventory.ofPackage clashingPackage (wholeScope true)).elements.map Element.key) ∧
    ∀ t ∈ clashingPackage.types, ∀ m, ¬ clashingPackage.Promotes t m := by
  obtain ⟨hkeys, hclash⟩ :
      (∀ type ∈ ["T", "U", "V"], (clashingPackage.methodsOf type).length = 0 ∧
        ⟨.method, "example.com/p." ++ type ++ ".M"⟩ ∈
          (Inventory.ofPackage clashingPackage (wholeScope true)).elements.map Element.key) ∧
      ∀ t ∈ clashingPackage.types, ∀ m ∈ clashingPackage.methods,
        ∀ f ∈ structFields t, f.names = [] → f.type.localName? = some m.receiver →
          (∃ g ∈ structFields t, ∃ n ∈ g.names, n.text = m.name) ∨
          ∃ g ∈ structFields t, g.names = [] ∧ ∃ type ∈ g.type.localName?, type ≠ m.receiver ∧
            ∃ m' ∈ clashingPackage.methodsOf type, m'.name = m.name := by
    decide +kernel
  refine ⟨parsed_of_text _ _ _, ?_, ?_⟩
  · exact fun type htype => ⟨List.length_eq_zero_iff.mp (hkeys type htype).1, (hkeys type htype).2⟩
  · intro t ht m hm
    obtain ⟨f, hf, hnames, hlocal⟩ := hm.embeds
    have hmem : m ∈ clashingPackage.methods := (List.mem_filter.mp hm.supplies.method).1
    rcases hclash t ht m hmem f hf hnames hlocal with ⟨g, hg, n, hn, hname⟩ |
      ⟨g, hg, hgnames, type, htype, hne, hmember⟩
    · exact hm.noField g hg n hn hname
    · exact hm.noOther g hg hgnames type htype hne (.inl hmember)

end Source.Package

end DocAudit
