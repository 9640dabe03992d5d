import DocAudit.Proofs.Inventory.Complete
import DocAudit.Proofs.Source.Placed

/-!
# Elements stand where their declarations stand

The place of an element is the one reported for the name in its declaration, or for the start of
the type of an embedded field, and there the text of a parsed file has the name.

* `Decl.Declares`: a declaration declares an element at a position;
* `located_of_mem_candidates`: the candidates of a package have the places of their declarations;
* `Decl.Declares.stands`: what a declaration declares is spelled by the token that stands there;
* `Inventory.shown_of_mem_ofPackage`: so the texts of a parsed package show its elements.
-/

namespace DocAudit

open Source Policy

/-- The element has this place. -/
def Element.HasPlace (e : Element) (x : Place) : Prop := e.sourceFile = x.file ∧ e.line = x.line

/-- The letters name the element; an embedded field has no name in the text, but its signature
starts as its type does. -/
def Element.Spelled (e : Element) (letters : List Char) : Prop :=
  letters ≠ [] ∧
    (letters = e.name.toList ∨ e.kind = .recordComponent ∧ letters <+: e.signature.toList)

namespace Source

/-- **A declaration declares an element** at a position: at the name, or at the start of the type of
an embedded field. -/
inductive Decl.Declares : Decl → Element → Pos → Prop
  | type {doc : Option CommentGroup} {specs : List TypeSpec} {t : TypeSpec} {e : Element} :
      t ∈ specs → e.kind = .type → e.name = t.name.text →
      Declares (.types doc specs) e t.name.pos
  | field {doc : Option CommentGroup} {specs : List TypeSpec} {t : TypeSpec} {fs : List Field}
      {g : Field} {n : Name} {e : Element} :
      t ∈ specs → t.type = .struct fs → g ∈ fs → n ∈ g.names → e.kind = .field →
      e.name = n.text → Declares (.types doc specs) e n.pos
  | embedded {doc : Option CommentGroup} {specs : List TypeSpec} {t : TypeSpec} {fs : List Field}
      {g : Field} {e : Element} :
      t ∈ specs → t.type = .struct fs → g ∈ fs → g.names = [] → e.kind = .recordComponent →
      e.name = g.type.baseName → e.signature = g.type.render →
      Declares (.types doc specs) e g.typePos
  | signature {doc : Option CommentGroup} {specs : List TypeSpec} {t : TypeSpec} {fs : List Field}
      {g : Field} {n : Name} {e : Element} :
      t ∈ specs → t.type = .interface fs → g ∈ fs → n ∈ g.names → e.kind = .method →
      e.name = n.text → Declares (.types doc specs) e n.pos
  | value {kind : ValueKind} {doc : Option CommentGroup} {specs : List ValueSpec} {v : ValueSpec}
      {n : Name} {e : Element} :
      v ∈ specs → n ∈ v.names → e.kind = Package.valueKind kind → e.name = n.text →
      Declares (.values kind doc specs) e n.pos
  | func {d : FuncDecl} {e : Element} :
      e.kind ∈ [Kind.constructor, .function, .method] → e.name = d.name.text →
      Declares (.func d) e d.name.pos

/-- The file declares the element at the position whose place it has. -/
def File.Locates (f : File) (e : Element) : Prop :=
  ∃ d ∈ f.decls, ∃ pos, d.Declares e pos ∧ e.HasPlace (f.place pos)

namespace Package

variable {p : Package} {s : Scope} {c : Candidate} {t : TypeDecl} {kinds : Config.MemberKinds}
  {f : File}

/-! ## 1. Candidates -/

theorem located_of_mem_fieldCandidates {specs : List TypeSpec} {fs : List Field} {g : Field}
    (hd : .types t.declDoc specs ∈ t.file.decls) (ht : t.spec ∈ specs)
    (htype : t.spec.type = .struct fs) (hg : g ∈ fs) (hc : c ∈ p.fieldCandidates kinds t g) :
    t.file.Locates c.element := by
  unfold fieldCandidates at hc
  dsimp only at hc
  split at hc
  · rename_i hnames
    rw [List.mem_singleton.mp (List.mem_ite_nil_right.mp hc).2]
    exact ⟨_, hd, _, .embedded ht htype hg (List.isEmpty_iff.mp hnames) rfl rfl rfl, rfl, rfl⟩
  · obtain ⟨n, hn, rfl⟩ := List.mem_map.mp (List.mem_ite_nil_right.mp hc).2
    exact ⟨_, hd, _, .field ht htype hg (List.mem_filter.mp hn).1 rfl rfl, rfl, rfl⟩

theorem located_of_mem_interfaceCandidates {specs : List TypeSpec} {fs : List Field} {g : Field}
    (hd : .types t.declDoc specs ∈ t.file.decls) (ht : t.spec ∈ specs)
    (htype : t.spec.type = .interface fs) (hg : g ∈ fs)
    (hc : c ∈ p.interfaceCandidates kinds t g) : t.file.Locates c.element := by
  unfold interfaceCandidates at hc
  split at hc
  · obtain ⟨n, hn, hc⟩ := List.mem_flatMap.mp hc
    rw [List.mem_singleton.mp (List.mem_ite_nil_right.mp hc).2]
    exact ⟨_, hd, _, .signature ht htype hg hn rfl rfl, rfl, rfl⟩
  · cases hc

theorem located_of_mem_declaredMethod {m : MethodDecl} {type : String} (hm : m ∈ p.methodsOf type)
    (hc : c ∈ p.declaredMethod kinds t m) : m.file ∈ p.files ∧ m.file.Locates c.element := by
  obtain ⟨-, hfile, hd, -⟩ := mem_methodsOf_iff.mp hm
  rw [List.mem_singleton.mp (List.mem_ite_nil_right.mp hc).2]
  exact ⟨hfile, _, hd, _, .func (.tail _ (.tail _ (.head _))) rfl, rfl, rfl⟩

theorem located_of_mem_declCandidates {d : Decl} (hd : d ∈ f.decls)
    (hc : c ∈ p.declCandidates kinds f d) : f.Locates c.element := by
  unfold declCandidates at hc
  split at hc
  · rename_i d
    unfold functionCandidate at hc
    have hc := List.mem_singleton.mp (List.mem_ite_nil_left.mp (List.mem_ite_nil_right.mp hc).2).2
    rw [hc]
    refine ⟨_, hd, _, .func ?_ rfl, rfl, rfl⟩
    cases p.isConstructor d
    · exact .tail _ (.head _)
    · exact .head _
  · rename_i kind doc specs
    obtain ⟨v, hv, hc⟩ := List.mem_flatMap.mp (List.mem_ite_nil_right.mp hc).2
    obtain ⟨n, hn, rfl⟩ := List.mem_map.mp hc
    refine ⟨_, hd, _, .value hv (List.mem_filter.mp hn).1 ?_ rfl, rfl, rfl⟩
    cases kind <;> rfl
  · cases hc

theorem exists_methodsOf_of_mem_promotedMethods {m : MethodDecl} (hm : m ∈ p.promotedMethods t) :
    ∃ type, m ∈ p.methodsOf type := by
  have hsupplied := List.mem_of_find?_eq_some (mem_promotedMethods_iff.mp hm).2
  obtain ⟨type, -, hm⟩ := List.mem_flatMap.mp hsupplied
  exact ⟨type, hm⟩

theorem located_of_mem_candidates (hc : c ∈ p.candidates s) :
    ∃ f ∈ p.files, f.Locates c.element := by
  rcases mem_candidates_iff.mp hc with ⟨t, ht, -, hc⟩ | ⟨⟨f, hf, d, hd, hc⟩, -⟩
  · obtain ⟨hfile, specs, hd, hspec⟩ := mem_typeDecls_iff.mp (mem_of_mem_firstByName ht)
    rcases hc with rfl | ⟨hc, -⟩
    · exact ⟨t.file, hfile, _, hd, _, .type hspec rfl rfl, rfl, rfl⟩
    rcases mem_membersOfType_iff.mp hc with ⟨fs, hfs, g, hg, hc⟩ | ⟨fs, hfs, g, hg, hc⟩ |
      ⟨m, hm, hc⟩ | ⟨-, m, hm, hc⟩
    · exact ⟨t.file, hfile, located_of_mem_fieldCandidates hd hspec hfs hg hc⟩
    · exact ⟨t.file, hfile, located_of_mem_interfaceCandidates hd hspec hfs hg hc⟩
    · exact ⟨m.file, located_of_mem_declaredMethod hm hc⟩
    · obtain ⟨type, hm⟩ := exists_methodsOf_of_mem_promotedMethods hm
      exact ⟨m.file, located_of_mem_declaredMethod hm hc⟩
  · exact ⟨f, hf, located_of_mem_declCandidates hd hc⟩

end Package

/-! ## 2. Letters in the text -/

/-- A name spells an element that is called so. -/
theorem spelled_of_name {Q : Item → Prop} {n : Name} (hn : n.From Q) {e : Element}
    (hname : e.name = n.text) : ∃ i, Q i ∧ i.pos = n.pos ∧ e.Spelled i.tok.letters := by
  obtain ⟨i, hi, htok, hpos⟩ := hn
  have hletters : i.tok.letters = n.text.toList := by rw [htok]; rfl
  refine ⟨i, hi, hpos, hletters ▸ n.toIdent.letters_ne_nil, .inl ?_⟩
  rw [hletters, hname]

/-- **What a declaration declares is spelled by the token there.** -/
theorem Decl.Declares.stands {Q : Item → Prop} {d : Decl} {e : Element} {pos : Pos}
    (h : d.Declares e pos) (hd : d.From Q (Expr.From Q)) :
    ∃ i, Q i ∧ i.pos = pos ∧ e.Spelled i.tok.letters := by
  cases h with
  | type ht hkind hname => exact spelled_of_name (hd _ ht).1 hname
  | field ht htype hg hn hkind hname =>
    exact spelled_of_name (((hd _ ht).2.1 _ htype _ hg).1 _ hn) hname
  | embedded ht htype hg hnil hkind hname hsignature =>
    obtain ⟨i, hi, hpos, hne, hprefix⟩ := ((hd _ ht).2.1 _ htype _ hg).2 hnil
    exact ⟨i, hi, hpos, hne, .inr ⟨hkind, hsignature ▸ hprefix⟩⟩
  | signature ht htype hg hn hkind hname =>
    exact spelled_of_name ((hd _ ht).2.2 _ htype _ hg _ hn) hname
  | value hv hn hkind hname => exact spelled_of_name (hd _ hv _ hn) hname
  | func hkind hname => exact spelled_of_name hd hname

/-- The file has the text, and behind `before` the declaration of the element, spelled as the element
is; the element has the place that is reported there. -/
structure File.Shows (f : File) (text : String) (e : Element) (before : List Char) : Prop where
  parsed : File.parse? f.path text = some f
  declares : ∃ d ∈ f.decls, d.Declares e (Pos.start.after before)
  spelled : ∃ letters rest, text.toList = before ++ (letters ++ rest) ∧ e.Spelled letters
  place : e.HasPlace (f.place (Pos.start.after before))

/-- The line that begins in `before` is one of the lines of the file. -/
theorem File.Shows.line_le {f : File} {text : String} {e : Element} {before : List Char}
    (h : f.Shows text e before) : 1 ≤ before.count '\n' + 1 ∧ before.count '\n' + 1 ≤ f.lines := by
  obtain ⟨letters, rest, htext, hne, -⟩ := h.spelled
  obtain ⟨-, -, -, hlines, -⟩ := eq_of_parse? h.parsed
  have hle := StandsAt.line_le ⟨before, rest, htext, rfl⟩ hne
  rw [Pos.line_start_after] at hle
  exact hlines ▸ hle

theorem File.Locates.shows {f : File} {e : Element} {path text : String} (h : f.Locates e)
    (hf : File.parse? path text = some f) : ∃ before, f.Shows text e before := by
  obtain ⟨d, hd, pos, hdeclares, hplace⟩ := h
  obtain ⟨-, -, hpath, -⟩ := eq_of_parse? hf
  obtain ⟨i, ⟨before, rest, htext, hstart⟩, hpos, hspelled⟩ := hdeclares.stands (decls_stand hf d hd)
  obtain rfl : pos = Pos.start.after before := hpos.symm.trans hstart
  exact ⟨before, hpath ▸ hf, ⟨d, hd, hdeclares⟩, ⟨_, rest, htext, hspelled⟩, hplace⟩

end Source

/-- **The elements of a parsed package stand in its files**, at the places that they have. -/
theorem Inventory.shown_of_mem_ofPackage {p : Package} {s : Scope} {e : Element}
    (hp : p.Parsed) (he : e ∈ (ofPackage p s).elements) :
    ∃ f ∈ p.files, ∃ text before, f.Shows text e before := by
  obtain ⟨c, hc, rfl⟩ := exists_candidate_of_mem he
  obtain ⟨f, hf, hlocates⟩ := Package.located_of_mem_candidates hc
  obtain ⟨path, text, hparse⟩ := hp f hf
  exact ⟨f, hf, text, hlocates.shows hparse⟩

end DocAudit
