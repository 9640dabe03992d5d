import DocAudit.Proofs.Except
import DocAudit.Proofs.Text.Words
import DocAudit.Rule.DocNamePrefix

/-!
# Articles before names

A doc comment begins with the name of its element, and the rule can allow an article before the
name.  Allowing articles finds less, as it should, except on elements whose name is an article: if
the comment begins with the name, the name is taken for an article, and the next word should be the
name.

* `isNameWord_article_iff`: an article begins with no name but itself;
* `startsWithName_dropped_iff`: where the article that is left out was the name;
* `articles_relax_unless_name_taken`: what is found with articles allowed is found without, except
  on elements whose names are taken for articles.
-/

namespace DocAudit.Rule.DocNamePrefix

open DocAudit.Text DocAudit.Yaml

/-! ## 1. Words and names -/

section Words

variable {name word : List Char}

/-- A word goes on after the name with a character that no name has. -/
theorem isNameWord_iff : isNameWord name word = true ↔
    ∃ rest, word = name ++ rest ∧ ∀ c ∈ rest.head?, isNameChar c = false := by
  unfold isNameWord
  cases h : dropStart? name word with
  | none =>
    simp only [Bool.false_eq_true, false_iff]
    rintro ⟨rest, hword, -⟩
    rw [dropStart?_eq_some_iff.mpr hword] at h
    cases h
  | some rest =>
    have hword : word = name ++ rest := dropStart?_eq_some_iff.mp h
    have honly : ∀ r, word = name ++ r → r = rest := fun r hr =>
      List.append_cancel_left (hr.symm.trans hword)
    cases rest with
    | nil => exact ⟨fun _ => ⟨[], hword, nofun⟩, fun _ => rfl⟩
    | cons c r =>
      rw [Bool.not_eq_true']
      constructor
      · exact fun hc => ⟨_, hword, fun x hx => Option.some.inj hx ▸ hc⟩
      · rintro ⟨r', hr', hc⟩
        exact hc c (honly r' hr' ▸ rfl)

/-- **An article begins with no name but itself**, since all its characters go on a name. -/
theorem isNameWord_article_iff (h : word ∈ articles) :
    isNameWord name word = true ↔ name = word := by
  have hall : articles.all (·.all isNameChar) = true := by decide +kernel
  have hchars : ∀ c ∈ word, isNameChar c = true :=
    List.all_eq_true.mp (List.all_eq_true.mp hall word h)
  rw [isNameWord_iff]
  constructor
  · rintro ⟨rest, rfl, hrest⟩
    cases rest with
    | nil => exact (List.append_nil name).symm
    | cons c rest =>
      have hc : isNameChar c = true := hchars c (by simp)
      rw [hrest c rfl] at hc
      cases hc
  · rintro rfl
    exact ⟨[], (List.append_nil name).symm, nofun⟩

end Words

/-- The name is the first word of the text and an article, and the next word is not the name. -/
def TakesForArticle (doc name : String) : Prop :=
  name.toList ∈ articles ∧ ∃ word rest, words doc.toList = name.toList :: word :: rest ∧
    isNameWord name.toList word = false

/-- **The article that is left out was the name.** -/
theorem startsWithName_dropped_iff {doc name : String} :
    startsWithName doc name false = true ∧ startsWithName doc name true = false ↔
      TakesForArticle doc name := by
  unfold startsWithName TakesForArticle
  -- Of one word nothing is left out, so the settings differ from two words on.
  rcases words doc.toList with _ | ⟨w, _ | ⟨v, rest⟩⟩
  · simp [fromName]
  · simp [fromName]
  · by_cases hw : w ∈ articles
    · have hcontains : articles.contains w = true := List.contains_iff_mem.mpr hw
      simp only [fromName, hcontains, Bool.and_self, Bool.false_and, if_true, Bool.false_eq_true,
        if_false, isNameWord_article_iff hw, List.cons.injEq]
      constructor
      · rintro ⟨rfl, hv⟩
        exact ⟨hw, v, rest, ⟨rfl, rfl, rfl⟩, hv⟩
      · rintro ⟨-, _, _, ⟨rfl, rfl, rfl⟩, hv⟩
        exact ⟨rfl, hv⟩
    · have hcontains : articles.contains w = false := by simpa using hw
      simp only [fromName, hcontains, Bool.and_false, Bool.false_eq_true, if_false]
      constructor
      · rintro ⟨h, h'⟩
        rw [h] at h'
        cases h'
      · rintro ⟨hname, _, _, heq, -⟩
        rw [(List.cons.inj heq).1] at hw
        exact absurd hname hw

/-! ## 2. Findings -/

/-- An element whose name the doc comment begins with, and which is taken for an article. -/
def NameTaken (v : Inventory) (e : Element) : Prop :=
  ∃ doc, v.doc? e = some doc ∧ TakesForArticle doc e.name

section Findings

variable {v : Inventory} {e : Element} {f : Finding} {skip : List Kind} {o : Options}

theorem misnamed_iff : misnamed o v e = true ↔ e.kind ∉ o.skipKinds ∧
    ∃ doc, v.doc? e = some doc ∧ trim doc ≠ "" ∧
      startsWithName doc e.name o.allowArticles = false := by
  unfold misnamed
  cases v.doc? e <;> simp

theorem trim_ne_of_startsWithName {doc name : String} {allow : Bool}
    (h : startsWithName doc name allow = true) : trim doc ≠ "" := by
  intro htrim
  rw [startsWithName, words_eq_nil_of_trim htrim] at h
  cases h

/-- **What only articles bring about** is found on elements whose names are taken for them. -/
theorem misnamed_dropped_iff :
    misnamed ⟨true, skip⟩ v e = true ∧ ¬ misnamed ⟨false, skip⟩ v e = true ↔
      e.kind ∉ skip ∧ NameTaken v e := by
  rw [misnamed_iff, misnamed_iff]
  constructor
  · rintro ⟨⟨hskip, doc, hdoc, htrim, hon⟩, hoff⟩
    refine ⟨hskip, doc, hdoc, startsWithName_dropped_iff.mp ⟨?_, hon⟩⟩
    rw [← Bool.not_eq_false]
    exact fun hfalse => hoff ⟨hskip, doc, hdoc, htrim, hfalse⟩
  · rintro ⟨hskip, doc, hdoc, htaken⟩
    obtain ⟨hoff, hon⟩ := startsWithName_dropped_iff.mpr htaken
    refine ⟨⟨hskip, doc, hdoc, trim_ne_of_startsWithName hoff, hon⟩, ?_⟩
    rintro ⟨-, doc', hdoc', -, hfalse⟩
    rw [hdoc] at hdoc'
    cases hdoc'
    rw [hoff] at hfalse
    cases hfalse

theorem mem_findings_iff : f ∈ findings o v ↔
    f.element ∈ v.elements ∧ f.message = message f.element ∧ misnamed o v f.element = true := by
  unfold findings report
  rw [List.mem_map]
  constructor
  · rintro ⟨e, he, rfl⟩
    obtain ⟨hmem, hbad⟩ := List.mem_filter.mp he
    exact ⟨hmem, rfl, hbad⟩
  · rintro ⟨hmem, hmessage, hbad⟩
    refine ⟨f.element, List.mem_filter.mpr ⟨hmem, hbad⟩, ?_⟩
    rw [← hmessage]

end Findings

/-! ## 3. Evaluating the rule -/

/-- The fault of options that name a kind which there is not. -/
def kindFault (skip : List Kind) : Option Error :=
  (skip.find? fun k => !Kind.all.contains k).map fun k =>
    Error.ruleOptions id (.plain ("unknown kind " ++ quoted k.text ++ " in skip_kinds"))

/-- With options that can be read, the rule fails on unknown kinds, or stops, or makes its
findings. -/
theorem evaluate_of_readOptions {options : Option Node} {o : Options}
    (h : readOptions id Options.slot .default options = .ok o) (v : Inventory) (cancelled : Bool) :
    docNamePrefix.evaluate v options cancelled =
      match kindFault o.skipKinds with
      | some e => .error e
      | none => if cancelled then .error .cancelled else .ok (findings o v) := by
  simp only [evaluate, evaluation, docNamePrefix, h, bind, Except.bind, kindFault]
  cases o.skipKinds.find? fun k => !Kind.all.contains k with
  | some k => rfl
  | none => cases cancelled <;> rfl

/-- **Allowing articles finds less, unless a name is taken for one.**  With the same kinds left
alone, the rule fails alike whether articles are allowed or not; and what it finds with articles
allowed and not without them is found on elements whose names are articles, whose comments begin
with the name, and not with the name twice. -/
theorem articles_relax_unless_name_taken {on off : Option Node} {skip : List Kind}
    (hon : readOptions id Options.slot .default on = .ok ⟨true, skip⟩)
    (hoff : readOptions id Options.slot .default off = .ok ⟨false, skip⟩)
    (v : Inventory) (cancelled : Bool) :
    (∀ e, docNamePrefix.evaluate v on cancelled = .error e ↔
      docNamePrefix.evaluate v off cancelled = .error e) ∧
    ∀ fs, docNamePrefix.evaluate v on cancelled = .ok fs →
      ∃ fs', docNamePrefix.evaluate v off cancelled = .ok fs' ∧
        ∀ f, f ∈ fs ∧ f ∉ fs' ↔ f.element ∈ v.elements ∧ f.message = message f.element ∧
          f.element.kind ∉ skip ∧ NameTaken v f.element := by
  rw [evaluate_of_readOptions hon, evaluate_of_readOptions hoff]
  cases kindFault skip with
  | some e => simp only [iff_self, implies_true, reduceCtorEq, false_implies, and_self]
  | none =>
    cases cancelled with
    | true => simp only [if_true, iff_self, implies_true, reduceCtorEq, false_implies, and_self]
    | false =>
      simp only [Bool.false_eq_true, if_false, reduceCtorEq, iff_self, implies_true, true_and,
        Except.ok.injEq, exists_eq_left']
      rintro fs rfl f
      rw [mem_findings_iff, mem_findings_iff, ← misnamed_dropped_iff]
      constructor
      · rintro ⟨⟨hmem, hmessage, hbad⟩, hnot⟩
        exact ⟨hmem, hmessage, hbad, fun hoff' => hnot ⟨hmem, hmessage, hoff'⟩⟩
      · rintro ⟨hmem, hmessage, hbad, hnot⟩
        exact ⟨⟨hmem, hmessage, hbad⟩, fun h => hnot h.2.2⟩

/-! ## 4. Names that are articles -/

/-- An exported function of the package `p`. -/
def functionNamed (name : String) : Element where
  kind := .function
  qualifiedName := "example.com/p." ++ name
  displayName := "p." ++ name
  name := name
  sourceFile := "p.go"
  line := 3
  visibility := .pub
  memberKinds := [.function]
  accessorKinds := []
  package := "example.com/p"
  signature := name ++ "()"
  annotations := []

/-- The options that allow no articles. -/
def withoutArticles : Option Node :=
  some (.map (.ofTag "!!map") false
    [(.scalar (.ofTag "!!str") .plain "allow_articles", .scalar (.ofTag "!!bool") .plain "false")])

theorem readOptions_withoutArticles :
    readOptions id Options.slot .default withoutArticles = .ok ⟨false, []⟩ := by
  have h : (readOptions id Options.slot .default withoutArticles).toOption.any (fun o =>
      decide (o = ⟨false, []⟩)) = true := by decide +kernel
  obtain ⟨o, ho, rfl⟩ := exists_eq_ok_of_any h
  exact ho

theorem evaluate_default (v : Inventory) :
    docNamePrefix.evaluate v none false = .ok (findings .default v) :=
  evaluate_of_readOptions (o := .default) rfl v false

theorem evaluate_withoutArticles (v : Inventory) :
    docNamePrefix.evaluate v withoutArticles false = .ok (findings ⟨false, []⟩ v) :=
  evaluate_of_readOptions (o := ⟨false, []⟩) readOptions_withoutArticles v false

/-- A function with an article before its name, one without its name, and one whose name is an
article. -/
def articleInventory : Inventory := .ofList
  [(functionNamed "Open", some "The Open function opens.\n"),
    (functionNamed "Run", some "It runs.\n"), (functionNamed "A", some "A starts.\n")]

/-- Articles relax the rule on one function, and take the name of another for an article. -/
theorem articles_relax_unless_name_taken_open :
    ∃ fs fs', docNamePrefix.evaluate articleInventory none false = .ok fs ∧
      docNamePrefix.evaluate articleInventory withoutArticles false = .ok fs' ∧
      fs.map (·.element.name) = ["Run", "A"] ∧ fs'.map (·.element.name) = ["Open", "Run"] ∧
      ∀ f ∈ fs, f ∈ fs' ∨ NameTaken articleInventory f.element := by
  have hon : readOptions id Options.slot .default none = .ok ⟨true, []⟩ := rfl
  obtain ⟨-, hrelax⟩ :=
    articles_relax_unless_name_taken hon readOptions_withoutArticles articleInventory false
  obtain ⟨fs', hfs', hdiff⟩ := hrelax _ (evaluate_default articleInventory)
  have hfound : fs' = findings ⟨false, []⟩ articleInventory :=
    Except.ok.inj (hfs'.symm.trans (evaluate_withoutArticles articleInventory))
  refine ⟨_, fs', evaluate_default _, hfs', by decide +kernel, hfound ▸ by decide +kernel,
    fun f hf => ?_⟩
  by_cases hmem : f ∈ fs'
  · exact .inl hmem
  · exact .inr ((hdiff f).mp ⟨hf, hmem⟩).2.2.2

/-- A function whose name is an article. -/
def articleNamed : Inventory := .ofList [(functionNamed "A", some "A starts.\n")]

/-- A doc comment that begins with the name is found only because articles are allowed. -/
theorem article_named_flagged :
    startsWithName "A starts.\n" "A" false = true ∧
      docNamePrefix.evaluate articleNamed none false =
        .ok [⟨functionNamed "A", "Doc comment for p.A should begin with \"A\""⟩] ∧
      docNamePrefix.evaluate articleNamed withoutArticles false = .ok [] := by
  rw [evaluate_default, evaluate_withoutArticles]
  refine ⟨by decide +kernel, congrArg Except.ok ?_, congrArg Except.ok ?_⟩ <;> decide +kernel

end DocAudit.Rule.DocNamePrefix
