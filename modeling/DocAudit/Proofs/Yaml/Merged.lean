import DocAudit.Proofs.Yaml.Intake
import Mathlib.Logic.Relation

/-!
# Mappings merged into others

A mapping may ask for others to be merged into it, and these for more.  Every entry of all of them
is taken in, except where its key has been taken in already.

* `Spot.sources`: the mappings that are merged into one;
* `Merged`: what a run of merges comes to, and `ensures_merge` with its companions: a run without
  faults comes to that;
* `ensures_take_merged`: which entries of a mapping and its sources have been taken in.
-/

namespace DocAudit.Yaml

variable {κ σ : Type} {around : List Node}

/-! ## 1. Sources -/

/-- The nodes that the last of the entries that ask for it merges in: a mapping or several. -/
def mergedNodes : List (Node × Node) → List Node
  | [] => []
  | (k, v) :: es =>
    if k.isMerge && !es.any (·.1.isMerge) then
      match v with
      | .seq _ _ items => items
      | v => [v]
    else mergedNodes es

namespace Spot

/-- A mapping as it is decoded where it is merged in: in block style. -/
def opened (s : Spot) : Spot :=
  match s.node with
  | .map h _ es => ⟨.map h false es, s.around⟩
  | _ => s

/-- **The mappings that are merged into one.** -/
def sources (s : Spot) : List Spot :=
  match s.node with
  | .map _ _ es => (mergedNodes es).map fun n => (of s.inner n).opened
  | _ => []

/-- A mapping is merged into another, directly or through others. -/
abbrev Draws (s t : Spot) : Prop := t ∈ s.sources

/-- A mapping itself, or one merged into it. -/
abbrev Reaches : Spot → Spot → Prop := Relation.ReflTransGen Draws

end Spot

open Spot

/-! ## 2. What has been taken in -/

section

variable (K : Spot → Option κ → Prop) (Q : κ → Spot → Prop)

/-- A key is taken in by an entry. -/
def TakenIn (es : List (Spot × Spot)) (a : κ) : Prop := ∃ e ∈ es, K e.1 (some a) ∧ Q a e.2

/-- A key is taken in by an entry of a mapping or of one merged into it. -/
def TakenBelow (t : Spot) (a : κ) : Prop := ∃ u, Reaches t u ∧ TakenIn K Q u.entries a

/-- Every entry of a mapping asks for a merge, or has no key, or has one of which something
holds. -/
def Accounts (ok : κ → Prop) (u : Spot) : Prop :=
  ∀ e ∈ u.entries, e.1.node.isMerge = true ∨ K e.1 none ∨ ∃ a, K e.1 (some a) ∧ ok a

/-- What merging mappings comes to, where some keys were set before and some are set after. -/
structure Merged (set : List κ) (ts : List Spot) (set' : List κ) : Prop where
  accounts : ∀ t ∈ ts, ∀ u, Reaches t u →
    Accounts K (fun a => a ∈ set ∨ ∃ t' ∈ ts, TakenBelow K Q t' a) u
  held : ∀ a ∈ set', a ∈ set ∨ ∃ t' ∈ ts, TakenBelow K Q t' a

end

variable {K : Spot → Option κ → Prop} {Q : κ → Spot → Prop} {set set₁ set₂ : List κ}
  {t : Spot} {ts : List Spot}

theorem Accounts.mono {ok ok' : κ → Prop} {u : Spot} (h : Accounts K ok u)
    (himp : ∀ a, ok a → ok' a) : Accounts K ok' u := by
  intro e he
  obtain hmerge | hnone | ⟨a, ha, hok⟩ := h e he
  · exact .inl hmerge
  · exact .inr (.inl hnone)
  · exact .inr (.inr ⟨a, ha, himp a hok⟩)

theorem Merged.nil : Merged K Q set [] set :=
  ⟨fun _ h => (nomatch h), fun _ h => .inl h⟩

theorem Merged.cons (h : Merged K Q set [t] set₁) (h' : Merged K Q set₁ ts set₂) :
    Merged K Q set (t :: ts) set₂ := by
  have hfirst (a : κ) (ha : a ∈ set ∨ ∃ t' ∈ [t], TakenBelow K Q t' a) :
      a ∈ set ∨ ∃ t' ∈ t :: ts, TakenBelow K Q t' a := by
    obtain ha | ⟨t', ht', ha⟩ := ha
    · exact .inl ha
    · exact .inr ⟨t', List.mem_singleton.mp ht' ▸ List.mem_cons_self, ha⟩
  have hrest (a : κ) (ha : a ∈ set₁ ∨ ∃ t' ∈ ts, TakenBelow K Q t' a) :
      a ∈ set ∨ ∃ t' ∈ t :: ts, TakenBelow K Q t' a := by
    obtain ha | ⟨t', ht', ha⟩ := ha
    · exact hfirst a (h.held a ha)
    · exact .inr ⟨t', List.mem_cons_of_mem _ ht', ha⟩
  refine ⟨fun t' ht' u hu => ?_, fun a ha => hrest a (h'.held a ha)⟩
  obtain rfl | ht' := List.mem_cons.mp ht'
  · exact (h.accounts t' List.mem_cons_self u hu).mono hfirst
  · exact (h'.accounts t' ht' u hu).mono hrest

theorem TakenIn.cons {e : Spot × Spot} {es : List (Spot × Spot)} {a : κ} (h : TakenIn K Q es a) :
    TakenIn K Q (e :: es) a := by
  obtain ⟨e', he', hentry⟩ := h
  exact ⟨e', List.mem_cons_of_mem _ he', hentry⟩

theorem TakenBelow.of_source {u : Spot} {a : κ} (hu : u ∈ t.sources) (h : TakenBelow K Q u a) :
    TakenBelow K Q t a := by
  obtain ⟨w, hw, hentry⟩ := h
  exact ⟨w, .head hu hw, hentry⟩

/-- A mapping is merged in: its own entries first, then those merged into it. -/
theorem Merged.single (hown : Accounts K (fun a => a ∈ set ∨ TakenIn K Q t.entries a) t)
    (hleft : ∀ a ∈ set₁, a ∈ set ∨ TakenIn K Q t.entries a) (h : Merged K Q set₁ t.sources set₂) :
    Merged K Q set [t] set₂ := by
  have hbelow (a : κ) (ha : a ∈ set ∨ TakenIn K Q t.entries a) :
      a ∈ set ∨ ∃ t' ∈ [t], TakenBelow K Q t' a :=
    ha.imp_right fun ha => ⟨t, List.mem_cons_self, t, .refl, ha⟩
  have hsources (a : κ) (ha : a ∈ set₁ ∨ ∃ u ∈ t.sources, TakenBelow K Q u a) :
      a ∈ set ∨ ∃ t' ∈ [t], TakenBelow K Q t' a := by
    obtain ha | ⟨u, hu, ha⟩ := ha
    · exact hbelow a (hleft a ha)
    · exact .inr ⟨t, List.mem_cons_self, ha.of_source hu⟩
  refine ⟨fun t' ht' u hu => ?_, fun a ha => hsources a (h.held a ha)⟩
  obtain rfl := List.mem_singleton.mp ht'
  obtain rfl | ⟨w, hw, hwu⟩ := Relation.ReflTransGen.cases_head hu
  · exact hown.mono hbelow
  · exact (h.accounts w hw u hwu).mono hsources

/-! ## 3. Runs -/

/-- An entry whose value is let pass and which keeps a property of the state. -/
def Passing (Q : κ → Spot → Prop) (I : σ → Prop) (a : κ) (_ v : Spot) (s t : σ) : Prop :=
  Q a v ∧ (I s → I t)

/-- Every key that is set after the entries of a mapping was set before or is taken in by one. -/
theorem held_of_owns [BEq κ] {I : σ → Prop} {es : List (Node × Node)} {before : Option (List κ)}
    {s : σ} {x : Option (List κ) × σ} (h : Intake.Owns around K (Passing Q I) es before s x)
    (hbefore : before = some set) : ∃ set', x.1 = some set' ∧
      ∀ a ∈ set', a ∈ set ∨ TakenIn K Q (pairs around es) a := by
  induction h generalizing set with
  | nil => exact ⟨set, hbefore, fun a ha => .inl ha⟩
  | merge _ _ ih =>
    obtain ⟨set', hset', hheld⟩ := ih hbefore
    exact ⟨set', hset', fun a ha => (hheld a ha).imp_right .cons⟩
  | skip _ _ _ ih =>
    obtain ⟨set', hset', hheld⟩ := ih hbefore
    exact ⟨set', hset', fun a ha => (hheld a ha).imp_right .cons⟩
  | held _ _ _ _ ih =>
    obtain ⟨set', hset', hheld⟩ := ih hbefore
    exact ⟨set', hset', fun a ha => (hheld a ha).imp_right .cons⟩
  | take _ hkey _ hentry _ ih =>
    obtain ⟨set', hset', hheld⟩ := ih (congrArg (Option.map _) hbefore)
    refine ⟨set', hset', fun a ha => ?_⟩
    obtain ha | ha := hheld a ha
    · obtain rfl | ha := List.mem_cons.mp ha
      · exact .inr ⟨_, List.mem_cons_self, hkey, hentry.1⟩
      · exact .inl ha
    · exact .inr ha.cons

/-- A key has been set before a mapping was merged in, or is taken in by one of its entries. -/
def HeldBack (K : Spot → Option κ → Prop) (Q : κ → Spot → Prop) (before : Option (List κ))
    (es : List (Spot × Spot)) (a : κ) : Prop :=
  ∃ set, before = some set ∧ (a ∈ set ∨ TakenIn K Q es a)

/-- An entry asks for a merge, has no key, is taken in, or has a key that is held back. -/
def Explained (K : Spot → Option κ → Prop) (Q : κ → Spot → Prop) (before : Option (List κ))
    (es : List (Spot × Spot)) (e : Spot × Spot) : Prop :=
  e.1.node.isMerge = true ∨ K e.1 none ∨
    ∃ a, K e.1 (some a) ∧ (Q a e.2 ∨ HeldBack K Q before es a)

theorem Explained.mono {before before' : Option (List κ)} {es es' : List (Spot × Spot)}
    {e : Spot × Spot} (h : Explained K Q before es e)
    (himp : ∀ a, HeldBack K Q before es a → HeldBack K Q before' es' a) :
    Explained K Q before' es' e := by
  obtain hmerge | hnone | ⟨a, ha, hentry⟩ := h
  · exact .inl hmerge
  · exact .inr (.inl hnone)
  · exact .inr (.inr ⟨a, ha, hentry.imp_right (himp a)⟩)

theorem HeldBack.cons {before : Option (List κ)} {es : List (Spot × Spot)} {e : Spot × Spot} {a : κ}
    (h : HeldBack K Q before es a) : HeldBack K Q before (e :: es) a := by
  obtain ⟨set, hset, ha⟩ := h
  exact ⟨set, hset, ha.imp_right .cons⟩

theorem of_isMerge {k : Node} (h : k.isMerge = true) : (of around k).node.isMerge = true := by
  match k with
  | .scalar _ _ _ => exact h

/-- Every entry of a mapping that is taken in is explained. -/
theorem explained_of_owns [BEq κ] [LawfulBEq κ] {I : σ → Prop} {es : List (Node × Node)}
    {before : Option (List κ)} {s : σ} {x : Option (List κ) × σ}
    (h : Intake.Owns around K (Passing Q I) es before s x) :
    ∀ e ∈ pairs around es, Explained K Q before (pairs around es) e := by
  induction h with
  | nil => exact fun e he => nomatch he
  | merge hmerge _ ih =>
    rw [pairs, List.map_cons, List.forall_mem_cons]
    exact ⟨.inl (of_isMerge hmerge), fun e he => (ih e he).mono fun a => .cons⟩
  | skip _ hkey _ ih =>
    rw [pairs, List.map_cons, List.forall_mem_cons]
    exact ⟨.inr (.inl hkey), fun e he => (ih e he).mono fun a => .cons⟩
  | @held k v a es before s x _ hkey hheld _ ih =>
    rw [pairs, List.map_cons, List.forall_mem_cons]
    refine ⟨.inr (.inr ⟨a, hkey, .inr ?_⟩), fun e he => (ih e he).mono fun a => .cons⟩
    cases before with
    | none => cases hheld
    | some set => exact ⟨set, rfl, .inl (List.contains_iff_mem.mp hheld)⟩
  | @take k v a es before s t x _ hkey _ hentry _ ih =>
    rw [pairs, List.map_cons, List.forall_mem_cons]
    refine ⟨.inr (.inr ⟨a, hkey, .inl hentry.1⟩), fun e he => (ih e he).mono fun b hb => ?_⟩
    obtain ⟨set', hset', hb⟩ := hb
    obtain ⟨set, hset, rfl⟩ := Option.map_eq_some_iff.mp hset'
    refine ⟨set, hset, ?_⟩
    obtain hb | hb := hb
    · obtain rfl | hb := List.mem_cons.mp hb
      · exact .inr ⟨_, List.mem_cons_self, hkey, hentry.1⟩
      · exact .inl hb
    · exact .inr hb.cons

/-- What every entry keeps, all of them keep. -/
theorem keeps_of_owns [BEq κ] {I : σ → Prop} {es : List (Node × Node)} {before : Option (List κ)}
    {s : σ} {x : Option (List κ) × σ}
    (h : Intake.Owns around K (Passing Q I) es before s x) (hs : I s) :
    I x.2 := by
  induction h with
  | nil => exact hs
  | merge _ _ ih => exact ih hs
  | skip _ _ _ ih => exact ih hs
  | held _ _ _ _ ih => exact ih hs
  | take _ _ _ hentry _ ih => exact ih (hentry.2 hs)

variable [BEq κ] {m : Intake κ σ} {I : σ → Prop}

/-- An intake whose keys are told by `K`, which lets the values pass that `Q` tells, and which keeps
the property `I` of the state. -/
structure Intake.Checks (m : Intake κ σ) (K : Spot → Option κ → Prop) (Q : κ → Spot → Prop)
    (I : σ → Prop) : Prop where
  ensuring : m.Ensuring Node.Regular K (Passing Q I)
  opening : ∀ (merged : Bool) (s : σ), I s → I (m.opening merged s)

/-- The entries of a mapping itself, where it is merged into another. -/
theorem ensures_own_merged [LawfulBEq κ] (hm : m.Checks K Q I)
    (haround : Open Node.Regular around) {es : List (Node × Node)} {s : σ} (hes : SoundEntries es) :
    Ensures around (m.own es (some set) s) fun x => ∃ set', x.1 = some set' ∧
      (∀ a ∈ set', a ∈ set ∨ TakenIn K Q (pairs around es) a) ∧
      (∀ e ∈ pairs around es, e.1.node.isMerge = true ∨ K e.1 none ∨ ∃ a, K e.1 (some a) ∧
        (a ∈ set ∨ TakenIn K Q (pairs around es) a)) ∧ (I s → I x.2) := by
  refine (ensures_own hm.ensuring haround (entriesThroughout_iff.mp hes)).mono fun x hx => ?_
  obtain ⟨set', hset', hheld⟩ := held_of_owns hx rfl
  refine ⟨set', hset', hheld, fun e he => ?_, keeps_of_owns hx⟩
  obtain hmerge | hnone | ⟨a, ha, hentry⟩ := explained_of_owns hx e he
  · exact .inl hmerge
  · exact .inr (.inl hnone)
  · refine .inr (.inr ⟨a, ha, ?_⟩)
    obtain hq | ⟨_, ⟨⟩, hback⟩ := hentry
    · exact .inr ⟨e, he, ha, hq⟩
    · exact hback

/-- A mapping is merged in as its entries and its sources are. -/
theorem ensures_merge_map [LawfulBEq κ] (hm : m.Checks K Q I) {h : Head}
    {flow : Bool} {es : List (Node × Node)} {s : σ} (haround : Open Node.Regular around)
    (hes : SoundEntries es)
    (hlast : ∀ {around : List Node} {set : List κ} {s : σ}, Open Node.Regular around →
      Ensures around (m.mergeLast es set s) fun x =>
        Merged K Q set ((mergedNodes es).map fun n => (of around n).opened) x.1 ∧ (I s → I x.2)) :
    Ensures around (m.merge (.map h flow es) set s) fun x =>
      Merged K Q set [⟨.map h false es, around⟩] x.1 ∧ (I s → I x.2) := by
  have hgood : Good Node.Regular ⟨.map h false es, around⟩ := ⟨⟨trivial, hes⟩, rfl, haround⟩
  have hinner := hgood.inner rfl
  rw [Intake.merge]
  refine .skip .countNode fun _ => ?_
  split
  · refine .inside ((ensures_own_merged hm hinner hes).bind fun x => ?_)
    refine (hlast hinner).mono fun y hy hx => ?_
    obtain ⟨set', hset', hheld, hown, hkeep⟩ := hx
    rw [hset'] at hy
    exact ⟨.single hown hheld hy.1, fun hs => hy.2 (hkeep (hm.opening true s hs))⟩
  · rename_i fs hne
    exact (Ensures.report_all (R := fun _ => False) hne).bind fun _ => .pure False.elim

mutual

theorem ensures_merge [LawfulBEq κ] (hm : m.Checks K Q I) :
    ∀ (n : Node) {around : List Node} {set : List κ} {s : σ}, n.Sound → Open Node.Regular around →
      Ensures around (m.merge n set s) fun x =>
        Merged K Q set [(of around n).opened] x.1 ∧ (I s → I x.2)
  | .map h flow es, around, set, s, hn, haround =>
      ensures_merge_map hm haround hn.2 (ensures_mergeLast hm es hn.2)
  | .alias hd name (some (.map h flow es)), around, set, s, hn, haround => by
      rw [Intake.merge]
      refine .skip .countNode fun _ => .following ?_
      exact ensures_merge_map hm haround hn.2.2 (ensures_mergeLast hm es hn.2.2)
  | .scalar _ _ _, _, _, _, _, _ => Ensures.throw (e := .malformed)
  | .seq _ _ _, _, _, _, _, _ => Ensures.throw (e := .malformed)
  | .alias _ _ none, _, _, _, _, _ => Ensures.throw (e := .malformed)
  | .alias _ _ (some (.scalar _ _ _)), _, _, _, _, _ => Ensures.throw (e := .malformed)
  | .alias _ _ (some (.seq _ _ _)), _, _, _, _, _ => Ensures.throw (e := .malformed)
  | .alias _ _ (some (.alias _ _ _)), _, _, _, _, _ => Ensures.throw (e := .malformed)

theorem ensures_mergeAll [LawfulBEq κ] (hm : m.Checks K Q I) :
    ∀ (ns : List Node) {around : List Node} {set : List κ} {s : σ}, SoundItems ns →
      Open Node.Regular around → Ensures around (m.mergeAll ns set s) fun x =>
        Merged K Q set (ns.map fun n => (of around n).opened) x.1 ∧ (I s → I x.2)
  | [], _, _, _, _, _ => by
      rw [Intake.mergeAll]
      exact .pure ⟨.nil, id⟩
  | n :: ns, around, set, s, hns, haround => by
      rw [Intake.mergeAll]
      refine (ensures_merge hm n hns.1 haround).bind fun x => ?_
      refine (ensures_mergeAll hm ns hns.2 haround).mono fun y hy hx => ?_
      exact ⟨hx.1.cons hy.1, fun hs => hy.2 (hx.2 hs)⟩

theorem ensures_mergeLast [LawfulBEq κ] (hm : m.Checks K Q I) :
    ∀ (es : List (Node × Node)) {around : List Node} {set : List κ} {s : σ}, SoundEntries es →
      Open Node.Regular around → Ensures around (m.mergeLast es set s) fun x =>
        Merged K Q set ((mergedNodes es).map fun n => (of around n).opened) x.1 ∧ (I s → I x.2)
  | [], _, _, _, _, _ => by
      rw [Intake.mergeLast]
      exact .pure ⟨.nil, id⟩
  | (k, .seq h flow items) :: es, around, set, s, hes, haround => by
      rw [Intake.mergeLast, mergedNodes]
      split
      · exact ensures_mergeAll hm items hes.1.2.2 haround
      · exact ensures_mergeLast hm es hes.2 haround
  | (k, .scalar h style v) :: es, around, set, s, hes, haround => by
      simp only [Intake.mergeLast, mergedNodes]
      split
      · exact ensures_merge hm (.scalar h style v) hes.1.2 haround
      · exact ensures_mergeLast hm es hes.2 haround
  | (k, .map h flow fs) :: es, around, set, s, hes, haround => by
      simp only [Intake.mergeLast, mergedNodes]
      split
      · exact ensures_merge hm (.map h flow fs) hes.1.2 haround
      · exact ensures_mergeLast hm es hes.2 haround
  | (k, .alias h name t) :: es, around, set, s, hes, haround => by
      simp only [Intake.mergeLast, mergedNodes]
      split
      · exact ensures_merge hm (.alias h name t) hes.1.2 haround
      · exact ensures_mergeLast hm es hes.2 haround

end

/-- **What a mapping and its sources come to**: the value of every own entry has been let pass, and
the key of every other entry was held back or belongs to an entry whose value has been let pass. -/
structure TakenFrom (K : Spot → Option κ → Prop) (Q : κ → Spot → Prop) (held : κ → Prop)
    (s : Spot) : Prop where
  own : ∀ e ∈ s.entries, e.1.node.isMerge = true ∨ K e.1 none ∨ ∃ a, K e.1 (some a) ∧ Q a e.2
  merged : ∀ t ∈ s.sources, ∀ u, Reaches t u →
    Accounts K (fun a => held a ∨ ∃ t' ∈ s.sources, TakenBelow K Q t' a) u

theorem mergedNodes_eq_nil {es : List (Node × Node)} (h : ¬es.any (·.1.isMerge) = true) :
    mergedNodes es = [] := by
  induction es with
  | nil => rfl
  | cons e es ih =>
    obtain ⟨k, v⟩ := e
    rw [List.any_cons, Bool.or_eq_true, not_or] at h
    simp only [mergedNodes, h.1, Bool.false_and, Bool.false_eq_true, if_false]
    exact ih h.2

/-- A mapping is taken in with all that is merged into it. -/
theorem ensures_take_merged [LawfulBEq κ] (hm : m.Checks K Q I) {held : κ → Prop} {h : Head}
    {flow : Bool} {es : List (Node × Node)} {s : σ}
    (hgood : Good Node.Regular ⟨.map h flow es, around⟩)
    (hkeys : Ensures (inner ⟨.map h flow es, around⟩) (m.keys es) fun ks => ∀ a ∈ ks, held a) :
    Ensures (inner ⟨.map h flow es, around⟩) (m.take es s) fun x =>
      TakenFrom K Q held ⟨.map h flow es, around⟩ ∧ (I s → I x.1) := by
  have hinner := hgood.inner rfl
  have hown : Ensures (inner ⟨.map h flow es, around⟩) (m.own es none (m.opening false s))
      fun x => (∀ e ∈ entries ⟨.map h flow es, around⟩, e.1.node.isMerge = true ∨ K e.1 none ∨
        ∃ a, K e.1 (some a) ∧ Q a e.2) ∧ (I s → I x.2) := by
    refine (ensures_own hm.ensuring hinner (entriesThroughout_iff.mp hgood.node.2)).mono
      fun x hx => ⟨fun e he => ?_, fun hs => keeps_of_owns hx (hm.opening false s hs)⟩
    obtain hmerge | hnone | ⟨a, ha, hentry⟩ := explained_of_owns hx e he
    · exact .inl hmerge
    · exact .inr (.inl hnone)
    · obtain hq | ⟨_, ⟨⟩, _⟩ := hentry
      exact .inr (.inr ⟨a, ha, hq⟩)
  unfold Intake.take
  split
  · refine hown.bind fun x => .ite (fun _ => ?_) fun hnone => ?_
    · refine hkeys.bind fun ks => ?_
      refine (ensures_mergeLast hm es hgood.node.2 hinner).bind fun y => .pure ?_
      intro hy hheld hown
      refine ⟨⟨hown.1, fun t ht u hu => ?_⟩, fun hs => hy.2 (hown.2 hs)⟩
      exact (hy.1.accounts t ht u hu).mono fun a => Or.imp_left (hheld a)
    · refine .pure fun hown => ⟨⟨hown.1, fun t ht => ?_⟩, hown.2⟩
      simp only [sources, mergedNodes_eq_nil hnone, List.map_nil] at ht
      cases ht
  · rename_i fs hne
    exact (Ensures.report_all (R := fun _ => False) hne).bind fun _ => .pure False.elim

/-! ## 4. Contents -/

/-- What is decoded as a scalar, whatever it is, is the value of the scalar. -/
def Slot.Reveals (slot : Slot Content) : Prop :=
  ∀ (s : Spot) (old : Content), s.Good Node.Regular →
    Ensures s.inner (slot s.node old) fun x =>
      ∀ v, x.1 = .scalar v → x.2 = true → s.value? = some v

variable {slot : Slot Content}

theorem Slot.Reveals.decode (h : slot.Reveals) {n : Node} {old : Content} (hn : n.Sound)
    (haround : Open Node.Regular around) : Ensures around (slot.decode n old) fun x =>
      ∀ v, x.1 = .scalar v → x.2 = true → (of around n).value? = some v :=
  .decode (fun _ h => h) hn haround (h _ old)

/-- The values of keys are values that the keys have. -/
theorem ensures_keyValues (h : slot.Reveals) (haround : Open Node.Regular around) :
    ∀ {es : List (Node × Node)}, SoundEntries es → Ensures around (keyValues slot es) fun vs =>
      ∀ v ∈ vs, ∃ e ∈ pairs around es, e.1.value? = some v
  | [], _ => .pure fun _ h => nomatch h
  | (k, v) :: es, hes => by
      have hrest := ensures_keyValues h haround hes.2
      have hmono {vs : List Value} (hvs : ∀ v ∈ vs, ∃ e ∈ pairs around es, e.1.value? = some v) :
          ∀ w ∈ vs, ∃ e ∈ pairs around ((k, v) :: es), e.1.value? = some w := by
        intro w hw
        obtain ⟨e, he, hvalue⟩ := hvs w hw
        exact ⟨e, List.mem_cons_of_mem _ he, hvalue⟩
      rw [keyValues]
      refine (h.decode hes.1.1 haround).bind fun x => ?_
      obtain ⟨c, good⟩ := x
      dsimp only
      split
      · refine hrest.bind fun vs => .pure ?_
        intro hvs hkey
        rw [List.forall_mem_cons]
        exact ⟨⟨_, List.mem_cons_self, hkey _ rfl rfl⟩, hmono hvs⟩
      · exact .throw
      · exact hrest.mono fun vs hvs _ => hmono hvs

theorem ensures_itemsOf (h : slot.Reveals) (haround : Open Node.Regular around) {fresh : Content} :
    ∀ {xs : List Node}, SoundItems xs → Ensures around (itemsOf slot fresh xs) fun _ => True
  | [], _ => .pure trivial
  | x :: xs, hxs => by
      rw [itemsOf]
      refine .skip ((h.decode hxs.1 haround).mono fun _ _ => trivial) fun a => ?_
      exact .skip (ensures_itemsOf h haround hxs.2) fun as => .pure trivial

theorem checks_table (h : slot.Reveals) (named : Bool) :
    (tableIntake named slot).Checks (fun _ _ => True) (fun _ _ => True) fun _ => True := by
  have hdecode {around : List Node} {n : Node} {old : Content} (haround : Open Node.Regular around)
      (hn : n.Sound) : Ensures around (slot.decode n old) fun _ => True :=
    (h.decode hn haround).mono fun _ _ => trivial
  refine ⟨⟨fun around merged k haround hk => ?_, fun around a k v t haround _ hv => ?_⟩,
    fun _ _ _ => trivial⟩
  · refine .ite (fun _ => ?_) fun _ => ?_
    · refine .skip (.decode (fun _ h => h) hk haround fun hs => ?_) fun x => .pure trivial
      exact (ensures_scalar _ _ hs).mono fun _ _ => trivial
    · refine .skip (hdecode haround hk) fun x => ?_
      obtain ⟨c, good⟩ := x
      dsimp only
      split
      · exact .pure trivial
      · exact .ite (fun _ => .throw) fun _ => .throw
      · exact .pure trivial
  · exact .skip (hdecode haround hv) fun x => .pure ⟨trivial, id⟩

theorem reveals_content : ∀ depth : Nat, (contentWithin depth).Reveals
  | 0 => fun _ _ _ => .throw
  | depth + 1 => by
      have h := reveals_content depth
      intro ⟨n, around⟩ old hs
      obtain ⟨hd, style, v, rfl⟩ | ⟨hd, flow, xs, rfl⟩ | ⟨hd, flow, es, rfl⟩ :=
        Node.forms_of_plain hs.plain
      · refine Ensures.scalarValue.bind fun x => .pure ?_
        intro hx v hv _
        cases hv
        exact hx
      · refine .skip (ensures_itemsOf h (hs.inner rfl) hs.node.2) fun cs => .pure ?_
        intro v hv
        cases hv
      · have hkeys := (ensures_keyValues h (hs.inner rfl) hs.node.2).mono
          fun ks _ => fun a (_ : a ∈ ks) => trivial
        have htake (named : Bool) := (ensures_take_merged (s := []) (checks_table h named) hs
          hkeys).mono fun _ _ => trivial
        refine .skip (htake _) fun x => ?_
        obtain ⟨t, good⟩ := x
        dsimp only
        split
        · refine .pure ?_
          intro v hv
          cases hv
        · refine .pure ?_
          intro v _ hgood
          cases hgood

theorem reveals_contentSlot : contentSlot.Reveals := reveals_content maxNesting

end DocAudit.Yaml
