import DocAudit.Files.Tree
import DocAudit.Proofs.Files.Clean
import Mathlib.Data.String.Basic

/-!
# Well-formed trees

A file system lists the entries of a directory by name, each name once.

* `Tree.WellFormed` says so of all directories of a tree, and `Tree.WellFormed.put` keeps it;
* `Tree.WellFormed.lookup_iff`: in such a directory a name stands for one entry;
* `Tree.WellFormed.at?`: what names lead to is well-formed, and the names can be names of entries.
-/

namespace DocAudit.Files

/-- **A tree as a file system has it**: the entries of each directory stand in increasing order of
their names. -/
inductive Tree.WellFormed : Tree → Prop
  | file (content : ByteArray) : WellFormed (.file content)
  | link (target : String) : WellFormed (.link target)
  | dir (es : List (String × Tree)) (named : ∀ x ∈ es, IsEntryName x.1)
      (sorted : es.Pairwise fun x y => x.1 < y.1) (below : ∀ x ∈ es, WellFormed x.2) :
      WellFormed (.dir es)

mutual

/-- Whether a tree is well-formed. -/
def Tree.isWellFormed : Tree → Bool
  | .file _ => true
  | .link _ => true
  | .dir es => decide (es.Pairwise fun x y => x.1 < y.1) && areWellFormed es

/-- Whether entries of a directory have names of entries and are well-formed. -/
def areWellFormed : List (String × Tree) → Bool
  | [] => true
  | (name, t) :: rest => decide (IsEntryName name) && t.isWellFormed && areWellFormed rest

end

mutual

theorem Tree.wellFormed_of_isWellFormed : ∀ {t : Tree}, t.isWellFormed = true → t.WellFormed
  | .file _, _ => .file _
  | .link _, _ => .link _
  | .dir es, h => by
      rw [Tree.isWellFormed, Bool.and_eq_true, decide_eq_true_eq] at h
      have hes := wellFormed_of_areWellFormed h.2
      exact .dir es (fun x hx => (hes x hx).1) h.1 fun x hx => (hes x hx).2

theorem wellFormed_of_areWellFormed : ∀ {es : List (String × Tree)}, areWellFormed es = true →
    ∀ x ∈ es, IsEntryName x.1 ∧ x.2.WellFormed
  | [], _, _, hx => absurd hx List.not_mem_nil
  | (name, t) :: rest, h, x, hx => by
      rw [areWellFormed, Bool.and_eq_true, Bool.and_eq_true, decide_eq_true_eq] at h
      rcases List.mem_cons.mp hx with rfl | hx
      · exact ⟨h.1.1, Tree.wellFormed_of_isWellFormed h.1.2⟩
      · exact wellFormed_of_areWellFormed h.2 x hx

end

theorem areWellFormed_iff {es : List (String × Tree)} : areWellFormed es = true ↔
    ∀ x ∈ es, IsEntryName x.1 ∧ x.2.isWellFormed = true := by
  induction es with
  | nil => simp [areWellFormed]
  | cons x es ih => simp [areWellFormed, ih, and_assoc]

theorem Tree.WellFormed.isWellFormed {t : Tree} (h : t.WellFormed) : t.isWellFormed = true := by
  induction h with
  | file | link => rfl
  | dir es named sorted below ih =>
    rw [Tree.isWellFormed, Bool.and_eq_true, decide_eq_true_eq, areWellFormed_iff]
    exact ⟨sorted, fun x hx => ⟨named x hx, ih x hx⟩⟩

instance (t : Tree) : Decidable t.WellFormed :=
  decidable_of_iff _ ⟨Tree.wellFormed_of_isWellFormed, Tree.WellFormed.isWellFormed⟩

variable {t u : Tree} {es : List (String × Tree)} {name : String} {ns : List String}

/-! ## 1. Entries -/

theorem Tree.file_ne_link (content : ByteArray) (target : String) :
    Tree.file content ≠ .link target := nofun

theorem Tree.dir_ne_link (es : List (String × Tree)) (target : String) :
    Tree.dir es ≠ .link target := nofun

theorem Tree.eq_dir_of_isDir (h : t.isDir = true) : ∃ es, t = .dir es := by
  cases t with
  | dir es => exact ⟨es, rfl⟩
  | file | link => cases h

theorem Tree.WellFormed.entries (h : t.WellFormed) :
    (∀ x ∈ t.entries, IsEntryName x.1) ∧ (t.entries.Pairwise fun x y => x.1 < y.1) ∧
      ∀ x ∈ t.entries, x.2.WellFormed := by
  cases h with
  | file => exact ⟨nofun, List.Pairwise.nil, nofun⟩
  | link => exact ⟨nofun, List.Pairwise.nil, nofun⟩
  | dir es named sorted below => exact ⟨named, sorted, below⟩

theorem mem_of_lookup_entries (h : es.lookup name = some t) : (name, t) ∈ es := by
  obtain ⟨before, after, rfl, -⟩ := List.lookup_eq_some_iff.mp h
  simp

/-- **A name stands for one entry.** -/
theorem Tree.WellFormed.lookup_iff (h : (Tree.dir es).WellFormed) :
    es.lookup name = some t ↔ (name, t) ∈ es := by
  refine ⟨mem_of_lookup_entries, fun hmem => ?_⟩
  obtain ⟨-, hsorted, -⟩ := h.entries
  obtain ⟨before, after, rfl⟩ := List.append_of_mem hmem
  refine List.lookup_eq_some_iff.mpr ⟨before, after, rfl, fun x hx => ?_⟩
  have hlt : x.1 < name := (List.pairwise_append.mp hsorted).2.2 x hx _ List.mem_cons_self
  exact bne_iff_ne.mpr (ne_of_gt hlt)

/-! ## 2. What names lead to -/

theorem Tree.at?_cons (name : String) (ns : List String) (t : Tree) :
    Tree.at? (name :: ns) t = (t.entries.lookup name).bind (Tree.at? ns) := rfl

theorem Tree.at?_singleton (e : String) (t : Tree) : Tree.at? [e] t = t.entries.lookup e := by
  rw [Tree.at?_cons]
  cases t.entries.lookup e <;> rfl

theorem Tree.at?_append (ms : List String) : ∀ (ns : List String) (t : Tree),
    Tree.at? (ns ++ ms) t = (Tree.at? ns t).bind (Tree.at? ms)
  | [], t => rfl
  | n :: ns, t => by
      rw [List.cons_append, Tree.at?_cons, Tree.at?_cons, Option.bind_assoc]
      exact congrArg _ (funext fun u => Tree.at?_append ms ns u)

theorem isDir_of_at?_cons (h : Tree.at? (name :: ns) t = some u) : t.isDir = true := by
  cases t with
  | dir es => rfl
  | file | link => cases h

/-- **What names lead to is well-formed**, and the names can be names of entries. -/
theorem Tree.WellFormed.at? : ∀ {ns : List String} {t : Tree}, t.WellFormed →
    Tree.at? ns t = some u → u.WellFormed ∧ ∀ n ∈ ns, IsEntryName n
  | [], t, h, hat => by
      cases hat
      exact ⟨h, nofun⟩
  | n :: ns, t, h, hat => by
      obtain ⟨v, hlookup, hat⟩ := Option.bind_eq_some_iff.mp hat
      obtain ⟨hnamed, -, hbelow⟩ := h.entries
      have hmem := mem_of_lookup_entries hlookup
      obtain ⟨hu, hns⟩ := Tree.WellFormed.at? (hbelow _ hmem) hat
      exact ⟨hu, List.forall_mem_cons.mpr ⟨hnamed _ hmem, hns⟩⟩

/-! ## 3. Putting a tree in a place -/

theorem mem_putNamed {x : String × Tree} : ∀ {es : List (String × Tree)},
    x ∈ putNamed name t es → x = (name, t) ∨ x ∈ es
  | [], h => .inl (List.mem_singleton.mp h)
  | (n, u) :: es, h => by
      rw [putNamed] at h
      split at h
      · exact (List.mem_cons.mp h).imp_right (List.mem_cons_of_mem _)
      · split at h
        · exact List.mem_cons.mp h
        · rcases List.mem_cons.mp h with rfl | h
          · exact .inr List.mem_cons_self
          · exact (mem_putNamed h).imp_right (List.mem_cons_of_mem _)

theorem pairwise_putNamed : ∀ {es : List (String × Tree)}, (es.Pairwise fun x y => x.1 < y.1) →
    (putNamed name t es).Pairwise fun x y => x.1 < y.1
  | [], _ => List.pairwise_singleton _ _
  | (n, u) :: es, h => by
      obtain ⟨hfirst, hrest⟩ := List.pairwise_cons.mp h
      rw [putNamed]
      split
      · rename_i heq
        rw [beq_iff_eq] at heq
        subst heq
        exact List.pairwise_cons.mpr ⟨hfirst, hrest⟩
      · rename_i hne
        split
        · rename_i hlt
          refine List.pairwise_cons.mpr ⟨fun x hx => ?_, h⟩
          rcases List.mem_cons.mp hx with rfl | hx
          · exact hlt
          · exact lt_trans hlt (hfirst x hx)
        · rename_i hge
          have hlt : n < name := lt_of_le_of_ne (not_lt.mp hge) (mt beq_iff_eq.mpr hne)
          refine List.pairwise_cons.mpr ⟨fun x hx => ?_, pairwise_putNamed hrest⟩
          rcases mem_putNamed hx with rfl | hx
          · exact hlt
          · exact hfirst x hx

/-- **Putting a well-formed tree in a place keeps a tree well-formed.** -/
theorem Tree.WellFormed.put (hu : u.WellFormed) : ∀ {ns : List String} {t : Tree},
    t.WellFormed → (∀ n ∈ ns, IsEntryName n) → (t.put ns u).WellFormed
  | [], t, _, _ => by
      rw [Tree.put]
      exact hu
  | n :: ns, t, h, hns => by
      obtain ⟨hnamed, hsorted, hbelow⟩ := h.entries
      obtain ⟨hn, hns⟩ := List.forall_mem_cons.mp hns
      have hold : ((t.entries.lookup n).getD (.dir [])).WellFormed := by
        cases hlookup : t.entries.lookup n with
        | none => exact .dir [] nofun List.Pairwise.nil nofun
        | some v => exact hbelow _ (mem_of_lookup_entries hlookup)
      have hnew := Tree.WellFormed.put hu hold hns
      rw [Tree.put]
      refine .dir _ (fun x hx => ?_) (pairwise_putNamed hsorted) fun x hx => ?_
      · rcases mem_putNamed hx with rfl | hx
        · exact hn
        · exact hnamed x hx
      · rcases mem_putNamed hx with rfl | hx
        · exact hnew
        · exact hbelow x hx

end DocAudit.Files
