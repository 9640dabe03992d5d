import DocAudit.Pattern.Cache
import DocAudit.Proofs.Except
import DocAudit.Proofs.Pattern.Set

/-!
# What a cache of patterns answers

A cache answers as if it compiled every pattern anew, whatever its store gives up.

* `Store.Lawful` is what is relied on: a store returns a value that was added last under a key, or
  nothing, and does not grow over its room;
* `compile_sound`: one call is answered rightly, and the cache keeps nothing but what its keys
  write;
* `compileAll_transparent`: so is every call of a sequence, of any length;
* `compileSet_sound`: sets of patterns are compiled through a cache as without it.
-/

namespace DocAudit.Pattern

/-! ## 1. What is relied on -/

/-- **A lawful store** keeps under a key no other value than the one added last, and no more values
than it has room for. -/
structure Store.Lawful {σ κ ν : Type} (store : Store σ κ ν) : Prop where
  /-- A new store is empty; there is one for every room but none. -/
  new : ∀ room, 0 < room →
    ∃ s, store.new room = some s ∧ store.room s = room ∧ store.contents s = []
  /-- What is returned is kept. -/
  get_kept : ∀ s k v, (store.get s k).1 = some v → (k, v) ∈ store.contents s
  /-- Asking adds nothing. -/
  get_subset : ∀ s k, store.contents (store.get s k).2 ⊆ store.contents s
  get_length : ∀ s k,
    (store.contents (store.get s k).2).length ≤ (store.contents s).length
  get_room : ∀ s k, store.room (store.get s k).2 = store.room s
  /-- Adding replaces what was kept under the key. -/
  add_kept : ∀ s k v e, e ∈ store.contents (store.add s k v) →
    e = (k, v) ∨ e ∈ store.contents s ∧ e.1 ≠ k
  /-- A store that is within its room stays there. -/
  add_length : ∀ s k v, (store.contents s).length ≤ store.room s →
    (store.contents (store.add s k v)).length ≤ store.room s
  add_room : ∀ s k v, store.room (store.add s k v) = store.room s

namespace Recent

variable {κ ν : Type} [BEq κ] [LawfulBEq κ] {s : Recent κ ν} {k : κ} {v : ν}

theorem mem_of_lookup {entries : List (κ × ν)} (h : entries.lookup k = some v) :
    (k, v) ∈ entries := by
  obtain ⟨before, after, rfl, -⟩ := List.lookup_eq_some_iff.mp h
  exact List.mem_append_right _ List.mem_cons_self

theorem mem_add {e : κ × ν} (h : e ∈ (s.add k v).entries) :
    e = (k, v) ∨ e ∈ s.entries ∧ e.1 ≠ k := by
  rcases List.mem_cons.mp (List.mem_of_mem_take h) with rfl | he
  · exact .inl rfl
  · obtain ⟨hmem, hne⟩ := List.mem_filter.mp he
    exact .inr ⟨hmem, bne_iff_ne.mp hne⟩

/-- A value that is kept goes to the front without a value being added. -/
theorem length_add_le (h : (k, v) ∈ s.entries) :
    (s.add k v).entries.length ≤ s.entries.length := by
  have hfilter : (s.entries.filter (·.1 != k)).length < s.entries.length :=
    List.length_filter_lt_length_iff_exists.mpr ⟨(k, v), h, by simp⟩
  refine Nat.le_trans (List.length_take_le' _ _) ?_
  rw [List.length_cons]
  exact hfilter

/-- **The store that gives up what has not been asked for the longest is lawful.** -/
theorem lawful_store : (store : Store (Recent κ ν) κ ν).Lawful where
  new room hroom := ⟨⟨room, []⟩, if_neg (Nat.ne_of_gt hroom), rfl, rfl⟩
  get_kept s k v h := by
    simp only [store, get] at h ⊢
    split at h
    · rename_i v' hv
      cases h
      exact mem_of_lookup hv
    · cases h
  get_subset s k := by
    simp only [store, get]
    split
    · rename_i v hv
      intro e he
      rcases mem_add he with rfl | ⟨he, -⟩
      · exact mem_of_lookup hv
      · exact he
    · exact List.Subset.refl _
  get_length s k := by
    simp only [store, get]
    split
    · rename_i v hv
      exact length_add_le (mem_of_lookup hv)
    · exact Nat.le_refl _
  get_room s k := by
    simp only [store, get]
    split <;> rfl
  add_kept s k v e h := mem_add h
  add_length s k v _ := List.length_take_le _ _
  add_room s k v := rfl

end Recent

namespace Cache

variable {σ : Type} {store : Store σ String Regex} {c : σ}

/-! ## 2. One call -/

/-- A cache keeps what its keys write, under the anchored texts of patterns, and is within its
room. -/
structure Sound (store : Store σ String Regex) (c : σ) : Prop where
  written : ∀ k r, (k, r) ∈ store.contents c → Regex.parse k = .ok r
  room : store.room c = capacity
  bounded : (store.contents c).length ≤ capacity

theorem exists_start (hstore : store.Lawful) :
    ∃ c, start store = some c ∧ store.contents c = [] ∧ Sound store c := by
  obtain ⟨c, hc, hroom, hempty⟩ := hstore.new capacity (by decide)
  refine ⟨c, hc, hempty, ?_, hroom, ?_⟩
  · intro k r h
    rw [hempty] at h
    cases h
  · rw [hempty]
    exact Nat.zero_le _

theorem Sound.get (hstore : store.Lawful) (hc : Sound store c) (k : String) :
    Sound store (store.get c k).2 where
  written j r h := hc.written j r (hstore.get_subset c k h)
  room := (hstore.get_room c k).trans hc.room
  bounded := Nat.le_trans (hstore.get_length c k) hc.bounded

theorem Sound.add (hstore : store.Lawful) (hc : Sound store c) {k : String} {r : Regex}
    (hr : Regex.parse k = .ok r) : Sound store (store.add c k r) where
  written j r' h := by
    rcases hstore.add_kept c k r _ h with heq | ⟨hmem, -⟩
    · cases heq
      exact hr
    · exact hc.written j r' hmem
  room := (hstore.add_room c k r).trans hc.room
  bounded := by
    have hroom := hstore.add_length c k r (hc.room.symm ▸ hc.bounded)
    rwa [hc.room] at hroom

/-- What a call to a cache comes to: the answer is what compiling gives, and the cache keeps nothing
new but an expression of this pattern. -/
structure Answered (store : Store σ String Regex) (c : σ) (p : String)
    (out : Parsed Regex × σ) : Prop where
  answer : out.1 = compileAnchored p
  sound : Sound store out.2
  kept : ∀ k r, (k, r) ∈ store.contents out.2 → (k, r) ∈ store.contents c ∨
    k = anchored p ∧ compileAnchored p = .ok r

/-- **One call to a sound cache** is answered as it should be, whether the pattern is kept, or new,
or faulty. -/
theorem compile_sound (hstore : store.Lawful) (hc : Sound store c) (p : String) :
    Answered store c p (compile store c p) := by
  have hget := hc.get hstore (anchored p)
  have hsubset := hstore.get_subset c (anchored p)
  have hkept := hstore.get_kept c (anchored p)
  unfold compile
  rcases hlook : store.get c (anchored p) with ⟨found, c'⟩
  rw [hlook] at hget hsubset hkept
  cases found with
  | some r =>
    have hr : compileAnchored p = .ok r :=
      compileAnchored_eq_ok_iff.mpr (hc.written _ _ (hkept r rfl))
    exact ⟨hr.symm, hget, fun k r' h => .inl (hsubset h)⟩
  | none =>
    dsimp only
    cases hp : compileAnchored p with
    | error e => exact ⟨hp.symm, hget, fun k r h => .inl (hsubset h)⟩
    | ok r =>
      refine ⟨hp.symm, hget.add hstore (compileAnchored_eq_ok_iff.mp hp), fun k r' h => ?_⟩
      rcases hstore.add_kept c' _ r _ h with heq | ⟨hmem, -⟩
      · cases heq
        exact .inr ⟨rfl, hp⟩
      · exact .inl (hsubset hmem)

/-! ## 3. Sequences of calls -/

/-- What a sequence of calls to a cache comes to. -/
structure AllAnswered (store : Store σ String Regex) (c : σ) (ps : List String)
    (out : List (Parsed Regex) × σ) : Prop where
  answers : out.1 = ps.map compileAnchored
  sound : Sound store out.2
  kept : ∀ k r, (k, r) ∈ store.contents out.2 → (k, r) ∈ store.contents c ∨
    ∃ p ∈ ps, k = anchored p ∧ compileAnchored p = .ok r

theorem compileAll_sound (hstore : store.Lawful) : ∀ {c : σ} (_ : Sound store c)
    (ps : List String), AllAnswered store c ps (compileAll store c ps)
  | c, hc, [] => ⟨rfl, hc, fun k r h => .inl h⟩
  | c, hc, p :: ps => by
      have hfirst := compile_sound hstore hc p
      have hrest := compileAll_sound hstore hfirst.sound ps
      refine ⟨?_, hrest.sound, fun k r h => ?_⟩
      · simp only [compileAll, hfirst.answer, hrest.answers, List.map_cons]
      · rcases hrest.kept k r h with h | ⟨q, hq, hkey⟩
        · exact (hfirst.kept k r h).imp_right fun hkey => ⟨p, List.mem_cons_self, hkey⟩
        · exact .inr ⟨q, List.mem_cons_of_mem p hq, hkey⟩

/-- **A cache answers every sequence of calls as compiling does**, with any lawful store.  After
every sequence it keeps what its keys write, each of them the anchored text of a pattern that was
asked for; no pattern that is faulty, and at most 1024 patterns. -/
theorem compileAll_transparent (hstore : store.Lawful) :
    ∃ c, start store = some c ∧ ∀ ps : List String,
      (compileAll store c ps).1 = ps.map compileAnchored ∧
      (∀ k r, (k, r) ∈ store.contents (compileAll store c ps).2 →
        Regex.parse k = .ok r ∧ ∃ p ∈ ps, k = anchored p) ∧
      (∀ p e, compileAnchored p = .error e →
        ∀ r, (anchored p, r) ∉ store.contents (compileAll store c ps).2) ∧
      (store.contents (compileAll store c ps).2).length ≤ 1024 := by
  obtain ⟨c, hstart, hempty, hc⟩ := exists_start hstore
  refine ⟨c, hstart, fun ps => ?_⟩
  have hall := compileAll_sound hstore hc ps
  refine ⟨hall.answers, fun k r h => ⟨hall.sound.written k r h, ?_⟩, fun p e hp r h => ?_,
    hall.sound.bounded⟩
  · rcases hall.kept k r h with h | ⟨p, hp, hkey, -⟩
    · rw [hempty] at h
      cases h
    · exact ⟨p, hp, hkey⟩
  · rw [compileAnchored_eq_ok_iff.mpr (hall.sound.written _ r h)] at hp
    cases hp

/-- A pattern that is asked for twice, and a faulty one, with a store that gives up what has not
been asked for the longest. -/
theorem compileAll_transparent_recent :
    ∃ c, start Recent.store = some c ∧ ∃ r e,
      (compileAll Recent.store c ["a+", "a(", "a+"]).1 = [.ok r, .error e, .ok r] ∧
      r.found "aa" = true ∧ e.message = "error parsing regexp: missing closing ): `a(`" ∧
      (∀ r', ("^(?:a()$", r') ∉ (compileAll Recent.store c ["a+", "a(", "a+"]).2.entries) ∧
      (compileAll Recent.store c ["a+", "a(", "a+"]).2.entries.length ≤ 1024 := by
  obtain ⟨r, hr, hfound⟩ : ∃ r, compileAnchored "a+" = .ok r ∧ r.found "aa" = true :=
    exists_eq_ok_of_any (by decide +kernel)
  have he : compileAnchored "a(" = .error ⟨.missingParen, "a("⟩ :=
    eq_error_of_decide (by decide +kernel)
  obtain ⟨c, hstart, hall⟩ := compileAll_transparent Recent.lawful_store
  obtain ⟨hanswers, -, hfaulty, hbounded⟩ := hall ["a+", "a(", "a+"]
  refine ⟨c, hstart, r, ⟨.missingParen, "a("⟩, ?_, hfound, ?_, hfaulty "a(" _ he, hbounded⟩
  · rw [hanswers, List.map_cons, List.map_cons, List.map_cons, List.map_nil, hr, he]
  · decide +kernel

/-! ## 4. Sets of patterns -/

theorem compileFrom_sound (hstore : store.Lawful) : ∀ {c : σ} (_ : Sound store c) (i : Nat)
    (ps : List String), (compileFrom store c i ps).1 = PatternSet.compileFrom i ps ∧
      Sound store (compileFrom store c i ps).2
  | c, hc, i, [] => ⟨rfl, hc⟩
  | c, hc, i, p :: ps => by
      obtain ⟨hanswer, hsound, -⟩ := compile_sound hstore hc p
      unfold compileFrom PatternSet.compileFrom
      rw [← hanswer]
      rcases hstep : compile store c p with ⟨answer, c'⟩
      rw [hstep] at hsound
      cases answer with
      | error e => exact ⟨rfl, hsound⟩
      | ok r =>
        obtain ⟨hrest, hsound'⟩ := compileFrom_sound hstore hsound (i + 1) ps
        dsimp only
        rw [← hrest]
        rcases hsteps : compileFrom store c' (i + 1) ps with ⟨rest, c''⟩
        rw [hsteps] at hsound'
        cases rest with
        | error e => exact ⟨rfl, hsound'⟩
        | ok es => exact ⟨rfl, hsound'⟩

/-- **A set is compiled through a cache as without it**, and the cache stays sound for the next. -/
theorem compileSet_sound (hstore : store.Lawful) (hc : Sound store c) (ps : List String) :
    (compileSet store c ps).1 = PatternSet.compile ps ∧ Sound store (compileSet store c ps).2 := by
  obtain ⟨hrest, hsound⟩ := compileFrom_sound hstore hc 0 ps
  refine ⟨?_, hsound⟩
  show (compileFrom store c 0 ps).1.map PatternSet.mk = _
  rw [hrest]
  rfl

end Cache

end DocAudit.Pattern
