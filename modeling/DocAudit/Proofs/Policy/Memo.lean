import DocAudit.Policy.Memo
import Mathlib.Data.List.Nodup

/-!
# What a memo answers

A memo answers as if it compiled every configuration anew, and it tells by a place which answers are
the same.

* `Faithful`: a memo holds each key once, with what its configuration compiles to;
* `compile_faithful`: one call answers rightly, and only adds to the memo;
* `session_transparent`: so does any sequence of calls.
-/

namespace DocAudit.Policy.Memo

variable {κ : Type} {config : κ → Config} {m : Memo κ}

/-! ## 1. The entries of a memo -/

/-- The keys of a memo. -/
def keys (m : Memo κ) : List κ := m.entries.map (·.1)

/-- A memo holds no key twice, and under every key what its configuration compiles to. -/
structure Faithful (config : κ → Config) (m : Memo κ) : Prop where
  distinct : m.keys.Nodup
  compiled : ∀ k c, (k, c) ∈ m.entries → compileChecked (some (config k)) = .ok c

/-- The place of an answer holds its key and its configuration. -/
def Holds (m : Memo κ) (k : κ) (r : Memoized) : Prop := m.entries[r.place]? = some (k, r.compiled)

theorem faithful_empty (config : κ → Config) : Faithful config (empty : Memo κ) :=
  ⟨List.nodup_nil, fun _ _ h => absurd h List.not_mem_nil⟩

theorem Holds.mem {k : κ} {r : Memoized} (h : m.Holds k r) : (k, r.compiled) ∈ m.entries :=
  List.mem_of_getElem? h

theorem Holds.mono {m' : Memo κ} {k : κ} {r : Memoized} (h : m.Holds k r)
    (hle : m.entries <+: m'.entries) : m'.Holds k r := by
  obtain ⟨more, hmore⟩ := hle
  have hlt : r.place < m.entries.length := (List.getElem?_eq_some_iff.mp h).choose
  rw [Holds, ← hmore, List.getElem?_append_left hlt]
  exact h

/-- In a memo without repeated keys, a place belongs to one key and a key to one place. -/
theorem place_eq_iff (hm : m.keys.Nodup) {k k' : κ} {r r' : Memoized} (h : m.Holds k r)
    (h' : m.Holds k' r') : r.place = r'.place ↔ k = k' := by
  constructor
  · intro hplace
    rw [Holds, hplace] at h
    exact congrArg Prod.fst (Option.some.inj (h.symm.trans h'))
  · rintro rfl
    have hkey : m.keys[r.place]? = some k := by
      rw [keys, List.getElem?_map, h]
      rfl
    have hkey' : m.keys[r'.place]? = some k := by
      rw [keys, List.getElem?_map, h']
      rfl
    have hlt : r.place < m.keys.length := (List.getElem?_eq_some_iff.mp hkey).choose
    exact (List.getElem?_inj hlt hm).mp (hkey.trans hkey'.symm)

/-- A memo stays faithful with a new key and what compiling gives for it. -/
theorem Faithful.append (hm : Faithful config m) {k : κ} {c : Compiled} (hnew : k ∉ m.keys)
    (hc : compileChecked (some (config k)) = .ok c) : Faithful config ⟨m.entries ++ [(k, c)]⟩ := by
  refine ⟨?_, fun j d hmem => ?_⟩
  · rw [keys, List.map_append]
    exact List.Nodup.append hm.distinct (List.nodup_singleton k)
      (List.disjoint_singleton.mpr hnew)
  · rcases List.mem_append.mp hmem with hold | hadded
    · exact hm.compiled j d hold
    · cases List.mem_singleton.mp hadded
      exact hc

variable [DecidableEq κ]

theorem holds_of_get? {k : κ} {r : Memoized} (h : m.get? k = some r) : m.Holds k r := by
  obtain ⟨⟨⟨j, c⟩, i⟩, hfind, rfl⟩ := Option.map_eq_some_iff.mp h
  obtain rfl : j = k := by simpa using List.find?_some hfind
  have hmem := List.mem_of_find?_eq_some hfind
  exact List.mk_mem_zipIdx_iff_getElem?.mp hmem

theorem get?_eq_none_iff {k : κ} : m.get? k = none ↔ k ∉ m.keys := by
  rw [get?, Option.map_eq_none_iff, List.find?_eq_none, keys]
  constructor
  · intro h hk
    obtain ⟨e, he, rfl⟩ := List.mem_map.mp hk
    obtain ⟨i, hi⟩ := List.mem_iff_getElem?.mp he
    exact h (e, i) (List.mk_mem_zipIdx_iff_getElem?.mpr hi) (beq_self_eq_true _)
  · intro h e he heq
    refine h (List.mem_map.mpr ⟨e.1, ?_, beq_iff_eq.mp heq⟩)
    exact List.mem_of_getElem? (List.mk_mem_zipIdx_iff_getElem?.mp he)

/-! ## 2. One call -/

/-- Whether a configuration compiles. -/
def Compiles (c : Config) : Prop := ∃ d, compileChecked (some c) = .ok d

/-- A call for the configuration of a key, or for none. -/
def call (config : κ → Config) (k : Option κ) : Option (κ × Config) := k.map fun k => (k, config k)

/-- What a call to a memo comes to: the answer is what compiling gives, and the memo keeps it under
its key if there is something to keep. -/
structure Answered (config : κ → Config) (m : Memo κ) (k : Option κ)
    (out : Except Error Memoized × Memo κ) : Prop where
  faithful : Faithful config out.2
  grows : m.entries <+: out.2.entries
  keys : ∀ j, j ∈ out.2.keys ↔ j ∈ m.keys ∨ k = some j ∧ Compiles (config j)
  answer : out.1.map (·.compiled) = compileChecked (k.map config)
  held : ∀ r, out.1 = .ok r → ∃ j, k = some j ∧ out.2.Holds j r

/-- **One call to a faithful memo** is answered as it should be, whether it is a hit, a success that
is new, or a failure. -/
theorem compile_faithful (hm : Faithful config m) (k : Option κ) :
    Answered config m k (m.compile (call config k)) := by
  cases k with
  | none => exact ⟨hm, List.prefix_refl _, by simp [call, compile], rfl, fun _ h => nomatch h⟩
  | some k =>
    simp only [call, Option.map_some, compile, getOrMake]
    cases hget : m.get? k with
    | some r =>
      have hholds := holds_of_get? hget
      have hmem : k ∈ m.keys := List.mem_map.mpr ⟨_, hholds.mem, rfl⟩
      refine ⟨hm, List.prefix_refl _, fun j => ⟨.inl, ?_⟩, (hm.compiled _ _ hholds.mem).symm, ?_⟩
      · rintro (hj | ⟨⟨⟩, -⟩)
        · exact hj
        · exact hmem
      · rintro _ ⟨⟩
        exact ⟨k, rfl, hholds⟩
    | none =>
      have hnew := get?_eq_none_iff.mp hget
      cases hmake : compileChecked (some (config k)) with
      | error e =>
        have hfails : ¬ Compiles (config k) := by
          rintro ⟨d, hd⟩
          rw [hmake] at hd
          cases hd
        refine ⟨hm, List.prefix_refl _, fun j => ⟨.inl, ?_⟩, hmake.symm, fun _ h => nomatch h⟩
        rintro (hj | ⟨⟨⟩, hj⟩)
        · exact hj
        · exact absurd hj hfails
      | ok c =>
        have hkeys : keys ⟨m.entries ++ [(k, c)]⟩ = m.keys ++ [k] := List.map_append
        refine ⟨hm.append hnew hmake, List.prefix_append _ _, fun j => ?_, hmake.symm, ?_⟩
        · rw [hkeys, List.mem_append, List.mem_singleton]
          constructor
          · rintro (hj | rfl)
            · exact .inl hj
            · exact .inr ⟨rfl, c, hmake⟩
          · rintro (hj | ⟨⟨⟩, -⟩)
            · exact .inl hj
            · exact .inr rfl
        · rintro _ ⟨⟩
          exact ⟨k, rfl, by simp [Holds]⟩

/-! ## 3. Sequences of calls -/

/-- What a sequence of calls to a memo comes to. -/
structure AllAnswered (config : κ → Config) (m : Memo κ) (ks : List (Option κ))
    (out : List (Except Error Memoized) × Memo κ) : Prop where
  faithful : Faithful config out.2
  grows : m.entries <+: out.2.entries
  keys : ∀ j, j ∈ out.2.keys ↔ j ∈ m.keys ∨ some j ∈ ks ∧ Compiles (config j)
  answers : out.1.map (·.map (·.compiled)) = ks.map fun k => compileChecked (k.map config)
  held : ∀ (i : Nat) (r : Memoized), out.1[i]? = some (Except.ok r) →
    ∃ j, ks[i]? = some (some j) ∧ out.2.Holds j r

theorem compileAll_faithful : ∀ {m : Memo κ} (_ : Faithful config m) (ks : List (Option κ)),
    AllAnswered config m ks (m.compileAll (ks.map (call config)))
  | m, hm, [] => ⟨hm, List.prefix_refl _, by simp [compileAll], rfl, fun _ _ h => by cases h⟩
  | m, hm, k :: ks => by
      have hfirst := compile_faithful hm k
      have hrest := compileAll_faithful hfirst.faithful ks
      refine ⟨hrest.faithful, hfirst.grows.trans hrest.grows, fun j => ?_, ?_, fun i r hi => ?_⟩
      · simp only [List.map_cons, compileAll]
        rw [hrest.keys, hfirst.keys, List.mem_cons]
        constructor
        · rintro ((hj | ⟨rfl, hj⟩) | ⟨hmem, hj⟩)
          · exact .inl hj
          · exact .inr ⟨.inl rfl, hj⟩
          · exact .inr ⟨.inr hmem, hj⟩
        · rintro (hj | ⟨rfl | hmem, hj⟩)
          · exact .inl (.inl hj)
          · exact .inl (.inr ⟨rfl, hj⟩)
          · exact .inr ⟨hmem, hj⟩
      · simp only [List.map_cons, compileAll]
        rw [hfirst.answer, hrest.answers]
      · simp only [List.map_cons, compileAll] at hi ⊢
        cases i with
        | zero =>
          obtain ⟨j, rfl, hheld⟩ := hfirst.held r (Option.some.inj hi)
          exact ⟨j, rfl, hheld.mono hrest.grows⟩
        | succ i => exact hrest.held i r hi

/-- The calls for the configurations of some keys, one after the other, to a memo that starts
empty: the answers and the memo at the end. -/
def session (config : κ → Config) (ks : List (Option κ)) :
    List (Except Error Memoized) × Memo κ :=
  empty.compileAll (ks.map (call config))

/-- **A memo that starts empty answers every sequence of calls as compiling does.**  Two answers
have one place just when both calls were for one key and succeeded, and nothing but successes is
ever kept. -/
theorem session_transparent (config : κ → Config) (ks : List (Option κ)) :
    (session config ks).1.map (·.map (·.compiled)) =
        ks.map (fun k => compileChecked (k.map config)) ∧
      (∀ i j : Nat,
        (∃ r s : Memoized, (session config ks).1[i]? = some (Except.ok r) ∧
          (session config ks).1[j]? = some (Except.ok s) ∧ r.place = s.place) ↔
        ∃ k, ks[i]? = some (some k) ∧ ks[j]? = some (some k) ∧ Compiles (config k)) ∧
      ∀ k, k ∈ (session config ks).2.keys ↔ some k ∈ ks ∧ Compiles (config k) := by
  have hall : AllAnswered config empty ks (session config ks) :=
    compileAll_faithful (faithful_empty config) ks
  have hanswer : ∀ (i : Nat) (k : κ), ks[i]? = some (some k) → Compiles (config k) →
      ∃ r, (session config ks).1[i]? = some (Except.ok r) := by
    intro i k hk ⟨d, hd⟩
    have hi : (ks.map fun k => compileChecked (k.map config))[i]? = some (.ok d) := by
      rw [List.getElem?_map, hk]
      exact congrArg some hd
    rw [← hall.answers, List.getElem?_map] at hi
    obtain ⟨a, ha, hmap⟩ := Option.map_eq_some_iff.mp hi
    cases a with
    | error e => cases hmap
    | ok r => exact ⟨r, ha⟩
  refine ⟨hall.answers, fun i j => ⟨?_, ?_⟩, fun k => ?_⟩
  · rintro ⟨r, s, hr, hs, hplace⟩
    obtain ⟨k, hk, hholds⟩ := hall.held i r hr
    obtain ⟨k', hk', hholds'⟩ := hall.held j s hs
    obtain rfl := (place_eq_iff hall.faithful.distinct hholds hholds').mp hplace
    exact ⟨k, hk, hk', r.compiled, hall.faithful.compiled k r.compiled hholds.mem⟩
  · rintro ⟨k, hk, hk', hcompiles⟩
    obtain ⟨r, hr⟩ := hanswer i k hk hcompiles
    obtain ⟨s, hs⟩ := hanswer j k hk' hcompiles
    obtain ⟨k₁, hk₁, hholds⟩ := hall.held i r hr
    obtain ⟨k₂, hk₂, hholds'⟩ := hall.held j s hs
    obtain rfl : k = k₁ := by simpa [hk] using hk₁
    obtain rfl : k = k₂ := by simpa [hk'] using hk₂
    exact ⟨r, s, hr, hs, (place_eq_iff hall.faithful.distinct hholds hholds').mpr rfl⟩
  · rw [hall.keys]
    simp [empty, keys]

end DocAudit.Policy.Memo
