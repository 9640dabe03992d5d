import DocAudit.Proofs.Text.ByteOrder
import DocAudit.Rule.Registry
import Mathlib.Data.List.Sort

/-!
# What a registry holds

A registry holds the rules of the calls that succeeded, each under an id of its own.

* `Sound`: what every registry keeps to, kept by every call;
* `rules_callAll`: a sequence of calls adds the rules of those that succeed, in their order;
* `eq_all_of_sorted`: the sorted listing is the only one, whatever the order in which the rules are
  taken up;
* `callAll_registers`: all of it for sequences of calls.
-/

namespace DocAudit.Rule.Registry

open DocAudit.Text

variable {g : Registry} {c : Call} {r : Rule} {id : String}

/-! ## 1. Registries -/

/-- A registry whose rules have ids of their own, none of them blank. -/
structure Sound (g : Registry) : Prop where
  distinct : (g.rules.map (·.id)).Nodup
  named : ∀ r ∈ g.rules, trim r.id ≠ ""

theorem sound_empty : Sound empty := ⟨List.nodup_nil, fun _ h => absurd h List.not_mem_nil⟩

theorem sound_builtin : Sound builtin := ⟨by decide, by decide +kernel⟩

theorem lookup_isSome_iff : (g.lookup id).isSome = true ↔ ∃ r ∈ g.rules, r.id = id := by
  simp [lookup]

/-! ## 2. One call -/

/-- The id of a call's rule is blank, or taken already. -/
def Unavailable (g : Registry) (id : String) : Prop := trim id = "" ∨ ∃ r ∈ g.rules, r.id = id

theorem register_eq_ok (h : ¬ g.Unavailable r.id) : g.register r = .ok ⟨g.rules ++ [r]⟩ := by
  obtain ⟨hnamed, hnew⟩ := not_or.mp h
  have hlookup : (g.lookup r.id).isSome ≠ true := fun hsome => hnew (lookup_isSome_iff.mp hsome)
  simp [register, hnamed, hlookup]

theorem register_eq_error (h : g.Unavailable r.id) : ∃ e, g.register r = .error e := by
  unfold register
  by_cases hblank : trim r.id = ""
  · exact ⟨_, if_pos (beq_iff_eq.mpr hblank)⟩
  · have htaken := lookup_isSome_iff.mpr (h.resolve_left hblank)
    exact ⟨_, by rw [if_neg (by simpa using hblank), if_pos htaken]⟩

/-- Whether a call has succeeded. -/
def Answer.succeeded : Answer → Bool
  | .registered => true
  | _ => false

theorem call_of_available (h : ¬ g.Unavailable c.rule.id) :
    g.call c = (.registered, ⟨g.rules ++ [c.rule]⟩) := by
  rw [call, register_eq_ok h]

/-- A call that fails leaves the registry as it is. -/
theorem call_of_unavailable (h : g.Unavailable c.rule.id) :
    ∃ e, g.call c = (c.failure e, g) := by
  obtain ⟨e, he⟩ := register_eq_error h
  exact ⟨e, by rw [call, he]⟩

theorem succeeded_failure (c : Call) (e : Error) : (c.failure e).succeeded = false := by
  cases c <;> rfl

theorem succeeded_call_iff (g : Registry) (c : Call) :
    (g.call c).1.succeeded = false ↔ g.Unavailable c.rule.id := by
  by_cases h : g.Unavailable c.rule.id
  · obtain ⟨e, he⟩ := call_of_unavailable h
    simp [he, succeeded_failure, h]
  · simp [call_of_available h, Answer.succeeded, h]

theorem Sound.call (h : Sound g) (c : Call) : Sound (g.call c).2 := by
  by_cases hid : g.Unavailable c.rule.id
  · obtain ⟨e, he⟩ := call_of_unavailable hid
    rwa [he]
  · obtain ⟨hnamed, hnew⟩ := not_or.mp hid
    rw [call_of_available hid]
    refine ⟨?_, fun r hr => ?_⟩
    · rw [List.map_append, List.nodup_append]
      refine ⟨h.distinct, List.nodup_singleton _, ?_⟩
      rintro _ hold _ hadded rfl
      obtain ⟨r, hr, hr'⟩ := List.mem_map.mp hold
      exact hnew ⟨r, hr, hr'.trans (List.mem_singleton.mp hadded)⟩
    · rcases List.mem_append.mp hr with hold | hadded
      · exact h.named r hold
      · rwa [List.mem_singleton.mp hadded]

/-! ## 3. Sequences of calls -/

/-- The rules of the calls that succeed, in the order of the calls. -/
def successes (g : Registry) (cs : List Call) : List Rule :=
  ((cs.zip (g.callAll cs).1).filter (·.2.succeeded)).map (·.1.rule)

theorem callAll_cons (g : Registry) (c : Call) (cs : List Call) :
    g.callAll (c :: cs) = ((g.call c).1 :: ((g.call c).2.callAll cs).1,
      ((g.call c).2.callAll cs).2) := by
  rw [callAll]

theorem Sound.callAll : ∀ {g : Registry}, Sound g → ∀ cs : List Call, Sound (g.callAll cs).2
  | _, h, [] => h
  | _, h, c :: cs => by
      rw [callAll_cons]
      exact (h.call c).callAll cs

/-- **A sequence of calls adds the rules of those that succeed**, in their order. -/
theorem rules_callAll : ∀ (g : Registry) (cs : List Call),
    (g.callAll cs).2.rules = g.rules ++ g.successes cs
  | _, [] => (List.append_nil _).symm
  | g, c :: cs => by
      have hrest := rules_callAll (g.call c).2 cs
      rw [callAll_cons, hrest]
      unfold successes
      rw [callAll_cons, List.zip_cons_cons]
      by_cases hid : g.Unavailable c.rule.id
      · obtain ⟨e, he⟩ := call_of_unavailable hid
        simp [he, succeeded_failure]
      · simp [call_of_available hid, Answer.succeeded]

/-- What is answered to a call depends on the calls before it alone. -/
theorem answer_of_append (g : Registry) (before : List Call) (c : Call) (after : List Call) :
    (g.callAll (before ++ c :: after)).1[before.length]? =
      some ((g.callAll before).2.call c).1 := by
  induction before generalizing g with
  | nil =>
    simp only [List.nil_append, callAll_cons, callAll, List.length_nil, List.getElem?_cons_zero]
  | cons b before ih =>
    simp only [List.cons_append, callAll_cons, List.length_cons, List.getElem?_cons_succ]
    exact ih (g.call b).2

/-- The registry of the library's rules is what registering them gives. -/
theorem builtin_eq :
    (empty.callAll [.mustRegister docPresence, .mustRegister docNamePrefix]).2 = builtin := by
  have hfirst : ¬ empty.Unavailable (Call.mustRegister docPresence).rule.id := by
    rintro (hblank | ⟨r, hr, -⟩)
    · exact sound_builtin.named docPresence List.mem_cons_self hblank
    · exact absurd hr List.not_mem_nil
  have hsecond : ¬ Unavailable ⟨[docPresence]⟩ (Call.mustRegister docNamePrefix).rule.id := by
    rintro (hblank | ⟨r, hr, hid⟩)
    · exact sound_builtin.named docNamePrefix (by simp [builtin]) hblank
    · rw [List.mem_singleton.mp hr] at hid
      exact absurd hid (by decide)
  have hone : empty.call (.mustRegister docPresence) = (.registered, ⟨[docPresence]⟩) :=
    call_of_available hfirst
  have htwo : Registry.call ⟨[docPresence]⟩ (.mustRegister docNamePrefix) =
      (.registered, builtin) := call_of_available hsecond
  simp only [callAll, hone, htwo]

/-! ## 4. The listing -/

theorem perm_all (g : Registry) : g.all.Perm g.rules := List.mergeSort_perm _ _

theorem pairwise_all (g : Registry) : g.all.Pairwise fun a b => a.id ≤ b.id :=
  pairwise_mergeSort_label (·.id) g.rules

/-- **There is one sorted listing** of the rules of a registry. -/
theorem eq_all_of_sorted (h : Sound g) {listing : List Rule} (hperm : listing.Perm g.rules)
    (hsorted : listing.Pairwise fun a b => a.id ≤ b.id) : listing = g.all := by
  have hsame : listing.Perm g.all := hperm.trans g.perm_all.symm
  refine hsame.eq_of_pairwise (fun a b ha hb hab hba => ?_) hsorted g.pairwise_all
  have ha' := hperm.mem_iff.mp ha
  have hb' := g.perm_all.mem_iff.mp hb
  exact List.inj_on_of_nodup_map h.distinct ha' hb' (String.le_antisymm hab hba)

/-! ## 5. The whole -/

/-- **What a sequence of calls makes of a registry.**  A call fails just when its id is blank or
taken, and then changes nothing; afterwards each id belongs to the rule that was registered under it
first, and the listing is the one arrangement of the registered rules that is sorted, so it does not
depend on the order in which they came or are taken up. -/
theorem callAll_registers (g : Registry) (hg : g = empty ∨ g = builtin) (cs : List Call) :
    (∀ before c after, cs = before ++ c :: after →
      (g.callAll cs).1[before.length]? = some ((g.callAll before).2.call c).1 ∧
      (((g.callAll before).2.call c).1.succeeded = false ↔
        trim c.rule.id = "" ∨ ∃ r ∈ g.rules ++ g.successes before, r.id = c.rule.id) ∧
      (((g.callAll before).2.call c).1.succeeded = false →
        ((g.callAll before).2.call c).2 = (g.callAll before).2)) ∧
    (∀ id, (g.callAll cs).2.lookup id = (g.rules ++ g.successes cs).find? (·.id == id)) ∧
    (g.callAll cs).2.all.Perm (g.rules ++ g.successes cs) ∧
    ((g.callAll cs).2.all.map fun r => utf8 r.id).Pairwise (· < ·) ∧
    (∀ listing : List Rule, listing.Perm (g.rules ++ g.successes cs) →
      (listing.Pairwise fun a b => utf8 a.id ≤ utf8 b.id) → listing = (g.callAll cs).2.all) ∧
    ∀ ds, (g.successes ds).Perm (g.successes cs) → (g.callAll ds).2.all = (g.callAll cs).2.all := by
  have hsound : Sound g := by
    rcases hg with rfl | rfl
    · exact sound_empty
    · exact sound_builtin
  have hafter := hsound.callAll cs
  refine ⟨?_, fun id => ?_, ?_, ?_, fun listing hperm hsorted => ?_, fun ds hperm => ?_⟩
  · rintro before c after rfl
    refine ⟨answer_of_append g before c after, ?_, fun hfails => ?_⟩
    · rw [succeeded_call_iff, Unavailable, rules_callAll]
    · obtain ⟨e, he⟩ := call_of_unavailable ((succeeded_call_iff _ _).mp hfails)
      rw [he]
  · rw [lookup, rules_callAll]
  · rw [← rules_callAll]
    exact perm_all _
  · have hdistinct := (((g.callAll cs).2.perm_all).map (·.id)).nodup_iff.mpr hafter.distinct
    exact utf8_pairwise_of_nodup hdistinct (pairwise_all _)
  · rw [← rules_callAll] at hperm
    exact eq_all_of_sorted hafter hperm (hsorted.imp (utf8_le_iff _ _).mp)
  · refine eq_all_of_sorted hafter ?_ (pairwise_all _)
    rw [rules_callAll]
    refine (perm_all _).trans ?_
    rw [rules_callAll]
    exact hperm.append_left g.rules

/-- A rule that finds nothing. -/
def silent (id : String) : Rule := ⟨id, "", fun _ => .ok (looking fun _ => [])⟩

/-- Calls with a blank id, with one that the library's rules have, and with a new one. -/
def threeCalls : List Call :=
  [.register (silent " "), .mustRegister (silent "doc-presence"), .register (silent "doc-mark")]

theorem successes_threeCalls : builtin.successes threeCalls = [silent "doc-mark"] := by
  have hblank : builtin.Unavailable (Call.register (silent " ")).rule.id := .inl (by decide +kernel)
  have htaken : builtin.Unavailable (Call.mustRegister (silent "doc-presence")).rule.id :=
    .inr ⟨docPresence, List.mem_cons_self, rfl⟩
  have hnew : ¬ builtin.Unavailable (Call.register (silent "doc-mark")).rule.id := by
    rintro (hblank | hmem)
    · exact absurd hblank (by decide +kernel)
    · exact absurd (lookup_isSome_iff.mpr hmem) (by decide +kernel)
  obtain ⟨e, he⟩ := call_of_unavailable hblank
  obtain ⟨e', he'⟩ := call_of_unavailable htaken
  unfold successes threeCalls
  simp only [callAll, he, he', call_of_available hnew]
  rfl

/-- Of these calls only the last one changes the registry, and its rule is listed first. -/
theorem callAll_registers_threeCalls :
    (builtin.callAll threeCalls).2.all = [silent "doc-mark", docNamePrefix, docPresence] := by
  obtain ⟨-, -, -, -, honly, -⟩ := callAll_registers builtin (.inr rfl) threeCalls
  rw [successes_threeCalls] at honly
  refine (honly _ ?_ ?_).symm
  · exact (List.reverse_perm _).symm
  · simp only [utf8_le_iff]
    decide

end DocAudit.Rule.Registry
