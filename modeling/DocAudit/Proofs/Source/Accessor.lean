import DocAudit.Source.Accessor
import Mathlib.Tactic.SplitIfs

/-!
# What makes a method an accessor

The accessor kinds of a method depend on its name, on its signature and on the fields of a type.

* `GetterByField`: only a field with its name makes the method a getter;
* `accessorKinds_eq_iff`: when the fields make a difference.
-/

namespace DocAudit.Source

variable {name : String} {sig : Signature} {fields fields' : List String}

/-- Only a field with its name makes a method of this name and signature a getter: it takes nothing
and returns one value, and is not named as a getter. -/
structure GetterByField (name : String) (sig : Signature) : Prop where
  params : fieldCount sig.params = 0
  results : fieldCount sig.results = 1
  notGet : startsWithWord "Get" name = false
  notTest : firstResultIs "bool" sig.results = true →
    startsWithWord "Is" name = false ∧ startsWithWord "Has" name = false

theorem accessorKinds_of_getterByField (h : GetterByField name sig) :
    accessorKinds name sig fields =
      if Text.lowerText name ∈ fields then
        if firstResultIs "bool" sig.results then [.getter, .booleanGetter] else [.getter]
      else [] := by
  have htest : (firstResultIs "bool" sig.results &&
      (startsWithWord "Is" name || startsWithWord "Has" name)) = false := by
    cases hbool : firstResultIs "bool" sig.results with
    | false => rfl
    | true =>
      rw [(h.notTest hbool).1, (h.notTest hbool).2]
      rfl
  unfold accessorKinds
  dsimp only
  rw [h.params, h.results, h.notGet, htest]
  simp only [beq_self_eq_true, Bool.and_self, if_true, Bool.false_or, Bool.or_false,
    List.contains_iff_mem]

/-- A method that is a getter by its own name, or that cannot be one, is the same accessor for all
fields. -/
theorem accessorKinds_of_not_getterByField (h : ¬ GetterByField name sig) :
    accessorKinds name sig fields = accessorKinds name sig fields' := by
  unfold accessorKinds
  dsimp only
  by_cases hshape : (fieldCount sig.params == 0 && fieldCount sig.results == 1) = true
  · rw [if_pos hshape, if_pos hshape]
    obtain ⟨hparams, hresults⟩ : fieldCount sig.params = 0 ∧ fieldCount sig.results = 1 := by
      simpa using hshape
    -- Then the name alone makes the method a getter.
    cases hget : startsWithWord "Get" name with
    | true => simp only [Bool.true_or]
    | false =>
      cases htest : firstResultIs "bool" sig.results &&
          (startsWithWord "Is" name || startsWithWord "Has" name) with
      | true => simp only [Bool.or_true]
      | false => exact absurd ⟨hparams, hresults, hget, fun hbool => by simpa [hbool] using htest⟩ h
  · rw [if_neg hshape, if_neg hshape]

theorem getter_mem_accessorKinds_iff (h : GetterByField name sig) :
    AccessorKind.getter ∈ accessorKinds name sig fields ↔ Text.lowerText name ∈ fields := by
  rw [accessorKinds_of_getterByField h]
  split_ifs <;> simp_all

/-- **Two lists of fields make a method the same accessor**, unless it is a getter by a field with
its name, and only one of them has this field. -/
theorem accessorKinds_eq_iff :
    accessorKinds name sig fields = accessorKinds name sig fields' ↔
      (GetterByField name sig → (Text.lowerText name ∈ fields ↔ Text.lowerText name ∈ fields')) := by
  constructor
  · intro heq h
    rw [← getter_mem_accessorKinds_iff h, heq, getter_mem_accessorKinds_iff h]
  · intro hfields
    by_cases h : GetterByField name sig
    · simp only [accessorKinds_of_getterByField h, hfields h]
    · exact accessorKinds_of_not_getterByField h

/-- Accessors that are both getters, or both none, are the same accessors. -/
theorem getter_mem_iff_iff :
    (AccessorKind.getter ∈ accessorKinds name sig fields ↔
      AccessorKind.getter ∈ accessorKinds name sig fields') ↔
    accessorKinds name sig fields = accessorKinds name sig fields' := by
  refine ⟨fun hgetter => accessorKinds_eq_iff.mpr fun h => ?_, fun heq => by rw [heq]⟩
  rw [← getter_mem_accessorKinds_iff h, hgetter, getter_mem_accessorKinds_iff h]

end DocAudit.Source
