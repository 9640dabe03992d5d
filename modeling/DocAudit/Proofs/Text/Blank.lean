import DocAudit.Text.Blank
import DocAudit.Text.Category

/-!
# White space among the categories

White space is neither a letter nor a digit, so it ends a name.

* `blankRuns` are the runs of white space beyond the first 128 code points;
* `nameTables_avoidBlank`: the tables of letters and digits have none of them, which is read off
  their data line by line;
* `isLetter_of_isBlank` and `isDecimalDigit_of_isBlank`: the classes that are read off the tables.
-/

namespace DocAudit.Text

/-! ## 1. Runs beside white space -/

/-- The white space characters from the code point 128 on. -/
def blankRuns : List Run :=
  [⟨0x85, 0x85, 1⟩, ⟨0xA0, 0xA0, 1⟩, ⟨0x1680, 0x1680, 1⟩, ⟨0x2000, 0x200A, 1⟩, ⟨0x2028, 0x2029, 1⟩,
    ⟨0x202F, 0x202F, 1⟩, ⟨0x205F, 0x205F, 1⟩, ⟨0x3000, 0x3000, 1⟩]

/-- A run lies in front of each run of white space, or behind it. -/
def Run.avoidsBlank (r : Run) : Bool :=
  blankRuns.all fun b => Nat.blt r.hi b.lo || Nat.blt b.hi r.lo

/-- All runs that a line of data writes avoid white space. -/
def lineAvoidsBlank (line : List Char) : Bool :=
  (wordsBy (· == ' ') line).all fun w => (Run.ofWord w).avoidsBlank

/-- All lines of some data avoid white space. -/
inductive AvoidBlank : List String → Prop
  | nil : AvoidBlank []
  | cons {line : List Char} {lines : List String} :
      lineAvoidsBlank line = true → AvoidBlank lines →
      AvoidBlank (String.ofList line :: lines)

variable {c : Char}

theorem exists_blankRun (hc : isBlank c = true) (hlarge : 128 ≤ c.toNat) :
    ∃ b ∈ blankRuns, b.lo ≤ c.toNat ∧ c.toNat ≤ b.hi := by
  simp only [isBlank, Bool.or_eq_true, Bool.and_eq_true, decide_eq_true_eq, beq_iff_eq] at hc
  simp only [blankRuns, List.mem_cons, List.not_mem_nil, or_false, exists_eq_or_imp, exists_eq_left]
  omega

/-- A run that avoids white space has no white space character. -/
theorem Run.not_has_of_avoidsBlank {r : Run} (hr : r.avoidsBlank = true) (hc : isBlank c = true)
    (hlarge : 128 ≤ c.toNat) : r.has c.toNat = false := by
  obtain ⟨b, hb, hlo, hhi⟩ := exists_blankRun hc hlarge
  have hapart := List.all_eq_true.mp hr b hb
  rw [Bool.or_eq_true, Nat.blt_eq, Nat.blt_eq] at hapart
  rw [← Bool.not_eq_true, Run.has, Bool.and_eq_true, Bool.and_eq_true, decide_eq_true_eq,
    decide_eq_true_eq]
  rintro ⟨⟨hfrom, hto⟩, -⟩
  omega

/-- **A table whose data avoids white space has no white space character.** -/
theorem AvoidBlank.not_has {lines : List String} (h : AvoidBlank lines) (hc : isBlank c = true)
    (hlarge : 128 ≤ c.toNat) : (CharTable.ofLines lines).has c = false := by
  rw [CharTable.has, CharTable.ofLines, List.any_toArray, List.any_eq_false]
  intro r hr
  rw [Bool.not_eq_true]
  induction h with
  | nil => cases hr
  | @cons line lines hline _ ih =>
    rw [List.flatMap_cons, List.mem_append, String.toList_ofList] at hr
    rcases hr with hr | hr
    · obtain ⟨w, hw, rfl⟩ := List.mem_map.mp hr
      exact Run.not_has_of_avoidsBlank (List.all_eq_true.mp hline w hw) hc hlarge
    · exact ih hr

/-! ## 2. Letters and digits -/

/-- The tables of the letters and the decimal digits. -/
def nameTables : List CharTable := [tableLu, tableLl, tableLt, tableLm, tableLo, tableNd]

/-- The data of the letters and digits avoids white space. -/
theorem nameTables_avoidBlank :
    ∀ t ∈ nameTables, ∃ lines, t = CharTable.ofLines lines ∧ AvoidBlank lines := by
  simp only [nameTables, List.forall_mem_cons]
  refine ⟨⟨_, rfl, ?_⟩, ⟨_, rfl, ?_⟩, ⟨_, rfl, ?_⟩, ⟨_, rfl, ?_⟩, ⟨_, rfl, ?_⟩, ⟨_, rfl, ?_⟩, nofun⟩
  all_goals
    repeat refine .cons (by decide +kernel) ?_
    exact .nil

theorem not_has_of_isBlank {t : CharTable} (ht : t ∈ nameTables) (hc : isBlank c = true)
    (hlarge : 128 ≤ c.toNat) : t.has c = false := by
  obtain ⟨lines, rfl, h⟩ := nameTables_avoidBlank t ht
  exact h.not_has hc hlarge

/-- The white space characters below the code point 128. -/
def smallBlanks : List Char := ['\t', '\n', '\x0b', '\x0c', '\r', ' ']

theorem mem_smallBlanks (hc : isBlank c = true) (hsmall : ¬ 128 ≤ c.toNat) : c ∈ smallBlanks := by
  have hcode : c.toNat ∈ [9, 10, 11, 12, 13, 32] := by
    simp only [isBlank, Bool.or_eq_true, Bool.and_eq_true, decide_eq_true_eq, beq_iff_eq] at hc
    simp only [List.mem_cons, List.not_mem_nil, or_false]
    omega
  have hofNat := List.mem_map_of_mem (f := Char.ofNat) hcode
  rwa [Char.ofNat_toNat] at hofNat

/-- **White space is no letter.** -/
theorem isLetter_of_isBlank (hc : isBlank c = true) : isLetter c = false := by
  by_cases hlarge : 128 ≤ c.toNat
  · have hnot : ∀ t ∈ nameTables, t.has c = false := fun t ht => not_has_of_isBlank ht hc hlarge
    simp only [nameTables, List.forall_mem_cons] at hnot
    obtain ⟨hlu, hll, hlt, hlm, hlo, -⟩ := hnot
    rw [isLetter, if_neg (Nat.not_lt.mpr hlarge)]
    simp [Category.has, Category.table?, hlu, hll, hlt, hlm, hlo]
  · have hsmall : smallBlanks.all (fun x => !isLetter x) = true := by decide +kernel
    simpa using List.all_eq_true.mp hsmall c (mem_smallBlanks hc hlarge)

/-- **White space is no digit.** -/
theorem isDecimalDigit_of_isBlank (hc : isBlank c = true) : isDecimalDigit c = false := by
  by_cases hlarge : 128 ≤ c.toNat
  · have hnot : tableNd.has c = false := not_has_of_isBlank (by simp [nameTables]) hc hlarge
    rw [isDecimalDigit, if_neg (Nat.not_lt.mpr hlarge)]
    simpa [Category.has, Category.table?] using hnot
  · have hsmall : smallBlanks.all (fun x => !isDecimalDigit x) = true := by decide +kernel
    simpa using List.all_eq_true.mp hsmall c (mem_smallBlanks hc hlarge)

end DocAudit.Text
