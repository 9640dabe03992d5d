import DocAudit.Proofs.Text.Split
import DocAudit.Source.Package

/-!
# Names below internal directories

A name that is exported can be used from everywhere, unless it belongs to a command or its package
stands below a directory `internal`.

* `isInternalPath_iff`: the four tests of an import path look for the path element `internal`, and a
  path element that only contains the word does not count;
* `visibility_by_path_elements`: which names are protected, which are public and which are local.
-/

namespace DocAudit.Source

open DocAudit.Text

/-- A piece without separators among the pieces of a text. -/
theorem mem_pieces_iff {sep : Char} {w s : String} :
    w ∈ pieces sep s ↔ w.toList ∈ splitAt sep s.toList := by
  rw [pieces, List.mem_map]
  constructor
  · rintro ⟨cs, hcs, rfl⟩
    rwa [String.toList_ofList]
  · exact fun h => ⟨w.toList, h, String.ofList_toList⟩

/-- **The four tests find the path element `internal`.** -/
theorem isInternalPath_iff {path : String} :
    isInternalPath path = true ↔ "internal" ∈ pieces '/' path := by
  have hslash : '/' ∉ "internal".toList := by decide
  rw [mem_pieces_iff, mem_splitAt_iff hslash, String.toList_inj]
  simp only [isInternalPath, hasStart, hasEnd, Bool.or_eq_true, beq_iff_eq, startsWith_iff,
    endsWith_iff, containsText_iff, or_assoc]
  rfl

/-- **The visibility of a name** in a package depends on its first letter, on the name of the
package, and on whether the import path has an element that is `internal`. -/
theorem visibility_by_path_elements (p : Package) (name path : String) :
    (isInternalPath path = true ↔ "internal" ∈ pieces '/' path) ∧
    (p.visibilityOf name = .prot ↔
      isExported name = true ∧ p.name ≠ "main" ∧ "internal" ∈ pieces '/' p.importPath) ∧
    (p.visibilityOf name = .pub ↔
      isExported name = true ∧ p.name ≠ "main" ∧ "internal" ∉ pieces '/' p.importPath) ∧
    (p.visibilityOf name = .pkg ↔ isExported name = false ∨ p.name = "main") := by
  refine ⟨isInternalPath_iff, ?_⟩
  rw [← isInternalPath_iff]
  unfold Package.visibilityOf
  cases isExported name <;> by_cases hmain : p.name = "main" <;>
    cases isInternalPath p.importPath <;> simp [hmain] <;> decide

/-- A path element that contains the word is none that is the word. -/
example : isInternalPath "example.com/internals/x-internal/p" = false := by decide +kernel

end DocAudit.Source
