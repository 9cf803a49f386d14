/-
Sets of names in the order of their code points, without repetition.
-/
namespace Screenplay

/-- Names in increasing order, each once. -/
abbrev Names := List String

namespace Names

/-- A set with a name put in. -/
def insert (name : String) : Names → Names
  | [] => [name]
  | n :: ns =>
    if name = n then n :: ns else if name < n then name :: n :: ns else n :: insert name ns

/-- The set of some names. -/
def ofList (names : List String) : Names := names.foldr insert []

theorem mem_insert {name other : String} {names : Names} :
    other ∈ insert name names ↔ other = name ∨ other ∈ names := by
  induction names with
  | nil => simp [insert]
  | cons n ns ih =>
    simp only [insert]
    split
    · next h => subst h; simp
    · split
      · simp
      · simp [ih]; grind

/-- A set holds exactly the names it was made of. -/
theorem mem_ofList {name : String} {names : List String} : name ∈ ofList names ↔ name ∈ names := by
  induction names with
  | nil => simp [ofList]
  | cons n ns ih => simp [ofList, mem_insert] at ih ⊢; grind

/-- A set is in increasing order. -/
theorem sorted_ofList (names : List String) : (ofList names).Pairwise (· < ·) := by
  have put (name : String) (names : Names) (h : names.Pairwise (· < ·)) :
      (insert name names).Pairwise (· < ·) := by
    induction names with
    | nil => exact List.pairwise_singleton _ _
    | cons n ns ih =>
      obtain ⟨first, rest⟩ := List.pairwise_cons.mp h
      rw [insert]
      split
      · exact h
      · next ne =>
        split
        · next lt =>
          refine List.pairwise_cons.mpr ⟨fun other hm => ?_, h⟩
          rcases List.mem_cons.mp hm with rfl | hm
          · exact lt
          · exact String.lt_trans lt (first other hm)
        · next ge =>
          refine List.pairwise_cons.mpr ⟨fun other hm => ?_, ih rest⟩
          rcases mem_insert.mp hm with rfl | hm
          · exact Decidable.byContradiction fun le => ne (String.le_antisymm le ge)
          · exact first other hm
  induction names with
  | nil => exact .nil
  | cons n ns ih => exact put n _ ih

/-- A set holds no name twice. -/
theorem nodup_ofList (names : List String) : (ofList names).Nodup :=
  (sorted_ofList names).imp String.ne_of_lt

end Names

end Screenplay
