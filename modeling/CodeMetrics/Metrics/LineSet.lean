/-!
# Sets of lines

A set of line numbers is its ascending list.
-/

namespace CodeMetrics

namespace LineSet

/-- Add a line to an ascending list. -/
def insert (line : Int) : List Int → List Int
  | [] => [line]
  | first :: rest =>
      if line < first then line :: first :: rest
      else if line = first then first :: rest
      else first :: insert line rest

/-- The lines of a list, ascending and each once. -/
def ofList (lines : List Int) : List Int := lines.foldr insert []

@[simp] theorem mem_insert (line other : Int) (lines : List Int) :
    other ∈ insert line lines ↔ other = line ∨ other ∈ lines := by
  induction lines with
  | nil => simp [insert]
  | cons first rest induction =>
      simp only [insert]
      split
      · simp
      · split <;> grind

@[simp] theorem mem_ofList (line : Int) (lines : List Int) : line ∈ ofList lines ↔ line ∈ lines := by
  induction lines with
  | nil => simp [ofList]
  | cons first rest induction =>
      simp only [ofList, List.foldr_cons, mem_insert, List.mem_cons] at induction ⊢
      rw [induction]

theorem pairwise_insert (line : Int) {lines : List Int} (ascending : lines.Pairwise (· < ·)) :
    (insert line lines).Pairwise (· < ·) := by
  induction lines with
  | nil => simp [insert]
  | cons first rest induction =>
      obtain ⟨below, rest_ascending⟩ := List.pairwise_cons.mp ascending
      simp only [insert]
      split
      · rename_i before
        refine List.pairwise_cons.mpr ⟨fun other member => ?_, ascending⟩
        rcases List.mem_cons.mp member with rfl | member
        · exact before
        · exact Int.lt_trans before (below other member)
      · split
        · exact ascending
        · refine List.pairwise_cons.mpr ⟨fun other member => ?_, induction rest_ascending⟩
          rcases (mem_insert line other rest).mp member with rfl | member
          · omega
          · exact below other member

theorem pairwise_ofList (lines : List Int) : (ofList lines).Pairwise (· < ·) := by
  induction lines with
  | nil => exact List.Pairwise.nil
  | cons first rest induction => exact pairwise_insert first induction

end LineSet

end CodeMetrics
