import CodeMetrics.Tree.Node

/-!
# Comparing two trees

Trees are compared pair by pair with a stack. A node is equal to itself without a look at its
descendants, and any other pair must agree in attributes and in the number of children.
-/

namespace CodeMetrics

/-- What a hash tells apart of an integer: the residue modulo a prime, of the sign of the integer, where
minus one is taken for minus two. -/
def hashResidue (number : Int) : Int :=
  let remainder := number.tmod (Int.pow 2 61 - 1)
  if remainder = -1 then -2 else remainder

namespace Node

variable {ι : Type}

/-- The two nodes agree, their children apart. -/
def agrees (left right : Node ι) : Bool :=
  left.attributes = right.attributes && left.children.length == right.children.length

/-- The number of nodes on the left of a list of pairs. -/
def leftSize (pairs : List (Node ι × Node ι)) : Nat :=
  sizeAll (pairs.map Prod.fst)

theorem leftSize_append (first second : List (Node ι × Node ι)) :
    leftSize (first ++ second) = leftSize first + leftSize second := by
  simp [leftSize]

theorem leftSize_zip_le (left right : List (Node ι)) :
    leftSize (left.zip right) ≤ sizeAll left := by
  induction left generalizing right with
  | nil => simp [leftSize, sizeAll]
  | cons node nodes induction =>
      cases right with
      | nil => simp [leftSize, sizeAll]
      | cons other others =>
          have rest := induction others
          simp only [leftSize, List.zip_cons_cons, List.map_cons, sizeAll] at rest ⊢
          omega

theorem leftSize_reverse (pairs : List (Node ι × Node ι)) :
    leftSize pairs.reverse = leftSize pairs := by
  induction pairs with
  | nil => rfl
  | cons pair pairs induction =>
      rw [List.reverse_cons, leftSize_append, induction]
      simp only [leftSize, List.map_cons, List.map_nil, sizeAll]
      omega

/-- Every pair on the stack is equal. -/
def sameAll [DecidableEq ι] : List (Node ι × Node ι) → Bool
  | [] => true
  | (left, right) :: pairs =>
      if left.mark = right.mark then sameAll pairs
      else if left.agrees right then
        sameAll ((left.children.zip right.children).reverse ++ pairs)
      else false
termination_by pairs => leftSize pairs
decreasing_by
  · simp only [leftSize, List.map_cons, sizeAll]
    have := size_pos left
    omega
  · rw [leftSize_append, leftSize_reverse]
    have bound := leftSize_zip_le left.children right.children
    simp only [leftSize, List.map_cons, sizeAll, size_eq] at bound ⊢
    omega

/-- Structural equality of two nodes. -/
def same [DecidableEq ι] (left right : Node ι) : Bool := sameAll [(left, right)]

/-- What a hash tells apart of a node: its kind and the residues of its span. -/
def hashKey (node : Node ι) : Kind × List Int :=
  let span := node.span
  (node.kind, [span.startByte, span.endByte, span.startLine, span.startColumn, span.endLine,
    span.endColumn].map hashResidue)

end Node

end CodeMetrics
