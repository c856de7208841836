import CodeMetrics.Tree.Classification

/-!
# The public surface

The public declarations that can be reached from the top of a file through public declarations and
namespaces. A declaration that is neither hides everything inside it. Declarations that are
structurally equal count once.
-/

namespace CodeMetrics

namespace Node

variable {ι : Type}

theorem sizeAll_filter_le (keep : Node ι → Bool) (nodes : List (Node ι)) :
    sizeAll (nodes.filter keep) ≤ sizeAll nodes := by
  induction nodes with
  | nil => simp
  | cons node nodes induction =>
      simp only [List.filter_cons]
      split <;> simp only [sizeAll] <;> omega

theorem sizeAll_ownMembers_le (node : Node ι) : sizeAll node.ownMembers ≤ node.size := by
  unfold ownMembers
  split
  · simp [sizeAll]
  · split
    · have := sizeAll_filter_le (fun inner => inner.kind.isMember) node.children
      rw [size_eq]
      omega
    · simp [sizeAll]

theorem sizeAll_flatMap_ownMembers_le (nodes : List (Node ι)) :
    sizeAll (nodes.flatMap ownMembers) ≤ sizeAll nodes := by
  induction nodes with
  | nil => simp [sizeAll]
  | cons node nodes induction =>
      have := sizeAll_ownMembers_le node
      simp only [List.flatMap_cons, sizeAll_append, sizeAll]
      omega

theorem sizeAll_memberDeclarations_lt (node : Node ι) :
    sizeAll node.memberDeclarations < node.size := by
  have := sizeAll_flatMap_ownMembers_le node.children
  rw [size_eq]
  simp only [memberDeclarations]
  omega

theorem sizeAll_reverse (nodes : List (Node ι)) : sizeAll nodes.reverse = sizeAll nodes := by
  induction nodes with
  | nil => rfl
  | cons node nodes induction =>
      simp only [List.reverse_cons, sizeAll_append, sizeAll, induction]
      omega

end Node

/-- Add a declaration unless an equal one is there. -/
def addDistinct (found : List Vertex) (node : Vertex) : List Vertex :=
  if found.any fun other => other.shape = node.shape then found else found ++ [node]

/-- Take the last member off the stack and, if it is public or a namespace, look at its members next. -/
def collectPublic : List Vertex → List Vertex → List Vertex
  | [], found => found
  | member :: stack, found =>
      let found := if member.isPublic then addDistinct found member else found
      if member.isPublic || member.kind.isNamespace then
        collectPublic (member.memberDeclarations.reverse ++ stack) found
      else collectPublic stack found
termination_by stack => Node.sizeAll stack
decreasing_by
  · have := Node.sizeAll_memberDeclarations_lt member
    simp only [Node.sizeAll_append, Node.sizeAll_reverse, Node.sizeAll]
    omega
  · have := Node.size_pos member
    simp only [Node.sizeAll]
    omega

/-- The public surface below a root. -/
def publicSurface (root : Vertex) : List Vertex := collectPublic root.memberDeclarations.reverse []

/-- A documentation comment stands just before the declaration. -/
def Forest.isDocumented (forest : Forest) (node : Vertex) : Except Detached Bool := do
  match ← forest.previousSibling node with
  | none => return false
  | some sibling => return sibling.kind.isDocComment

end CodeMetrics
