import CodeMetrics.Metrics.Snapshot
import CodeMetrics.Proofs.Tree.Planting

/-!
# What the public surface holds

The public surface is collected from the top of a file down. Seen from below, a public declaration is
on the surface exactly when the way from owner to owner leads through public declarations and
namespaces up to the root. The order in which pending declarations are taken makes no difference.
-/

namespace CodeMetrics

/-! ## Owners -/

theorem Kind.ne_declarationList_of_isMember {kind : Kind} (isMember : kind.isMember) :
    kind ≠ .declarationList := by
  rintro rfl
  exact absurd isMember (by decide)

namespace Node

variable {ι : Type}

/-- The members of the declaration can be seen from outside. -/
def isOpen (node : Node ι) : Bool := node.isPublic || node.kind.isNamespace

theorem mem_memberDeclarations {node member : Node ι} :
    member ∈ node.memberDeclarations ↔ member.kind.isMember = true ∧
      (member ∈ node.children ∨
        ∃ list ∈ node.children, list.kind = .declarationList ∧ member ∈ list.children) := by
  rw [memberDeclarations, List.mem_flatMap]
  constructor
  · rintro ⟨child, isChild, listed⟩
    rw [ownMembers] at listed
    split at listed
    case isTrue isMember =>
      obtain rfl := List.mem_singleton.mp listed
      exact ⟨isMember, .inl isChild⟩
    case isFalse =>
      split at listed
      · obtain ⟨inner, isMember⟩ := List.mem_filter.mp listed
        exact ⟨isMember, .inr ⟨child, isChild, ‹_›, inner⟩⟩
      · simp at listed
  · rintro ⟨isMember, isChild | ⟨list, isChild, isList, inner⟩⟩
    · exact ⟨member, isChild, by simp [ownMembers, isMember]⟩
    · have notMember : ¬ list.kind.isMember :=
        fun isMember => Kind.ne_declarationList_of_isMember isMember isList
      refine ⟨list, isChild, ?_⟩
      rw [ownMembers, if_neg notMember, if_pos isList]
      exact List.mem_filter.mpr ⟨inner, isMember⟩

end Node

namespace Forest

variable {forest : Forest} {root : Vertex}

namespace IsTree

/-- A member of a declaration has that declaration as its owner. -/
theorem enclosingDeclaration?_eq (tree : IsTree forest root) {owner member : Vertex}
    (inTree : owner ∈ root.preorder) (notList : owner.kind ≠ .declarationList)
    (isMember : member ∈ owner.memberDeclarations) :
    member ∈ root.preorder ∧ forest.enclosingDeclaration? member = some owner := by
  obtain ⟨-, isChild | ⟨list, isChild, isList, inner⟩⟩ := Node.mem_memberDeclarations.mp isMember
  · refine ⟨Node.mem_preorder_trans (Node.child_mem_preorder isChild) root inTree, ?_⟩
    rw [enclosingDeclaration?, tree.parent?_eq inTree isChild]
    exact if_neg notList
  · have listInTree := Node.mem_preorder_trans (Node.child_mem_preorder isChild) root inTree
    refine ⟨Node.mem_preorder_trans (Node.child_mem_preorder inner) root listInTree, ?_⟩
    rw [enclosingDeclaration?, tree.parent?_eq listInTree inner]
    exact (if_pos isList).trans (tree.parent?_eq inTree isChild)

/-- A member declaration is a member of its owner. -/
theorem mem_memberDeclarations_of_owner (tree : IsTree forest root)
    (notList : root.kind ≠ .declarationList) {owner member : Vertex}
    (inTree : member ∈ root.preorder) (below : member ≠ root) (isMember : member.kind.isMember)
    (owned : forest.enclosingDeclaration? member = some owner) :
    owner ∈ root.preorder ∧ member ∈ owner.memberDeclarations := by
  obtain same | ⟨holder, holderInTree, held⟩ := Node.eq_or_exists_holder inTree
  · exact absurd same below
  rw [enclosingDeclaration?, tree.parent?_eq holderInTree held] at owned
  by_cases isList : holder.kind = .declarationList
  · -- The list is not the root, so it has a holder in the tree too.
    obtain rfl | ⟨above, aboveInTree, listed⟩ := Node.eq_or_exists_holder holderInTree
    · exact absurd isList notList
    have isOwner := (if_pos isList).symm.trans owned
    rw [tree.parent?_eq aboveInTree listed] at isOwner
    obtain rfl := Option.some.inj isOwner
    exact ⟨aboveInTree, Node.mem_memberDeclarations.mpr
      ⟨isMember, .inr ⟨holder, listed, isList, held⟩⟩⟩
  · obtain rfl := Option.some.inj ((if_neg isList).symm.trans owned)
    exact ⟨holderInTree, Node.mem_memberDeclarations.mpr ⟨isMember, .inl held⟩⟩

end IsTree

theorem Built.mark_lt_of_enclosing (built : Built forest) {node owner : Vertex}
    (owned : forest.enclosingDeclaration? node = some owner) : node.mark < owner.mark := by
  rw [enclosingDeclaration?] at owned
  cases isParent : forest.parent? node with
  | none => simp [isParent] at owned
  | some parent =>
      have younger := (built.parent?_eq_some isParent).2.2
      rw [isParent] at owned
      by_cases isList : parent.kind = .declarationList
      · have isOwner := (if_pos isList).symm.trans owned
        have youngest := (built.parent?_eq_some isOwner).2.2
        omega
      · obtain rfl := Option.some.inj ((if_neg isList).symm.trans owned)
        exact younger

/-- Going from owner to owner, one or more times, leads from the node to the root, and every
declaration on the way is a member declaration that is open. -/
inductive Exposes (forest : Forest) (root : Vertex) : Vertex → Prop where
  | top {node : Vertex} (owned : forest.enclosingDeclaration? node = some root) :
      Exposes forest root node
  | inside {node owner : Vertex} (owned : forest.enclosingDeclaration? node = some owner)
      (isMember : owner.kind.isMember) (isOpen : owner.isOpen) (above : Exposes forest root owner) :
      Exposes forest root node

theorem Exposes.mark_lt (built : Built forest) {node : Vertex} (exposed : Exposes forest root node) :
    node.mark < root.mark := by
  induction exposed with
  | top owned => exact built.mark_lt_of_enclosing owned
  | inside owned _ _ _ induction => exact Nat.lt_trans (built.mark_lt_of_enclosing owned) induction

end Forest

/-! ## From the top down -/

/-- The declarations that are seen from pending ones through open declarations. -/
inductive Seen (pending : List Vertex) : Vertex → Prop where
  | pending {node : Vertex} (listed : node ∈ pending) : Seen pending node
  | inside {node owner : Vertex} (seen : Seen pending owner) (isOpen : owner.isOpen)
      (isMember : node ∈ owner.memberDeclarations) : Seen pending node

/-- What a declaration adds to the pending ones. -/
def Node.openMembers (node : Vertex) : List Vertex :=
  if node.isOpen then node.memberDeclarations else []

/-- The outcomes of collecting public declarations, if the pending declarations can be taken in any
order. -/
inductive Collects : List Vertex → List Vertex → List Vertex → Prop where
  | done (found : List Vertex) : Collects [] found found
  | take {pending rest found result : List Vertex} (member : Vertex)
      (picked : pending.Perm (member :: rest))
      (further : Collects (member.openMembers ++ rest)
        (if member.isPublic then addDistinct found member else found) result) :
      Collects pending found result

/-- Taking a declaration changes nothing in what is seen. -/
theorem seen_take {pending rest : List Vertex} {member node : Vertex}
    (picked : pending.Perm (member :: rest)) :
    Seen pending node ↔ node = member ∨ Seen (member.openMembers ++ rest) node := by
  constructor
  · intro seen
    induction seen with
    | pending listed =>
        rcases List.mem_cons.mp (picked.mem_iff.mp listed) with same | later
        · exact .inl same
        · exact .inr (.pending (List.mem_append_right _ later))
    | inside _ isOpen isMember induction =>
        rcases induction with rfl | seen
        · refine .inr (.pending (List.mem_append_left _ ?_))
          rwa [Node.openMembers, if_pos isOpen]
        · exact .inr (.inside seen isOpen isMember)
  · rintro (rfl | seen)
    · exact .pending (picked.mem_iff.mpr List.mem_cons_self)
    · induction seen with
      | pending listed =>
          rcases List.mem_append.mp listed with inner | later
          · rw [Node.openMembers] at inner
            split at inner
            case isTrue isOpen =>
              exact .inside (.pending (picked.mem_iff.mpr List.mem_cons_self)) isOpen inner
            case isFalse => simp at inner
          · exact .pending (picked.mem_iff.mpr (List.mem_cons_of_mem _ later))
      | inside _ isOpen isMember induction => exact .inside induction isOpen isMember

namespace Collects

variable {pending other found result : List Vertex}

theorem perm (collects : Collects pending found result) (same : other.Perm pending) :
    Collects other found result := by
  cases collects with
  | done =>
      rw [same.eq_nil]
      exact .done found
  | take member picked further => exact .take member (same.trans picked) further

theorem mem_addDistinct {node member : Vertex} (listed : node ∈ addDistinct found member) :
    node ∈ found ∨ node = member := by
  rw [addDistinct] at listed
  split at listed
  · exact .inl listed
  · simpa using listed

theorem shape_mem_addDistinct {member : Vertex} {shape : Shape} :
    (∃ node ∈ addDistinct found member, node.shape = shape) ↔
      (∃ node ∈ found, node.shape = shape) ∨ member.shape = shape := by
  rw [addDistinct]
  split
  case isTrue there =>
    obtain ⟨node, listed, same⟩ := List.any_eq_true.mp there
    constructor
    · exact .inl
    · rintro (before | rfl)
      · exact before
      · exact ⟨node, listed, of_decide_eq_true same⟩
  case isFalse => simp [or_and_right, exists_or]

/-- Only what is public and seen is collected. -/
theorem seen_of_mem (collects : Collects pending found result) {node : Vertex}
    (listed : node ∈ result) : node ∈ found ∨ (Seen pending node ∧ node.isPublic) := by
  induction collects with
  | done => exact .inl listed
  | take member picked _ induction =>
      rcases induction listed with before | ⟨seen, isPublic⟩
      · split at before
        case isTrue memberPublic =>
          rcases mem_addDistinct before with earlier | rfl
          · exact .inl earlier
          · exact .inr ⟨(seen_take picked).mpr (.inl rfl), memberPublic⟩
        case isFalse => exact .inl before
      · exact .inr ⟨(seen_take picked).mpr (.inr seen), isPublic⟩

/-- In whatever order the pending declarations are taken, a copy of each public declaration that is
seen is collected. -/
theorem shape_mem_iff (collects : Collects pending found result) (shape : Shape) :
    (∃ node ∈ result, node.shape = shape) ↔
      (∃ node ∈ found, node.shape = shape) ∨
        ∃ node, Seen pending node ∧ node.isPublic ∧ node.shape = shape := by
  induction collects with
  | done =>
      have nothing : ∀ node, ¬ Seen [] node := by
        intro node seen
        induction seen with
        | pending listed => simp at listed
        | inside _ _ _ induction => exact induction
      simp [nothing]
  | take member picked _ induction =>
      rw [induction]
      simp only [seen_take picked, or_and_right, exists_or, exists_eq_left]
      split
      case isTrue isPublic => rw [shape_mem_addDistinct, or_assoc]; simp [isPublic]
      case isFalse isPublic => simp [isPublic]

theorem nodup_addDistinct {member : Vertex} (distinct : (found.map Node.shape).Nodup) :
    ((addDistinct found member).map Node.shape).Nodup := by
  rw [addDistinct]
  split
  case isTrue => exact distinct
  case isFalse absent =>
    rw [List.map_append, List.nodup_append]
    refine ⟨distinct, List.nodup_singleton _, ?_⟩
    intro shape listed last isLast same
    obtain ⟨node, member, rfl⟩ := List.mem_map.mp listed
    obtain rfl := List.mem_singleton.mp isLast
    exact absent (List.any_eq_true.mpr ⟨node, member, decide_eq_true same⟩)

/-- No two collected declarations are equal. -/
theorem nodup (collects : Collects pending found result) (distinct : (found.map Node.shape).Nodup) :
    (result.map Node.shape).Nodup := by
  induction collects with
  | done => exact distinct
  | take member _ _ induction =>
      refine induction ?_
      split
      · exact nodup_addDistinct distinct
      · exact distinct

/-- The order in which pending declarations are taken does not change what is collected. -/
theorem perm_shapes {second : List Vertex} (collects : Collects pending [] result)
    (again : Collects pending [] second) :
    (result.map Node.shape).Perm (second.map Node.shape) := by
  rw [List.perm_ext_iff_of_nodup (collects.nodup .nil) (again.nodup .nil)]
  intro shape
  simp only [List.mem_map, collects.shape_mem_iff, again.shape_mem_iff]

end Collects

/-- Taking the declaration on top of the stack is one of the orders. -/
theorem collects_collectPublic (stack found : List Vertex) :
    Collects stack found (collectPublic stack found) := by
  fun_induction collectPublic stack found with
  | case1 found => exact .done found
  | case2 member stack found newFound isOpen induction =>
      refine .take member (.refl _) (induction.perm ?_)
      rw [Node.openMembers, Node.isOpen, if_pos isOpen]
      exact (List.reverse_perm _).symm.append_right stack
  | case3 member stack found newFound isClosed induction =>
      refine .take member (.refl _) (induction.perm ?_)
      rw [Node.openMembers, Node.isOpen, if_neg isClosed]
      exact .refl _

theorem collects_publicSurface (root : Vertex) :
    Collects root.memberDeclarations [] (publicSurface root) :=
  (collects_collectPublic _ []).perm (List.reverse_perm _).symm

/-! ## Both ways -/

namespace Forest.IsTree

variable {forest : Forest} {root : Vertex}

/-- The declarations that are seen from the root are those that the way up leads out of. -/
theorem seen_iff (tree : IsTree forest root) (notList : root.kind ≠ .declarationList)
    {node : Vertex} :
    Seen root.memberDeclarations node ↔
      node ∈ root.preorder ∧ node.kind.isMember ∧ Exposes forest root node := by
  constructor
  · intro seen
    induction seen with
    | pending listed =>
        obtain ⟨inTree, owned⟩ :=
          tree.enclosingDeclaration?_eq (Node.self_mem_preorder root) notList listed
        exact ⟨inTree, (Node.mem_memberDeclarations.mp listed).1, .top owned⟩
    | inside _ isOpen isMember induction =>
        obtain ⟨ownerInTree, ownerIsMember, exposed⟩ := induction
        have ownerNotList := Kind.ne_declarationList_of_isMember ownerIsMember
        obtain ⟨inTree, owned⟩ := tree.enclosingDeclaration?_eq ownerInTree ownerNotList isMember
        exact ⟨inTree, (Node.mem_memberDeclarations.mp isMember).1,
          .inside owned ownerIsMember isOpen exposed⟩
  · rintro ⟨inTree, isMember, exposed⟩
    have below : ∀ {inner}, Exposes forest root inner → inner ≠ root := by
      rintro inner exposed rfl
      exact Nat.lt_irrefl _ (exposed.mark_lt tree.built)
    induction exposed with
    | top owned =>
        obtain ⟨-, listed⟩ := tree.mem_memberDeclarations_of_owner notList inTree (below (.top owned))
          isMember owned
        exact .pending listed
    | inside owned ownerIsMember isOpen above induction =>
        have inner := below (.inside owned ownerIsMember isOpen above)
        obtain ⟨ownerInTree, listed⟩ :=
          tree.mem_memberDeclarations_of_owner notList inTree inner isMember owned
        exact .inside (induction ownerInTree ownerIsMember) isOpen listed

/-- A node above a member is a declaration list or has the owner of the member under it. -/
theorem owner_mem_preorder (tree : IsTree forest root) {owner node ancestor : Vertex}
    (ownerInTree : owner ∈ root.preorder) (isMember : node ∈ owner.memberDeclarations)
    (inTree : ancestor ∈ root.preorder) (inside : node ∈ ancestor.descendants) :
    ancestor.kind = .declarationList ∨ owner ∈ ancestor.preorder := by
  obtain ⟨parent, below, isParent⟩ := tree.exists_parent?_of_descendant inTree inside
  obtain ⟨-, isChild | ⟨list, isChild, isList, inner⟩⟩ := Node.mem_memberDeclarations.mp isMember
  · rw [tree.parent?_eq ownerInTree isChild] at isParent
    exact .inr (Option.some.inj isParent ▸ below)
  · have listInTree := Node.mem_preorder_trans (Node.child_mem_preorder isChild) root ownerInTree
    rw [tree.parent?_eq listInTree inner] at isParent
    obtain rfl := Option.some.inj isParent
    rcases Node.mem_preorder_iff_descendant.mp below with rfl | listInside
    · exact .inl isList
    · obtain ⟨above, aboveBelow, isAbove⟩ := tree.exists_parent?_of_descendant inTree listInside
      rw [tree.parent?_eq ownerInTree isChild] at isAbove
      exact .inr (Option.some.inj isAbove ▸ aboveBelow)

/-- Nothing is seen below a node that is neither a declaration list nor an open member
declaration. -/
theorem isOpen_of_seen (tree : IsTree forest root) (notList : root.kind ≠ .declarationList)
    {node ancestor : Vertex} (seen : Seen root.memberDeclarations node)
    (inTree : ancestor ∈ root.preorder) (below : ancestor ≠ root)
    (inside : node ∈ ancestor.descendants) :
    ancestor.kind = .declarationList ∨ ancestor.kind.isMember ∧ ancestor.isOpen := by
  induction seen with
  | pending listed =>
      rcases tree.owner_mem_preorder (Node.self_mem_preorder root) listed inTree inside with
        isList | above
      · exact .inl isList
      · exact absurd (tree.eq_root_of_mem_preorder inTree above) below
  | inside seen isOpen isMember induction =>
      obtain ⟨ownerInTree, ownerIsMember, -⟩ := (tree.seen_iff notList).mp seen
      rcases tree.owner_mem_preorder ownerInTree isMember inTree inside with isList | above
      · exact .inl isList
      · rcases Node.mem_preorder_iff_descendant.mp above with rfl | ownerInside
        · exact .inr ⟨ownerIsMember, isOpen⟩
        · exact induction ownerInside

end Forest.IsTree

/-- The public surface of a tree in which each node occurs once. A node is equal to a declaration on
the surface exactly when it is equal to a public member declaration of the tree from which open
declarations lead up to the root. So nothing on it stands below a declaration that is not open, or
below anything else that is not a declaration list, and collecting the pending declarations in
another order gives equal declarations. -/
theorem publicApi_eq_exposed (document : Document) (language : document.language = analysedLanguage)
    (tree : document.forest.IsTree document.root)
    (notList : document.root.kind ≠ .declarationList) :
    ∃ surface,
      document.publicApi = .ok surface ∧
      (∀ node : Vertex, (∃ found ∈ surface, found.shape = node.shape) ↔
        ∃ declaration ∈ document.root.preorder, declaration.shape = node.shape ∧
          declaration.kind.isMember ∧ declaration.isPublic ∧
          document.forest.Exposes document.root declaration) ∧
      (∀ found ∈ surface, ∀ ancestor ∈ document.root.preorder, ancestor ≠ document.root →
        found ∈ ancestor.descendants →
          ancestor.kind = .declarationList ∨ ancestor.kind.isMember ∧ ancestor.isOpen) ∧
      ∀ result, Collects document.root.memberDeclarations [] result →
        (result.map Node.shape).Perm (surface.map Node.shape) := by
  have collects := collects_publicSurface document.root
  refine ⟨publicSurface document.root, if_pos language, ?_, ?_, fun _ => (·.perm_shapes collects)⟩
  · intro node
    rw [collects.shape_mem_iff]
    simp only [tree.seen_iff notList, List.not_mem_nil, false_and, exists_false, false_or]
    constructor
    · rintro ⟨declaration, ⟨inTree, isMember, exposed⟩, isPublic, same⟩
      exact ⟨declaration, inTree, same, isMember, isPublic, exposed⟩
    · rintro ⟨declaration, inTree, same, isMember, isPublic, exposed⟩
      exact ⟨declaration, ⟨inTree, isMember, exposed⟩, isPublic, same⟩
  · intro found listed ancestor inTree below inside
    rcases collects.seen_of_mem listed with nothing | ⟨seen, -⟩
    · simp at nothing
    · exact tree.isOpen_of_seen notList seen inTree below inside

/-- A public modifier. -/
def publicKeyword : Shape := .mk () (.of .modifier ⟨0, 0, 1, 0, 1, 0⟩ (some "public") none "") []

/-- A namespace with a public class and a struct that is not public. Both hold a public member. -/
def halfOpenShape : Shape :=
  .sketch .compilationUnit none [.sketch .namespaceDeclaration none [.sketch .declarationList none
    [.sketch .classDeclaration none
      [publicKeyword, .sketch .declarationList none
        [.sketch .methodDeclaration none [publicKeyword]]],
    .sketch .structDeclaration none
      [.sketch .declarationList none [.sketch .propertyDeclaration none [publicKeyword]]]]]]

/-- The document of that namespace. -/
def halfOpenNamespace : Document :=
  .ofTree (Forest.empty.plant halfOpenShape) analysedLanguage "" "HalfOpen.cs"

theorem publicApi_eq_exposed_halfOpenNamespace :
    halfOpenNamespace.forest.IsTree halfOpenNamespace.root ∧
      halfOpenNamespace.root.kind ≠ .declarationList ∧
      ∃ surface,
        halfOpenNamespace.publicApi = .ok surface ∧
        surface.map Node.kind = [.classDeclaration, .methodDeclaration] ∧
        ∀ node : Vertex, (∃ found ∈ surface, found.shape = node.shape) ↔
          ∃ declaration ∈ halfOpenNamespace.root.preorder, declaration.shape = node.shape ∧
            declaration.kind.isMember ∧ declaration.isPublic ∧
            halfOpenNamespace.forest.Exposes halfOpenNamespace.root declaration := by
  have tree : halfOpenNamespace.forest.IsTree halfOpenNamespace.root := Forest.isTree_plant _
  have notList : halfOpenNamespace.root.kind ≠ .declarationList := by decide
  obtain ⟨surface, collected, exposed, -⟩ :=
    publicApi_eq_exposed halfOpenNamespace rfl tree notList
  have kinds : (publicSurface halfOpenNamespace.root).map Node.kind =
      [.classDeclaration, .methodDeclaration] := by decide +kernel
  have surface_eq : publicSurface halfOpenNamespace.root = surface :=
    Except.ok.inj ((if_pos rfl).symm.trans collected)
  exact ⟨tree, notList, surface, collected, surface_eq ▸ kinds, exposed⟩

end CodeMetrics
