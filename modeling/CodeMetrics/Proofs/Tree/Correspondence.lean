import CodeMetrics.Proofs.Tree.Construction
import CodeMetrics.Tree.Classification
import Mathlib.Data.List.Forall2

/-!
# Trees that correspond place by place

Two nodes are paired when they stand at the same place of two trees. If paired nodes are alike, then
whatever is found from the one by going up, down or along its siblings is paired with what is found
from the other.
-/

namespace CodeMetrics

/-! ## Related lists and outcomes -/

section Related

variable {α β : Type} {link : α → β → Prop} {items : List α} {others : List β}

theorem rel_find? {keep : α → Bool} {keepOther : β → Bool}
    (linked : List.Forall₂ (fun item other => link item other ∧ keep item = keepOther other)
      items others) : Option.Rel link (items.find? keep) (others.find? keepOther) := by
  induction linked with
  | nil => exact .none
  | @cons item other _ _ head _ induction =>
      cases kept : keep item with
      | true =>
          rw [List.find?_cons_of_pos kept, List.find?_cons_of_pos (head.2 ▸ kept)]
          exact .some head.1
      | false =>
          rw [List.find?_cons_of_neg (by simp [kept]),
            List.find?_cons_of_neg (by simp [← head.2, kept])]
          exact induction

theorem rel_head? (linked : List.Forall₂ link items others) :
    Option.Rel link items.head? others.head? := by
  cases linked with
  | nil => exact .none
  | cons head _ => exact .some head

theorem rel_getLast? (linked : List.Forall₂ link items others) :
    Option.Rel link items.getLast? others.getLast? := by
  rw [List.getLast?_eq_head?_reverse, List.getLast?_eq_head?_reverse]
  exact rel_head? (List.rel_reverse linked)

theorem exists_of_rel_some {first : Option α} {other : β}
    (linked : Option.Rel link first (some other)) :
    ∃ item, first = some item ∧ link item other := by
  cases linked with
  | some here => exact ⟨_, rfl, here⟩

theorem eq_none_of_rel_none {first : Option α} (linked : Option.Rel link first none) :
    first = none := by
  cases linked
  rfl

theorem rel_or {first third : Option α} {second fourth : Option β}
    (linked : Option.Rel link first second) (rest : Option.Rel link third fourth) :
    Option.Rel link (first.or third) (second.or fourth) := by
  cases linked with
  | none => simpa using rest
  | some head => exact .some head

theorem isSome_eq_of_rel {first : Option α} {second : Option β}
    (linked : Option.Rel link first second) :
    first.isSome = second.isSome := by
  cases linked with
  | none => rfl
  | some _ => rfl

theorem forall₂_filter (linked : List.Forall₂ link items others) {keep : α → Bool}
    {keepOther : β → Bool} (alike : ∀ item other, link item other → keep item = keepOther other) :
    List.Forall₂ link (items.filter keep) (others.filter keepOther) := by
  refine List.rel_filter ?_ linked
  intro item other linked
  change keep item = true ↔ keepOther other = true
  rw [alike item other linked]

theorem rel_getElem? (linked : List.Forall₂ link items others) (index : Nat) :
    Option.Rel link items[index]? others[index]? := by
  induction linked generalizing index with
  | nil => exact .none
  | cons head _ induction =>
      cases index with
      | zero => exact .some head
      | succ index => exact induction index

theorem forall_mem_of_forall₂ {holds : α → Prop} {holdsOther : β → Prop}
    (linked : List.Forall₂ link items others)
    (carry : ∀ item other, link item other → holds item → holdsOther other)
    (all : ∀ item ∈ items, holds item) : ∀ other ∈ others, holdsOther other := by
  induction linked with
  | nil => simp
  | cons head _ induction =>
      rw [List.forall_mem_cons] at all ⊢
      exact ⟨carry _ _ head all.1, induction all.2⟩

theorem exists_linked_of_mem (linked : List.Forall₂ link items others) :
    ∀ other ∈ others, ∃ item ∈ items, link item other :=
  forall_mem_of_forall₂ linked (fun item _ here listed => ⟨item, listed, here⟩)
    fun _ listed => listed

/-- Items are apart pair by pair where the items that they are linked to are. -/
theorem pairwise_of_forall₂ {apart : α → α → Prop} {otherApart : β → β → Prop}
    (linked : List.Forall₂ link items others)
    (carry : ∀ item twin other otherTwin, link item other → link twin otherTwin →
      otherApart other otherTwin → apart item twin)
    (pairs : others.Pairwise otherApart) : items.Pairwise apart := by
  induction linked with
  | nil => exact .nil
  | cons head tail induction =>
      rw [List.pairwise_cons] at pairs ⊢
      have backward : List.Forall₂ (flip link) _ _ := List.Forall₂.flip tail
      refine ⟨?_, induction pairs.2⟩
      exact forall_mem_of_forall₂ backward (fun _ _ linked => carry _ _ _ _ head linked) pairs.1

theorem forall₂_takeWhile (linked : List.Forall₂ link items others) {keep : α → Bool}
    {keepOther : β → Bool} (alike : ∀ item other, link item other → keep item = keepOther other) :
    List.Forall₂ link (items.takeWhile keep) (others.takeWhile keepOther) := by
  induction linked with
  | nil => exact .nil
  | cons head _ induction =>
      rw [List.takeWhile_cons, List.takeWhile_cons, alike _ _ head]
      split
      · exact .cons head induction
      · exact .nil

theorem forall₂_dropWhile (linked : List.Forall₂ link items others) {keep : α → Bool}
    {keepOther : β → Bool} (alike : ∀ item other, link item other → keep item = keepOther other) :
    List.Forall₂ link (items.dropWhile keep) (others.dropWhile keepOther) := by
  induction linked with
  | nil => exact .nil
  | cons head rest induction =>
      rw [List.dropWhile_cons, List.dropWhile_cons, alike _ _ head]
      split
      · exact induction
      · exact .cons head rest

theorem map_eq_of_forall₂ {γ : Type} {view : α → γ} {otherView : β → γ}
    (linked : List.Forall₂ link items others)
    (alike : ∀ item other, link item other → view item = otherView other) :
    items.map view = others.map otherView := by
  induction linked with
  | nil => rfl
  | cons head _ induction => rw [List.map_cons, List.map_cons, alike _ _ head, induction]

/-- Two computations come to results that are linked. -/
def Concur {failure : Type} (link : α → β → Prop) (first : Except failure α)
    (second : Except failure β) : Prop :=
  ∃ result other, first = .ok result ∧ second = .ok other ∧ link result other

namespace Concur

variable {failure γ δ : Type} {first : Except failure α} {second : Except failure β}

theorem ok {result : α} {other : β} (linked : link result other) :
    Concur link (Except.ok result : Except failure α) (Except.ok other) :=
  ⟨result, other, rfl, rfl, linked⟩

theorem bind {next : α → Except failure γ} {nextOther : β → Except failure δ}
    {goal : γ → δ → Prop} (concur : Concur link first second)
    (step : ∀ result other, link result other → Concur goal (next result) (nextOther other)) :
    Concur goal (first >>= next) (second >>= nextOther) := by
  obtain ⟨result, other, rfl, rfl, linked⟩ := concur
  exact step result other linked

end Concur

end Related

/-! ## Paired nodes -/

/-- The two nodes stand at the same place of the two trees. -/
inductive Paired (left right : Vertex) : Vertex → Vertex → Prop where
  | roots : Paired left right left right
  | children {holder other child twin : Vertex} (index : Nat)
      (above : Paired left right holder other)
      (here : holder.children[index]? = some child) (there : other.children[index]? = some twin) :
      Paired left right child twin

/-- The kinds of nodes in which no child is looked up by its slot. -/
def Kind.isUnslotted : Kind → Bool
  | .ifStatement | .switchSection => true
  | _ => false

/-- Two trees, each by itself in its forest, in which paired nodes are alike. -/
structure Alike (first second : Forest) (left right : Vertex) : Prop where
  leftTree : first.IsTree left
  rightTree : second.IsTree right
  leftTop : first.parent? left = none
  rightTop : second.parent? right = none
  kind : ∀ {node other}, Paired left right node other → node.kind = other.kind
  span : ∀ {node other}, Paired left right node other → node.span = other.span
  text : ∀ {node other}, Paired left right node other → node.text = other.text
  arity : ∀ {node other}, Paired left right node other →
    node.children.length = other.children.length
  fields : ∀ {node other}, Paired left right node other → node.kind.isUnslotted = false →
    node.children.map Node.field = other.children.map Node.field

theorem Paired.mem_preorder {left right node other : Vertex}
    (paired : Paired left right node other) :
    node ∈ left.preorder ∧ other ∈ right.preorder := by
  induction paired with
  | roots => exact ⟨Node.self_mem_preorder left, Node.self_mem_preorder right⟩
  | children index _ here there induction =>
      have held := Node.child_mem_preorder (List.mem_of_getElem? here)
      have otherHeld := Node.child_mem_preorder (List.mem_of_getElem? there)
      exact ⟨Node.mem_preorder_trans held left induction.1,
        Node.mem_preorder_trans otherHeld right induction.2⟩

theorem Node.map_field_map_shape {ι : Type} (nodes : List (Node ι)) :
    (nodes.map shape).map field = nodes.map field := by
  rw [List.map_map]
  apply List.map_congr_left
  intro node _
  rw [Function.comp_apply, field, attributes_shape, field]

/-! ## Siblings -/

theorem splitAtMark_eq {nodes : List Vertex} (distinct : (nodes.map Node.mark).Nodup) {index : Nat}
    {node : Vertex} (here : nodes[index]? = some node) :
    splitAtMark node.mark nodes = some (nodes.take index, nodes.drop (index + 1)) := by
  induction nodes generalizing index with
  | nil => simp at here
  | cons first nodes induction =>
      rw [List.map_cons, List.nodup_cons] at distinct
      cases index with
      | zero =>
          obtain rfl : first = node := by simpa using here
          rw [splitAtMark, if_pos rfl]
          rfl
      | succ index =>
          rw [List.getElem?_cons_succ] at here
          have later : node.mark ∈ nodes.map Node.mark :=
            List.mem_map_of_mem (List.mem_of_getElem? here)
          have different : first.mark ≠ node.mark := by
            intro same
            exact distinct.1 (same ▸ later)
          rw [splitAtMark, if_neg different, induction distinct.2 here]
          rfl

namespace Node

mutual

/-- What is under a node of a tree stands among the nodes of the tree, in order. -/
theorem sublist_preorder {ι : Type} {node : Node ι} : (tree : Node ι) → node ∈ tree.preorder →
    node.preorder.Sublist tree.preorder
  | .mk mark attributes children, member => by
      rcases mem_preorder.mp member with rfl | below
      · exact List.Sublist.refl _
      · rw [preorder_eq (.mk mark attributes children)]
        exact (sublist_preorder_all children below).cons _

theorem sublist_preorder_all {ι : Type} {node : Node ι} : (trees : List (Node ι)) →
    node ∈ preorderAll trees → node.preorder.Sublist (preorderAll trees)
  | [], member => by simp [preorderAll] at member
  | tree :: trees, member => by
      rw [preorderAll, List.mem_append] at member
      rw [preorderAll]
      rcases member with here | later
      · exact (sublist_preorder tree here).trans (List.sublist_append_left _ _)
      · exact (sublist_preorder_all trees later).trans (List.sublist_append_right _ _)

end

theorem Distinct.of_mem {tree node : Vertex} (distinct : tree.Distinct)
    (member : node ∈ tree.preorder) : node.Distinct :=
  List.Nodup.sublist ((sublist_preorder tree member).map mark) distinct

theorem Distinct.nodup_children {node : Vertex} (distinct : node.Distinct) :
    (node.children.map mark).Nodup := by
  rw [Distinct, preorder_eq, List.map_cons, List.nodup_cons] at distinct
  exact distinct.2.sublist ((sublist_preorderAll node.children).map mark)

end Node

namespace Alike

variable {first second : Forest} {left right node other : Vertex}

/-! ## Going down -/

theorem forall₂_children (alike : Alike first second left right)
    (paired : Paired left right node other) :
    List.Forall₂ (Paired left right) node.children other.children := by
  rw [List.forall₂_iff_get]
  refine ⟨alike.arity paired, ?_⟩
  intro index here there
  refine .children index paired ?_ ?_
  · rw [List.get_eq_getElem, List.getElem?_eq_getElem here]
  · rw [List.get_eq_getElem, List.getElem?_eq_getElem there]

/-- Where children are looked up by slot, the children of paired nodes are in the same slots. -/
theorem forall₂_slots (alike : Alike first second left right)
    (paired : Paired left right node other) (slotted : node.kind.isUnslotted = false) :
    List.Forall₂ (fun child twin => Paired left right child twin ∧ child.field = twin.field)
      node.children other.children := by
  have pairs := alike.forall₂_children paired
  have fields := alike.fields paired slotted
  generalize node.children = children, other.children = others at pairs fields
  induction pairs with
  | nil => exact .nil
  | cons head _ induction =>
      obtain ⟨slot, slots⟩ := List.cons.inj fields
      exact .cons ⟨head, slot⟩ (induction slots)

theorem isLeaf_eq (alike : Alike first second left right) (paired : Paired left right node other) :
    node.isLeaf = other.isLeaf := by
  have arity := alike.arity paired
  rw [Node.isLeaf, Node.isLeaf]
  generalize node.children = children, other.children = others at arity
  cases children with
  | nil => rw [List.eq_nil_of_length_eq_zero arity.symm]
  | cons child children =>
      cases others with
      | nil => simp at arity
      | cons _ _ => rfl

theorem forall₂_preorderAll (alike : Alike first second left right) {nodes others : List Vertex}
    (pairs : List.Forall₂ (Paired left right) nodes others) :
    List.Forall₂ (Paired left right) (Node.preorderAll nodes) (Node.preorderAll others) := by
  -- the induction is on the number of nodes, of which a node has more than its children together
  induction size : Node.sizeAll nodes using Nat.strongRecOn generalizing nodes others with
  | ind _ smaller =>
      subst size
      cases pairs with
      | nil => exact .nil
      | @cons node other nodes others head rest =>
          have bound := Node.size_pos node
          have below := smaller (Node.sizeAll node.children)
            (by rw [Node.sizeAll, Node.size_eq]; omega) (alike.forall₂_children head) rfl
          have after := smaller (Node.sizeAll nodes) (by rw [Node.sizeAll]; omega) rest rfl
          rw [Node.preorderAll, Node.preorderAll, Node.preorder_eq, Node.preorder_eq]
          exact List.rel_append (.cons head below) after

theorem forall₂_preorder (alike : Alike first second left right)
    (paired : Paired left right node other) :
    List.Forall₂ (Paired left right) node.preorder other.preorder := by
  rw [Node.preorder_eq, Node.preorder_eq]
  exact .cons paired (alike.forall₂_preorderAll (alike.forall₂_children paired))

theorem forall₂_descendants (alike : Alike first second left right)
    (paired : Paired left right node other) :
    List.Forall₂ (Paired left right) node.descendants other.descendants := by
  rw [Node.descendants_eq, Node.descendants_eq]
  exact alike.forall₂_preorderAll (alike.forall₂_children paired)

theorem forall₂_leaves (alike : Alike first second left right)
    (paired : Paired left right node other) :
    List.Forall₂ (Paired left right) node.leaves other.leaves := by
  rw [Node.leaves, Node.leaves, Node.walk_eq_preorder, Node.walk_eq_preorder]
  exact forall₂_filter (alike.forall₂_preorder paired) fun _ _ => alike.isLeaf_eq

end Alike

/-- The first leaf of a node is the first leaf of its first child. -/
theorem Node.firstToken_eq {ι : Type} (node : Node ι) :
    node.firstToken = (node.children.head?.map firstToken).getD node := by
  obtain ⟨mark, attributes, children⟩ := node
  cases children with
  | nil => simp [firstToken, firstTokenOf]
  | cons child children => simp [firstToken, firstTokenOf]

/-- The last leaf of a node is the last leaf of its last child. -/
theorem Node.lastToken_eq {ι : Type} (node : Node ι) :
    node.lastToken = (node.children.getLast?.map lastToken).getD node := by
  have last : ∀ (holder : Node ι) (children : List (Node ι)),
      lastTokenOf holder children = (children.getLast?.map lastToken).getD holder := by
    intro holder children
    induction children with
    | nil => rfl
    | cons child children induction =>
        cases children with
        | nil => rfl
        | cons next children => rw [lastTokenOf, induction, List.getLast?_cons_cons]
  obtain ⟨mark, attributes, children⟩ := node
  rw [lastToken, last]
  rfl

namespace Alike

variable {first second : Forest} {left right node other : Vertex}

/-- Descending from child to child in the same way leads from paired nodes to paired nodes. -/
theorem paired_token (alike : Alike first second left right) {pick : List Vertex → Option Vertex}
    {token : Vertex → Vertex}
    (token_eq : ∀ node, token node = ((pick node.children).map token).getD node)
    (picked : ∀ nodes, ∀ node ∈ pick nodes, node ∈ nodes)
    (related : ∀ {nodes others}, List.Forall₂ (Paired left right) nodes others →
      Option.Rel (Paired left right) (pick nodes) (pick others))
    {node other : Vertex} (paired : Paired left right node other) :
    Paired left right (token node) (token other) := by
  induction size : node.size using Nat.strongRecOn generalizing node other with
  | ind _ smaller =>
      subst size
      have found := related (alike.forall₂_children paired)
      have held := picked node.children
      rw [token_eq node, token_eq other]
      generalize pick node.children = child, pick other.children = twin at found held
      cases found with
      | none => exact paired
      | some head => exact smaller _ (Node.size_lt_of_mem_children (held _ rfl)) head rfl

theorem paired_firstToken (alike : Alike first second left right)
    (paired : Paired left right node other) :
    Paired left right node.firstToken other.firstToken :=
  alike.paired_token Node.firstToken_eq (fun _ _ => List.mem_of_mem_head?) rel_head? paired

theorem paired_lastToken (alike : Alike first second left right)
    (paired : Paired left right node other) : Paired left right node.lastToken other.lastToken :=
  alike.paired_token Node.lastToken_eq (fun _ _ => List.mem_of_getLast?) rel_getLast? paired

/-! ## Lookups among the children -/

theorem rel_childByField? (alike : Alike first second left right)
    (paired : Paired left right node other) (slotted : node.kind.isUnslotted = false)
    (name : String) :
    Option.Rel (Paired left right) (node.childByField? name) (other.childByField? name) := by
  refine rel_find? ((alike.forall₂_slots paired slotted).imp ?_)
  rintro child twin ⟨pairedChild, slot⟩
  exact ⟨pairedChild, by rw [slot]⟩

theorem isToken_eq (alike : Alike first second left right) (paired : Paired left right node other) :
    node.isToken = other.isToken := by
  rw [Node.isToken, Node.isToken, alike.kind paired]

theorem rel_findToken? (alike : Alike first second left right)
    (paired : Paired left right node other) (text : String) :
    Option.Rel (Paired left right) (node.findToken? text) (other.findToken? text) := by
  refine rel_find? ((alike.forall₂_children paired).imp ?_)
  intro child twin pairedChild
  exact ⟨pairedChild, by rw [alike.isToken_eq pairedChild, alike.text pairedChild]⟩

theorem forall₂_namedChildren (alike : Alike first second left right)
    (paired : Paired left right node other) :
    List.Forall₂ (Paired left right) node.namedChildren other.namedChildren := by
  refine forall₂_filter (alike.forall₂_children paired) ?_
  intro child twin pairedChild
  rw [alike.isToken_eq pairedChild]

theorem forall₂_childrenOfKind (alike : Alike first second left right)
    (paired : Paired left right node other) (kinds : List Kind) :
    List.Forall₂ (Paired left right) (node.childrenOfKind kinds) (other.childrenOfKind kinds) := by
  refine forall₂_filter (alike.forall₂_children paired) ?_
  intro child twin pairedChild
  rw [alike.kind pairedChild]

theorem hasChildOfKind_eq (alike : Alike first second left right)
    (paired : Paired left right node other) (kind : Kind) :
    node.hasChildOfKind kind = other.hasChildOfKind kind := by
  have kinds : node.children.map Node.kind = other.children.map Node.kind :=
    map_eq_of_forall₂ (alike.forall₂_children paired) fun _ _ => alike.kind
  have any : ∀ node : Vertex, node.hasChildOfKind kind =
      (node.children.map Node.kind).any fun found => found == kind := by
    intro node
    rw [List.any_map]
    rfl
  rw [any, any, kinds]

theorem modifiers_eq (alike : Alike first second left right)
    (paired : Paired left right node other) : node.modifiers = other.modifiers := by
  have keywords : ∀ child twin, Paired left right child twin →
      child.modifierKeywords = twin.modifierKeywords := by
    intro child twin pairedChild
    have leaves : child.leaves.map Node.text = twin.leaves.map Node.text :=
      map_eq_of_forall₂ (alike.forall₂_leaves pairedChild) fun _ _ => alike.text
    have texts : child.leaves.filterMap Node.text = twin.leaves.filterMap Node.text := by
      have found := congrArg (List.filterMap id) leaves
      rwa [List.filterMap_map, List.filterMap_map] at found
    rw [Node.modifierKeywords, Node.modifierKeywords, alike.text pairedChild, texts]
  have listed := map_eq_of_forall₂ (alike.forall₂_childrenOfKind paired [.modifier]) keywords
  rw [Node.modifiers, Node.modifiers, List.flatMap_def, List.flatMap_def, listed]

/-! ## Going up -/

theorem rel_parent? (alike : Alike first second left right)
    (paired : Paired left right node other) :
    Option.Rel (Paired left right) (first.parent? node) (second.parent? other) := by
  cases paired with
  | roots =>
      rw [alike.leftTop, alike.rightTop]
      exact .none
  | children index above here there =>
      obtain ⟨member, otherMember⟩ := above.mem_preorder
      rw [alike.leftTree.parent?_eq member (List.mem_of_getElem? here),
        alike.rightTree.parent?_eq otherMember (List.mem_of_getElem? there)]
      exact .some above

/-- The nodes before and after paired nodes are paired. -/
theorem exists_siblings (alike : Alike first second left right) {holder otherHolder : Vertex}
    {index : Nat} (above : Paired left right holder otherHolder)
    (here : holder.children[index]? = some node)
    (there : otherHolder.children[index]? = some other) :
    ∃ sides otherSides, splitAtMark node.mark holder.children = some sides ∧
      splitAtMark other.mark otherHolder.children = some otherSides ∧
      List.Forall₂ (Paired left right) sides.1 otherSides.1 ∧
      List.Forall₂ (Paired left right) sides.2 otherSides.2 := by
  obtain ⟨member, otherMember⟩ := above.mem_preorder
  have distinct := (alike.leftTree.distinct.of_mem member).nodup_children
  have otherDistinct := (alike.rightTree.distinct.of_mem otherMember).nodup_children
  have pairs := alike.forall₂_children above
  exact ⟨_, _, splitAtMark_eq distinct here, splitAtMark_eq otherDistinct there,
    List.forall₂_take index pairs, List.forall₂_drop (index + 1) pairs⟩

theorem concur_previousSibling (alike : Alike first second left right)
    (paired : Paired left right node other) :
    Concur (Option.Rel (Paired left right)) (first.previousSibling node)
      (second.previousSibling other) := by
  rw [Forest.previousSibling, Forest.previousSibling]
  cases paired with
  | roots =>
      rw [alike.leftTop, alike.rightTop]
      exact .ok .none
  | children index above here there =>
      obtain ⟨member, otherMember⟩ := above.mem_preorder
      obtain ⟨sides, otherSides, split, otherSplit, before, -⟩ :=
        alike.exists_siblings above here there
      rw [alike.leftTree.parent?_eq member (List.mem_of_getElem? here),
        alike.rightTree.parent?_eq otherMember (List.mem_of_getElem? there)]
      simp only [split, otherSplit]
      exact .ok (rel_getLast? before)

/-- Climbing far enough from paired nodes leads to paired leaves. -/
theorem concur_leafAfter (alike : Alike first second left right)
    (paired : Paired left right node other) {steps otherSteps : Nat}
    (enough : first.nodes.size ≤ node.mark + steps)
    (otherEnough : second.nodes.size ≤ other.mark + otherSteps) :
    Concur (Option.Rel (Paired left right)) (Forest.leafAfter node (first.climb steps node))
      (Forest.leafAfter other (second.climb otherSteps other)) := by
  -- the induction is on the way from the node up to the root
  induction paired generalizing steps otherSteps with
  | roots =>
      have top : ∀ (forest : Forest) (root : Vertex) (steps : Nat), forest.parent? root = none →
          forest.climb steps root = [] := by
        intro forest root steps top
        cases steps with
        | zero => rfl
        | succ steps => rw [Forest.climb, top]
      rw [top first left steps alike.leftTop, top second right otherSteps alike.rightTop]
      exact .ok .none
  | @children holder otherHolder node other index above here there induction =>
      obtain ⟨member, otherMember⟩ := above.mem_preorder
      have held := List.mem_of_getElem? here
      have otherHeld := List.mem_of_getElem? there
      have coherent := alike.leftTree.built.coherent
      have otherCoherent := alike.rightTree.built.coherent
      have older := coherent.older _ (alike.leftTree.mem_nodes member) _ held
      have otherOlder := otherCoherent.older _ (alike.rightTree.mem_nodes otherMember) _ otherHeld
      have bound := coherent.mark_lt (alike.leftTree.mem_nodes member)
      have otherBound := otherCoherent.mark_lt (alike.rightTree.mem_nodes otherMember)
      obtain ⟨sides, otherSides, split, otherSplit, -, after⟩ :=
        alike.exists_siblings above here there
      obtain ⟨steps, rfl⟩ : ∃ fewer, steps = fewer + 1 := ⟨steps - 1, by omega⟩
      obtain ⟨otherSteps, rfl⟩ : ∃ fewer, otherSteps = fewer + 1 := ⟨otherSteps - 1, by omega⟩
      rw [Forest.climb, Forest.climb, alike.leftTree.parent?_eq member held,
        alike.rightTree.parent?_eq otherMember otherHeld]
      simp only [Forest.leafAfter, split, otherSplit]
      obtain ⟨before, siblings⟩ := sides
      obtain ⟨otherBefore, otherSiblings⟩ := otherSides
      cases after with
      | nil => exact induction (by omega) (by omega)
      | cons head _ => exact .ok (.some (alike.paired_firstToken head))

theorem concur_nextToken (alike : Alike first second left right)
    (paired : Paired left right node other) :
    Concur (Option.Rel (Paired left right)) (first.nextToken node) (second.nextToken other) := by
  apply alike.concur_leafAfter paired
  · omega
  · omega

/-! ## Classes of nodes -/

theorem rel_enclosingDeclaration? (alike : Alike first second left right)
    (paired : Paired left right node other) :
    Option.Rel (Paired left right) (first.enclosingDeclaration? node)
      (second.enclosingDeclaration? other) := by
  have parents := alike.rel_parent? paired
  rw [Forest.enclosingDeclaration?, Forest.enclosingDeclaration?]
  generalize first.parent? node = parent, second.parent? other = otherParent at parents
  cases parents with
  | none => exact .none
  | @some parent otherParent above =>
      have kind := alike.kind above
      by_cases isList : parent.kind = .declarationList
      · simp only [if_pos isList, if_pos (kind ▸ isList)]
        exact alike.rel_parent? above
      · simp only [if_neg isList, if_neg (kind ▸ isList)]
        exact .some above

theorem isImplicitAccessor_eq (alike : Alike first second left right)
    (paired : Paired left right node other) :
    first.isImplicitAccessor node = second.isImplicitAccessor other := by
  have owners : Option.Rel (Paired left right) ((first.parent? node).bind first.parent?)
      ((second.parent? other).bind second.parent?) := by
    have parents := alike.rel_parent? paired
    generalize first.parent? node = parent, second.parent? other = otherParent at parents
    cases parents with
    | none => exact .none
    | some above => exact alike.rel_parent? above
  rw [Forest.isImplicitAccessor, Forest.isImplicitAccessor]
  generalize (first.parent? node).bind first.parent? = property,
    (second.parent? other).bind second.parent? = otherProperty at owners
  cases owners with
  | none => rfl
  | @some property otherProperty pairedProperty =>
      have containers := alike.rel_enclosingDeclaration? pairedProperty
      simp only [Node.hasModifier, alike.kind pairedProperty, alike.modifiers_eq pairedProperty]
      generalize first.enclosingDeclaration? property = container,
        second.enclosingDeclaration? otherProperty = otherContainer at containers
      cases containers with
      | none => rfl
      | some pairedContainer => simp only [alike.kind pairedContainer]

theorem isFunctionLike_eq (alike : Alike first second left right)
    (paired : Paired left right node other) :
    first.isFunctionLike node = second.isFunctionLike other := by
  have holds := alike.hasChildOfKind_eq paired
  rw [Forest.isFunctionLike, Forest.isFunctionLike, alike.kind paired, holds, holds,
    alike.isImplicitAccessor_eq paired]

theorem closesFunction_eq (alike : Alike first second left right)
    (paired : Paired left right node other) :
    first.closesFunction node = second.closesFunction other := by
  have blocks := alike.rel_parent? paired
  rw [Forest.closesFunction, Forest.closesFunction]
  generalize first.parent? node = block, second.parent? other = otherBlock at blocks
  cases blocks with
  | none => rfl
  | @some block otherBlock pairedBlock =>
      have functions := alike.rel_parent? pairedBlock
      simp only [alike.kind pairedBlock]
      generalize first.parent? block = function, second.parent? otherBlock = otherFunction
        at functions
      cases functions with
      | none => rfl
      | some pairedFunction => simp only [alike.isFunctionLike_eq pairedFunction]

theorem concur_isReturnButNotLast (alike : Alike first second left right)
    (paired : Paired left right node other) :
    Concur Eq (first.isReturnButNotLast node) (second.isReturnButNotLast other) := by
  have kind := alike.kind paired
  have last : Concur Eq (first.isLastStatement node) (second.isLastStatement other) := by
    apply (alike.concur_nextToken (alike.paired_lastToken paired)).bind
    intro leaf otherLeaf leaves
    cases leaves with
    | none => exact .ok rfl
    | some pairedLeaf => exact .ok (alike.closesFunction_eq pairedLeaf)
  rw [Forest.isReturnButNotLast, Forest.isReturnButNotLast]
  by_cases isReturn : node.kind = .returnStatement
  · rw [if_pos isReturn, if_pos (kind ▸ isReturn)]
    apply last.bind
    rintro last _ rfl
    exact .ok rfl
  · rw [if_neg isReturn, if_neg (kind ▸ isReturn)]
    exact .ok rfl

end Alike

end CodeMetrics
