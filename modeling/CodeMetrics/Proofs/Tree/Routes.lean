import CodeMetrics.Proofs.Tree.Lineage

/-!
# Routes in a tree

A route leads to a node of a tree by saying, from the root on, which child to go to. Two nodes have
two routes even if they are equal, the length of a route is the depth of its node, and pre-order is
the order in which routes would stand in a dictionary.
-/

namespace CodeMetrics

namespace Node

variable {ι : Type}

/-- The node that a route leads to: it names a child of the root, then a child of that one, and so
on. -/
def nodeAt? (root : Node ι) : List Nat → Option (Node ι)
  | [] => some root
  | index :: route => root.children[index]?.bind fun child => child.nodeAt? route

/-- The route comes before the other in pre-order: it ends on the way of the other, or turns to an
earlier child where the two part. -/
def ComesBefore (route other : List Nat) : Prop := List.Lex (· < ·) route other

mutual

/-- The nodes of a tree in pre-order, each with its route. -/
def routes : Node ι → List (List Nat × Node ι)
  | node@(.mk _ _ children) => ([], node) :: routesFrom 0 children

/-- The nodes under children that are numbered from the given index on. -/
def routesFrom (index : Nat) : List (Node ι) → List (List Nat × Node ι)
  | [] => []
  | node :: nodes =>
      node.routes.map (Prod.map (index :: ·) id) ++ routesFrom (index + 1) nodes

end

mutual

theorem map_snd_routes : (node : Node ι) → node.routes.map Prod.snd = node.preorder
  | .mk mark attributes children => by
      rw [routes, preorder, List.map_cons, map_snd_routesFrom 0 children]

theorem map_snd_routesFrom (index : Nat) : (nodes : List (Node ι)) →
    (routesFrom index nodes).map Prod.snd = preorderAll nodes
  | [] => rfl
  | node :: nodes => by
      rw [routesFrom, preorderAll, List.map_append, List.map_map, ← map_snd_routes node,
        map_snd_routesFrom (index + 1) nodes]
      rfl

end

mutual

/-- A node is listed with a route exactly if the route leads to it. -/
theorem mem_routes {route : List Nat} {inner : Node ι} : (node : Node ι) →
    ((route, inner) ∈ node.routes ↔ node.nodeAt? route = some inner)
  | .mk mark attributes nodes => by
      rw [routes, List.mem_cons, mem_routesFrom 0 nodes]
      cases route with
      | nil => simp [nodeAt?, eq_comm]
      | cons turn below =>
          rw [nodeAt?, children_mk, Option.bind_eq_some_iff]
          constructor
          · rintro (root | ⟨offset, child, rest, found, inside, split⟩)
            · simp at root
            · obtain ⟨rfl, rfl⟩ := List.cons.inj split
              exact ⟨child, by rwa [Nat.zero_add], inside⟩
          · rintro ⟨child, found, inside⟩
            exact .inr ⟨turn, child, below, found, inside, by rw [Nat.zero_add]⟩

theorem mem_routesFrom {route : List Nat} {inner : Node ι} (index : Nat) :
    (nodes : List (Node ι)) → ((route, inner) ∈ routesFrom index nodes ↔
      ∃ offset child below, nodes[offset]? = some child ∧ child.nodeAt? below = some inner ∧
        route = (index + offset) :: below)
  | [] => by simp [routesFrom]
  | node :: nodes => by
      rw [routesFrom, List.mem_append, List.mem_map, mem_routesFrom (index + 1) nodes]
      constructor
      · rintro (⟨⟨below, found⟩, listed, same⟩ | ⟨offset, child, below, found, inside, rfl⟩)
        · obtain ⟨rfl, rfl⟩ := Prod.mk.inj same
          exact ⟨0, node, below, rfl, (mem_routes node).mp listed, rfl⟩
        · exact ⟨offset + 1, child, below, found, inside, by rw [Nat.add_assoc, Nat.add_comm 1]⟩
      · rintro ⟨_ | offset, child, below, found, inside, rfl⟩
        · obtain rfl := Option.some.inj found
          exact .inl ⟨(below, inner), (mem_routes node).mpr inside, rfl⟩
        · exact .inr ⟨offset, child, below, found, inside, by
            rw [Nat.add_assoc, Nat.add_comm 1]⟩

end

mutual

/-- Routes are listed in pre-order, and none twice. -/
theorem pairwise_routes : (node : Node ι) →
    node.routes.Pairwise fun entry later => ComesBefore entry.1 later.1
  | .mk mark attributes nodes => by
      rw [routes, List.pairwise_cons]
      refine ⟨?_, pairwise_routesFrom 0 nodes⟩
      rintro ⟨route, inner⟩ listed
      obtain ⟨offset, child, below, -, -, rfl⟩ := (mem_routesFrom 0 nodes).mp listed
      exact .nil

theorem pairwise_routesFrom (index : Nat) : (nodes : List (Node ι)) →
    (routesFrom index nodes).Pairwise fun entry later => ComesBefore entry.1 later.1
  | [] => .nil
  | node :: nodes => by
      rw [routesFrom, List.pairwise_append, List.pairwise_map]
      refine ⟨(pairwise_routes node).imp .cons, pairwise_routesFrom (index + 1) nodes, ?_⟩
      rintro _ listed ⟨route, inner⟩ later
      obtain ⟨entry, -, rfl⟩ := List.mem_map.mp listed
      obtain ⟨offset, child, below, -, -, rfl⟩ := (mem_routesFrom (index + 1) nodes).mp later
      exact .rel (by omega)

end

end Node

end CodeMetrics
