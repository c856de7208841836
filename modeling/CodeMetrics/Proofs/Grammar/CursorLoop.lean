import CodeMetrics.Grammar.Normal
import CodeMetrics.Proofs.Grammar.Pregrouping
import CodeMetrics.Proofs.Grammar.Traversal
import CodeMetrics.Proofs.Tree.Correspondence
import Mathlib.Logic.Function.Iterate

/-!
# The traversal as a loop

The traversal with a cursor, taken one move at a time: a state has the place of the cursor and the
open nodes, and a step opens a node or closes one. Nothing is known of the cursor but that its moves
succeed exactly when there is a node to move to. The loop takes two steps for each node, one to open
it or to turn back at it and one to close it. It never runs out of open nodes, closes every node
once, over the values of its children, and ends with the converted tree.
-/

namespace CodeMetrics

/-! ## Addresses -/

namespace ParseNode

/-- The node at an address: which child it is of its parent, which child that is, up to the root. -/
def nodeAt? (root : ParseNode) : List Nat → Option ParseNode
  | [] => some root
  | index :: address => (root.nodeAt? address).bind fun node => node.children[index]?

theorem nodeAt?_append (root : ParseNode) (below address : List Nat) :
    root.nodeAt? (below ++ address) =
      (root.nodeAt? address).bind fun node => node.nodeAt? below := by
  induction below with
  | nil => simp [nodeAt?]
  | cons index below induction =>
      rw [List.cons_append, nodeAt?, induction, Option.bind_assoc]
      rfl

variable {α : Type} (build : Build α)

/-- A node in the given slot with the values of all its children. -/
def closedIn (field : Option String) (node : ParseNode) : OpenNode α :=
  ⟨node.construct, field, foldAll build node.children⟩

mutual

/-- The nodes of a tree as they are closed, children first, each with the values of its children. -/
def closings (field : Option String) (address : List Nat) :
    ParseNode → List (List Nat × OpenNode α)
  | node@(.mk _ children) =>
      closingsFrom address 0 children ++ [(address, node.closedIn build field)]

/-- The closings of children, numbered from the given index on. -/
def closingsFrom (address : List Nat) (index : Nat) :
    List ParseNode → List (List Nat × OpenNode α)
  | [] => []
  | node :: nodes =>
      closings node.construct.field (index :: address) node ++
        closingsFrom address (index + 1) nodes

end

theorem closings_eq (field : Option String) (address : List Nat) (node : ParseNode) :
    node.closings build field address =
      closingsFrom build address 0 node.children ++ [(address, node.closedIn build field)] := by
  cases node
  rw [closings, children]

theorem two_mul_size (node : ParseNode) :
    2 * node.size = 1 + 2 * sizeAll node.children + 1 := by
  rw [size_eq]
  omega

theorem close_closedIn (field : Option String) (node : ParseNode) :
    (node.closedIn build field).close build = node.fold build field := by
  rw [closedIn, OpenNode.close, fold_eq]

mutual

/-- Exactly the nodes of a tree are closed, each in its slot. -/
theorem mem_closings : (node : ParseNode) → (field : Option String) → (address : List Nat) →
    (entry : List Nat × OpenNode α) →
    (entry ∈ node.closings build field address ↔
      ∃ (below : List Nat) (inner : ParseNode), node.nodeAt? below = some inner ∧
        entry = (below ++ address, inner.closedIn build
          (if below = [] then field else inner.construct.field)))
  | .mk construct nodes, field, address, entry => by
      rw [closings, List.mem_append, mem_closingsFrom nodes address 0 entry, List.mem_singleton]
      constructor
      · rintro (⟨offset, child, below, inner, found, inside, rfl⟩ | rfl)
        · refine ⟨below ++ [offset], inner, ?_, by simp⟩
          rw [nodeAt?_append]
          simpa [nodeAt?, children, found] using inside
        · exact ⟨[], .mk construct nodes, rfl, rfl⟩
      · rintro ⟨below, inner, inside, rfl⟩
        rcases List.eq_nil_or_concat below with rfl | ⟨above, offset, rfl⟩
        · obtain rfl := Option.some.inj inside
          exact .inr rfl
        · rw [List.concat_eq_append, nodeAt?_append] at inside
          obtain ⟨child, found, inside⟩ := Option.bind_eq_some_iff.mp inside
          exact .inl ⟨offset, child, above, inner, found, inside, by simp⟩

theorem mem_closingsFrom : (nodes : List ParseNode) → (address : List Nat) → (index : Nat) →
    (entry : List Nat × OpenNode α) →
    (entry ∈ closingsFrom build address index nodes ↔
      ∃ (offset : Nat) (child : ParseNode) (below : List Nat) (inner : ParseNode),
        nodes[offset]? = some child ∧ child.nodeAt? below = some inner ∧
        entry = (below ++ (index + offset) :: address, inner.closedIn build inner.construct.field))
  | [], address, index, entry => by simp [closingsFrom]
  | node :: nodes, address, index, entry => by
      have slot (below : List Nat) (inner : ParseNode) (inside : node.nodeAt? below = some inner) :
          (if below = [] then node.construct.field else inner.construct.field) =
            inner.construct.field := by
        split
        · subst below
          exact congrArg (fun node => node.construct.field) (Option.some.inj inside)
        · rfl
      rw [closingsFrom, List.mem_append, mem_closings node, mem_closingsFrom nodes]
      constructor
      · rintro (⟨below, inner, inside, rfl⟩ | ⟨offset, child, below, inner, found, inside, rfl⟩)
        · exact ⟨0, node, below, inner, rfl, inside, by rw [slot below inner inside]; rfl⟩
        · exact ⟨offset + 1, child, below, inner, found, inside, by
            rw [Nat.add_assoc, Nat.add_comm 1]⟩
      · rintro ⟨_ | offset, child, below, inner, found, inside, rfl⟩
        · obtain rfl := Option.some.inj found
          exact .inl ⟨below, inner, inside, by rw [slot below inner inside]; rfl⟩
        · exact .inr ⟨offset, child, below, inner, found, inside, by
            rw [Nat.add_assoc, Nat.add_comm 1]⟩

end

mutual

/-- No address is closed twice. -/
theorem pairwise_closings : (node : ParseNode) → (field : Option String) → (address : List Nat) →
    (node.closings build field address).Pairwise fun entry other => entry.1 ≠ other.1
  | .mk construct nodes, field, address => by
      rw [closings, List.pairwise_append]
      refine ⟨pairwise_closingsFrom nodes address 0, List.pairwise_singleton _ _, ?_⟩
      intro entry closed last isLast
      obtain ⟨offset, child, below, inner, -, -, rfl⟩ :=
        (mem_closingsFrom build nodes address 0 entry).mp closed
      obtain rfl := List.mem_singleton.mp isLast
      intro same
      have lengths := congrArg List.length same
      simp at lengths
      omega

theorem pairwise_closingsFrom : (nodes : List ParseNode) → (address : List Nat) → (index : Nat) →
    (closingsFrom build address index nodes).Pairwise fun entry other => entry.1 ≠ other.1
  | [], address, index => .nil
  | node :: nodes, address, index => by
      rw [closingsFrom, List.pairwise_append]
      refine ⟨pairwise_closings node _ _, pairwise_closingsFrom nodes address (index + 1), ?_⟩
      intro entry closed other later
      obtain ⟨below, inner, -, rfl⟩ := (mem_closings build node _ _ entry).mp closed
      obtain ⟨offset, child, otherBelow, otherInner, -, -, rfl⟩ :=
        (mem_closingsFrom build nodes address (index + 1) other).mp later
      intro same
      have indices := (List.cons.inj (List.append_inj_right' same rfl)).1
      omega

end

end ParseNode

/-! ## The loop -/

/-- A cursor: where it starts, what it shows, and its moves. A move that fails gives no cursor. -/
structure Walker (σ : Type) where
  start : σ
  construct : σ → Construct
  firstChild? : σ → Option σ
  nextSibling? : σ → Option σ
  parent? : σ → Option σ

/-- The cursor moves on the tree, where `Stands` tells its address. It stands on one node at a time,
and each move succeeds exactly if there is such a node, and then leads to it. -/
structure Walker.Follows {σ : Type} (walker : Walker σ) (root : ParseNode)
    (Stands : σ → List Nat → Prop) : Prop where
  start : Stands walker.start []
  onePlace {cursor : σ} {address other : List Nat} :
    Stands cursor address → Stands cursor other → address = other
  shows {cursor : σ} {address : List Nat} : Stands cursor address →
    (root.nodeAt? address).map ParseNode.construct = some (walker.construct cursor)
  firstChild {cursor : σ} {address : List Nat} : Stands cursor address →
    Option.Rel (fun moved _ => Stands moved (0 :: address)) (walker.firstChild? cursor)
      (root.nodeAt? (0 :: address))
  nextSibling {cursor : σ} {index : Nat} {address : List Nat} : Stands cursor (index :: address) →
    Option.Rel (fun moved _ => Stands moved ((index + 1) :: address)) (walker.nextSibling? cursor)
      (root.nodeAt? ((index + 1) :: address))
  parent {cursor : σ} {index : Nat} {address : List Nat} : Stands cursor (index :: address) →
    Option.Rel (fun moved _ => Stands moved address) (walker.parent? cursor)
      (root.nodeAt? address)
  alone {cursor : σ} : Stands cursor [] →
    walker.nextSibling? cursor = none ∧ walker.parent? cursor = none

/-- Where the loop is: at a node just opened, at a node to be closed, at the end with a value, or
without a node to close. The open nodes are listed last one first. -/
inductive LoopState (σ α : Type) where
  | enter (cursor : σ) (frames : List (OpenNode α))
  | leave (cursor : σ) (frames : List (OpenNode α))
  | done (value : α)
  | stuck

/-- The cursor and the node, if the next step closes one. -/
def LoopState.closing? {σ α : Type} : LoopState σ α → Option (σ × OpenNode α)
  | .leave cursor (last :: _) => some (cursor, last)
  | _ => none

namespace OpenNode

variable {α : Type}

/-- The open node with the values of more children. -/
def pushAll (opened : OpenNode α) (values : List α) : OpenNode α :=
  { opened with values := opened.values ++ values }

theorem pushAll_nil (opened : OpenNode α) : opened.pushAll [] = opened := by
  rw [pushAll, List.append_nil]

theorem pushAll_push (opened : OpenNode α) (value : α) (values : List α) :
    (opened.push value).pushAll values = opened.pushAll (value :: values) := by
  simp only [pushAll, push, List.append_assoc, List.singleton_append]

end OpenNode

namespace Walker

variable {σ α : Type} (walker : Walker σ) (build : Build α)

/-- The node under a cursor, just opened in its slot. -/
def opened (cursor : σ) : OpenNode α :=
  ⟨walker.construct cursor, (walker.construct cursor).field, []⟩

/-- One step of the loop. -/
def step : LoopState σ α → LoopState σ α
  | .enter cursor frames =>
      match walker.firstChild? cursor with
      | some child => .enter child (walker.opened child :: frames)
      | none => .leave cursor frames
  | .leave _ [] => .stuck
  | .leave _ [last] => .done (last.close build)
  | .leave cursor (last :: parent :: frames) =>
      let grown := parent.push (last.close build) :: frames
      match walker.nextSibling? cursor with
      | some sibling => .enter sibling (walker.opened sibling :: grown)
      | none => .leave ((walker.parent? cursor).getD cursor) grown
  | .done value => .done value
  | .stuck => .stuck

/-- The loop at its start, with the root opened in no slot. -/
def opening : LoopState σ α :=
  .enter walker.start [⟨walker.construct walker.start, none, []⟩]

/-- The state after so many steps. -/
def run (count : Nat) : LoopState σ α := (walker.step build)^[count] walker.opening

/-- What is closed in so many steps. -/
def closed (state : LoopState σ α) (count : Nat) : List (σ × OpenNode α) :=
  (List.range count).filterMap fun index => ((walker.step build)^[index] state).closing?

theorem closed_add (state : LoopState σ α) (count more : Nat) :
    walker.closed build state (count + more) =
      walker.closed build state count ++
        walker.closed build ((walker.step build)^[count] state) more := by
  have later (index : Nat) : (walker.step build)^[count + index] state =
      (walker.step build)^[index] ((walker.step build)^[count] state) := by
    rw [Nat.add_comm, Function.iterate_add_apply]
  simp only [closed, List.range_add, List.filterMap_append, List.filterMap_map, Function.comp_def,
    later]

theorem closed_one (state : LoopState σ α) :
    walker.closed build state 1 = state.closing?.toList := by
  rw [closed, List.range_one, List.filterMap_cons, List.filterMap_nil, Function.iterate_zero_apply]
  cases state.closing? <;> rfl

/-- What is closed is the node at the address, with the given values. -/
def ClosedAt (Stands : σ → List Nat → Prop) (closing : σ × OpenNode α)
    (entry : List Nat × OpenNode α) : Prop :=
  Stands closing.1 entry.1 ∧ closing.2 = entry.2

/-- In so many steps the loop comes to close the node at the address, with the given open nodes, and
closes the given nodes on the way. -/
def Leads (Stands : σ → List Nat → Prop) (state : LoopState σ α) (count : Nat)
    (address : List Nat) (frames : List (OpenNode α)) (entries : List (List Nat × OpenNode α)) :
    Prop :=
  ∃ cursor, Stands cursor address ∧ (walker.step build)^[count] state = .leave cursor frames ∧
    List.Forall₂ (ClosedAt Stands) (walker.closed build state count) entries

section

variable {walker build} {Stands : σ → List Nat → Prop} {state : LoopState σ α} {cursor : σ}
  {last : OpenNode α} {count steps : Nat} {address place : List Nat}
  {frames opened : List (OpenNode α)} {entries earlier : List (List Nat × OpenNode α)}

theorem closed_leave (stands : Stands cursor place) :
    List.Forall₂ (ClosedAt Stands) (walker.closed build (.leave cursor (last :: opened)) 1)
      [(place, last)] := by
  rw [closed_one]
  exact .cons ⟨stands, rfl⟩ .nil

theorem Leads.after
    (logged : List.Forall₂ (ClosedAt Stands) (walker.closed build state steps) earlier)
    (leads : walker.Leads build Stands ((walker.step build)^[steps] state) count address frames
      entries) :
    walker.Leads build Stands state (steps + count) address frames (earlier ++ entries) := by
  obtain ⟨last, stands, ends, later⟩ := leads
  refine ⟨last, stands, ?_, ?_⟩
  · rw [Nat.add_comm, Function.iterate_add_apply, ends]
  · rw [closed_add]
    exact List.rel_append logged later

theorem Leads.after_enter
    (leads : walker.Leads build Stands (walker.step build (.enter cursor opened)) count address
      frames entries) :
    walker.Leads build Stands (.enter cursor opened) (1 + count) address frames entries := by
  have logged : List.Forall₂ (ClosedAt Stands)
      (walker.closed build (.enter cursor opened) 1) [] := by
    rw [closed_one]
    exact .nil
  exact leads.after logged

theorem Leads.after_leave (stands : Stands cursor place)
    (leads : walker.Leads build Stands (walker.step build (.leave cursor (last :: opened))) count
      address frames entries) :
    walker.Leads build Stands (.leave cursor (last :: opened)) (1 + count) address frames
      ((place, last) :: entries) :=
  leads.after (closed_leave stands)

end

/-- The loop is about to go on with the children, numbered from the index on, of an open node. -/
def Ready (Stands : σ → List Nat → Prop) (address : List Nat) (index : Nat) (parent : OpenNode α)
    (frames : List (OpenNode α)) : List ParseNode → LoopState σ α → Prop
  | [], state => ∃ cursor, Stands cursor address ∧ state = .leave cursor (parent :: frames)
  | child :: _, state => ∃ cursor, Stands cursor (index :: address) ∧
      state = .enter cursor (⟨child.construct, child.construct.field, []⟩ :: parent :: frames)

namespace Follows

variable {walker} {root : ParseNode} {Stands : σ → List Nat → Prop}
  (follows : walker.Follows root Stands)

include follows

theorem opened_eq {cursor : σ} {address : List Nat} {node : ParseNode}
    (stands : Stands cursor address) (found : root.nodeAt? address = some node) :
    walker.opened cursor = (⟨node.construct, node.construct.field, []⟩ : OpenNode α) := by
  have shown := follows.shows stands
  rw [found, Option.map_some, Option.some.injEq] at shown
  rw [opened, shown]

/-- On entering a node all its children are still to come. -/
theorem ready_enter {cursor : σ} {address : List Nat} {node : ParseNode}
    (stands : Stands cursor address) (found : root.nodeAt? address = some node)
    (parent : OpenNode α) (frames : List (OpenNode α)) :
    Ready Stands address 0 parent frames node.children
      (walker.step build (.enter cursor (parent :: frames))) := by
  have moves := follows.firstChild stands
  have below : root.nodeAt? (0 :: address) = node.children[0]? := by
    rw [ParseNode.nodeAt?, found, Option.bind_some]
  cases children : node.children with
  | nil =>
      rw [below, children] at moves
      have stays := eq_none_of_rel_none moves
      exact ⟨cursor, stands, by rw [step, stays]⟩
  | cons child siblings =>
      rw [children, List.getElem?_cons_zero] at below
      rw [below] at moves
      obtain ⟨first, moved, there⟩ := exists_of_rel_some moves
      refine ⟨first, there, ?_⟩
      simp only [step, moved, follows.opened_eq there below]

/-- On leaving a node its siblings are still to come. -/
theorem ready_leave {cursor : σ} {address : List Nat} {index : Nat} {siblings : List ParseNode}
    (stands : Stands cursor (index :: address))
    (next : root.nodeAt? ((index + 1) :: address) = siblings[0]?)
    (last parent : OpenNode α) (frames : List (OpenNode α)) :
    Ready Stands address (index + 1) (parent.push (last.close build)) frames siblings
      (walker.step build (.leave cursor (last :: parent :: frames))) := by
  have moves := follows.nextSibling stands
  cases siblings with
  | nil =>
      rw [next] at moves
      have stays := eq_none_of_rel_none moves
      obtain ⟨node, found, -⟩ := Option.map_eq_some_iff.mp (follows.shows stands)
      obtain ⟨holder, held, -⟩ := Option.bind_eq_some_iff.mp found
      have climbs := follows.parent stands
      rw [held] at climbs
      obtain ⟨above, climbed, there⟩ := exists_of_rel_some climbs
      refine ⟨above, there, ?_⟩
      simp only [step, stays, climbed, Option.getD_some]
  | cons sibling siblings =>
      rw [List.getElem?_cons_zero] at next
      rw [next] at moves
      obtain ⟨moved, steps, there⟩ := exists_of_rel_some moves
      refine ⟨moved, there, ?_⟩
      simp only [step, steps, follows.opened_eq there next]

mutual

/-- A node that was just opened comes to be closed with the values of its children. -/
theorem leads_node : (node : ParseNode) → (field : Option String) → {cursor : σ} →
    {address : List Nat} → (frames : List (OpenNode α)) → Stands cursor address →
      root.nodeAt? address = some node →
      walker.Leads build Stands (.enter cursor (⟨node.construct, field, []⟩ :: frames))
        (1 + 2 * ParseNode.sizeAll node.children) address (node.closedIn build field :: frames)
        (ParseNode.closingsFrom build address 0 node.children)
  | .mk construct nodes, field, cursor, address, frames, stands, found => by
      have ready := follows.ready_enter build stands found ⟨construct, field, []⟩ frames
      have below : ∀ offset, root.nodeAt? ((0 + offset) :: address) = nodes[offset]? := by
        intro offset
        rw [Nat.zero_add, ParseNode.nodeAt?, found, Option.bind_some, ParseNode.children]
      have leads := leads_nodes nodes 0 _ frames below ready
      exact leads.after_enter

/-- The children that are still to come are closed, and their values added to the open node. -/
theorem leads_nodes : (nodes : List ParseNode) → (index : Nat) → {address : List Nat} →
    {state : LoopState σ α} → (parent : OpenNode α) → (frames : List (OpenNode α)) →
      (∀ offset, root.nodeAt? ((index + offset) :: address) = nodes[offset]?) →
      Ready Stands address index parent frames nodes state →
      walker.Leads build Stands state (2 * ParseNode.sizeAll nodes) address
        (parent.pushAll (ParseNode.foldAll build nodes) :: frames)
        (ParseNode.closingsFrom build address index nodes)
  | [], index, address, state, parent, frames, found, ready => by
      obtain ⟨cursor, stands, rfl⟩ := ready
      refine ⟨cursor, stands, ?_, .nil⟩
      rw [ParseNode.foldAll, OpenNode.pushAll_nil]
      rfl
  | node :: nodes, index, address, state, parent, frames, found, ready => by
      obtain ⟨cursor, stands, rfl⟩ := ready
      obtain ⟨last, there, ends, logged⟩ :=
        leads_node node node.construct.field (parent :: frames) stands (found 0)
      have later : ∀ offset, root.nodeAt? ((index + 1 + offset) :: address) = nodes[offset]? := by
        intro offset
        rw [Nat.add_assoc, Nat.add_comm 1, found (offset + 1), List.getElem?_cons_succ]
      have ready := follows.ready_leave build there (later 0)
        (node.closedIn build node.construct.field) parent frames
      have closing := (leads_nodes nodes (index + 1) _ frames later ready).after_leave there
      rw [← ends] at closing
      have leads := closing.after logged
      have count : 1 + 2 * ParseNode.sizeAll node.children + (1 + 2 * ParseNode.sizeAll nodes) =
          2 * ParseNode.sizeAll (node :: nodes) := by
        rw [ParseNode.sizeAll, ParseNode.size_eq]
        omega
      rwa [count, ParseNode.close_closedIn, OpenNode.pushAll_push, List.append_cons,
        ← ParseNode.closings_eq] at leads

end

/-- The last node to be closed is the root, and all nodes of the tree have been closed then. -/
theorem leads_root :
    walker.Leads build Stands walker.opening (1 + 2 * ParseNode.sizeAll root.children) []
      [root.closedIn build none] (ParseNode.closingsFrom build [] 0 root.children) := by
  have shown := follows.shows follows.start
  rw [ParseNode.nodeAt?, Option.map_some, Option.some.injEq] at shown
  rw [opening, ← shown]
  exact follows.leads_node build root none [] follows.start rfl

end Follows

/-- A state that no step changes is the state from then on. -/
theorem run_of_fixed {count later : Nat}
    (fixed : walker.step build (walker.run build count) = walker.run build count)
    (le : count ≤ later) : walker.run build later = walker.run build count := by
  obtain ⟨more, rfl⟩ := Nat.exists_eq_add_of_le le
  rw [run, Nat.add_comm, Function.iterate_add_apply]
  exact Function.iterate_fixed fixed more

namespace Follows

variable {walker} {root : ParseNode} {Stands : σ → List Nat → Prop}
  (follows : walker.Follows root Stands)

include follows

/-- With two steps for each node the loop is at its end. -/
theorem run_done {count : Nat} (enough : 2 * root.size ≤ count) :
    walker.run build count = .done (root.fold build none) := by
  obtain ⟨cursor, -, ends, -⟩ := follows.leads_root build
  have finished : walker.run build (2 * root.size) = .done (root.fold build none) := by
    rw [ParseNode.two_mul_size, run, Function.iterate_succ_apply', ends, step,
      ParseNode.close_closedIn]
  rw [← finished]
  exact walker.run_of_fixed build (by rw [finished, step]) enough

/-- While nodes are left to be closed, each step changes the state. -/
theorem step_run_ne {count : Nat} (early : count < 2 * root.size) :
    walker.step build (walker.run build count) ≠ walker.run build count := by
  intro fixed
  obtain ⟨cursor, -, ends, -⟩ := follows.leads_root build
  rw [ParseNode.two_mul_size] at early
  have last := walker.run_of_fixed build fixed (Nat.le_of_lt_succ early)
  rw [run, ends] at last
  rw [← last, step] at fixed
  cases fixed

theorem run_eq_done_iff {count : Nat} {value : α} :
    walker.run build count = .done value ↔
      2 * root.size ≤ count ∧ value = root.fold build none := by
  constructor
  · intro done
    have enough : 2 * root.size ≤ count := by
      refine Nat.le_of_not_lt fun early => follows.step_run_ne build early ?_
      rw [done, step]
    exact ⟨enough, LoopState.done.inj (done.symm.trans (follows.run_done build enough))⟩
  · rintro ⟨enough, rfl⟩
    exact follows.run_done build enough

theorem run_ne_stuck (count : Nat) : walker.run build count ≠ .stuck := by
  intro stuck
  rcases Nat.lt_or_ge count (2 * root.size) with early | enough
  · refine follows.step_run_ne build early ?_
    rw [stuck, step]
  · cases stuck.symm.trans (follows.run_done build enough)

/-- The nodes of the tree are closed in order. -/
theorem closed_run :
    List.Forall₂ (ClosedAt Stands) (walker.closed build walker.opening (2 * root.size))
      (root.closings build none []) := by
  obtain ⟨cursor, stands, ends, logged⟩ := follows.leads_root build
  rw [ParseNode.closings_eq, ParseNode.two_mul_size, closed_add, ends]
  exact List.rel_append logged (closed_leave stands)

theorem lt_of_closing {count : Nat} {closing : σ × OpenNode α}
    (closes : (walker.run build count).closing? = some closing) : count < 2 * root.size := by
  refine Nat.lt_of_not_le fun enough => ?_
  rw [follows.run_done build enough] at closes
  cases closes

theorem mem_closed_iff {closing : σ × OpenNode α} :
    closing ∈ walker.closed build walker.opening (2 * root.size) ↔
      ∃ count, (walker.run build count).closing? = some closing := by
  rw [closed, List.mem_filterMap]
  constructor
  · rintro ⟨count, -, closes⟩
    exact ⟨count, closes⟩
  · rintro ⟨count, closes⟩
    exact ⟨count, List.mem_range.mpr (follows.lt_of_closing build closes), closes⟩

/-- Each node of the tree is closed in its slot. -/
theorem exists_closing {address : List Nat} {node : ParseNode}
    (found : root.nodeAt? address = some node) :
    ∃ count cursor, Stands cursor address ∧
      (walker.run build count).closing? = some (cursor,
        node.closedIn build (if address = [] then none else node.construct.field)) := by
  have entry := (root.mem_closings build none [] _).mpr ⟨address, node, found, rfl⟩
  obtain ⟨⟨cursor, frame⟩, listed, stands, rfl⟩ :=
    exists_linked_of_mem (follows.closed_run build) _ entry
  obtain ⟨count, closes⟩ := (follows.mem_closed_iff build).mp listed
  rw [List.append_nil] at stands
  exact ⟨count, cursor, stands, closes⟩

/-- What is closed is a node of the tree. -/
theorem exists_node_of_closing {count : Nat} {cursor : σ} {frame : OpenNode α}
    (closes : (walker.run build count).closing? = some (cursor, frame)) :
    ∃ address node, Stands cursor address ∧ root.nodeAt? address = some node ∧
      frame = node.closedIn build (if address = [] then none else node.construct.field) := by
  have backward : List.Forall₂ (flip (ClosedAt Stands)) _ _ :=
    List.Forall₂.flip (follows.closed_run build)
  obtain ⟨entry, listed, stands, isFrame⟩ :=
    exists_linked_of_mem backward _ ((follows.mem_closed_iff build).mpr ⟨count, closes⟩)
  obtain ⟨address, node, found, rfl⟩ := (root.mem_closings build none [] entry).mp listed
  rw [List.append_nil] at stands
  exact ⟨address, node, stands, found, isFrame⟩

/-- A node that is closed is not closed again later. -/
theorem not_lt_of_closing {count other : Nat} {closing twin : σ × OpenNode α}
    {address : List Nat} (closes : (walker.run build count).closing? = some closing)
    (closesToo : (walker.run build other).closing? = some twin)
    (stands : Stands closing.1 address) (standsToo : Stands twin.1 address) :
    ¬ count < other := by
  intro before
  have apart : (walker.closed build walker.opening (2 * root.size)).Pairwise fun closing twin =>
      ∀ address, Stands closing.1 address → ¬ Stands twin.1 address := by
    refine pairwise_of_forall₂ (follows.closed_run build) ?_ (root.pairwise_closings build none [])
    rintro closing twin entry other ⟨here, -⟩ ⟨there, -⟩ ne address stands standsToo
    exact ne ((follows.onePlace here stands).trans (follows.onePlace standsToo there))
  have inRange {count : Nat} (early : count < 2 * root.size) :
      count < (List.range (2 * root.size)).length := by
    rwa [List.length_range]
  rw [closed, List.pairwise_filterMap, List.pairwise_iff_getElem] at apart
  have ne := apart count other (inRange (follows.lt_of_closing build closes))
    (inRange (follows.lt_of_closing build closesToo)) before
  simp only [List.getElem_range] at ne
  exact ne closing closes twin closesToo address stands standsToo

/-- No node is closed twice. -/
theorem closing_unique {count other : Nat} {closing twin : σ × OpenNode α} {address : List Nat}
    (closes : (walker.run build count).closing? = some closing)
    (closesToo : (walker.run build other).closing? = some twin)
    (stands : Stands closing.1 address) (standsToo : Stands twin.1 address) : count = other := by
  apply Nat.le_antisymm
  · exact Nat.le_of_not_lt (follows.not_lt_of_closing build closesToo closes standsToo stands)
  · exact Nat.le_of_not_lt (follows.not_lt_of_closing build closes closesToo stands standsToo)

end Follows

end Walker

/-! ## The loop of the traversal -/

namespace Cursor

/-- The zipper as a cursor on a tree. -/
def walker (root : ParseNode) : Walker Cursor where
  start := .start root
  construct cursor := cursor.node.construct
  firstChild? := firstChild?
  nextSibling? := nextSibling?
  parent? cursor := cursor.above.head?.map fun level => ⟨level.1, cursor.above.tail⟩

theorem parent_eq (root : ParseNode) (cursor : Cursor) :
    ((walker root).parent? cursor).getD cursor = cursor.parent := by
  obtain ⟨node, _ | ⟨⟨parent, siblings⟩, above⟩⟩ := cursor <;> rfl

/-- The zipper has the way from the root to the node at the address. -/
inductive StandsAt (root : ParseNode) : Cursor → List Nat → Prop where
  | start : StandsAt root (.start root) []
  | child {parent node : ParseNode} {above : List (ParseNode × List ParseNode)}
      {before siblings : List ParseNode} {address : List Nat} :
      StandsAt root ⟨parent, above⟩ address → parent.children = before ++ node :: siblings →
        StandsAt root ⟨node, (parent, siblings) :: above⟩ (before.length :: address)

namespace StandsAt

variable {root : ParseNode} {cursor : Cursor} {address : List Nat}

theorem nodeAt?_eq (stands : StandsAt root cursor address) :
    root.nodeAt? address = some cursor.node := by
  induction stands with
  | start => rfl
  | child _ children found =>
      rw [ParseNode.nodeAt?, found, Option.bind_some, children]
      simp

theorem unique (stands : StandsAt root cursor address) {other : List Nat}
    (standsToo : StandsAt root cursor other) : address = other := by
  induction stands generalizing other with
  | start =>
      cases standsToo
      rfl
  | child _ children induction =>
      cases standsToo with
      | child standsToo childrenToo =>
          obtain rfl := induction standsToo
          have lengths := congrArg List.length (children.symm.trans childrenToo)
          simp only [List.length_append, List.length_cons] at lengths
          rw [Nat.add_right_cancel lengths]

end StandsAt

/-- The zipper moves on its tree. -/
theorem follows (root : ParseNode) : (walker root).Follows root (StandsAt root) where
  start := .start
  onePlace stands standsToo := stands.unique standsToo
  shows stands := by
    rw [stands.nodeAt?_eq]
    rfl
  firstChild {cursor address} stands := by
    have below : root.nodeAt? (0 :: address) = cursor.node.children[0]? := by
      rw [ParseNode.nodeAt?, stands.nodeAt?_eq, Option.bind_some]
    change Option.Rel _ cursor.firstChild? _
    rw [below, firstChild?]
    cases children : cursor.node.children with
    | nil => exact .none
    | cons child siblings =>
        have first : cursor.node.children = [] ++ child :: siblings := children
        exact .some (.child stands first)
  nextSibling {cursor index address} stands := by
    cases stands with
    | @child parent node above before siblings _ stands children =>
        have beside : root.nodeAt? ((before.length + 1) :: address) = siblings[0]? := by
          rw [ParseNode.nodeAt?, stands.nodeAt?_eq, Option.bind_some, children,
            List.getElem?_append_right (Nat.le_add_right _ 1), Nat.add_sub_cancel_left]
          rfl
        rw [beside]
        cases siblings with
        | nil => exact .none
        | cons sibling siblings =>
            have next : parent.children = (before ++ [node]) ++ sibling :: siblings := by
              rw [children, List.append_cons]
            have there := StandsAt.child stands next
            rw [List.length_append, List.length_singleton] at there
            exact .some there
  parent stands := by
    cases stands with
    | child stands _ =>
        rw [stands.nodeAt?_eq]
        exact .some stands
  alone stands := by
    cases stands
    exact ⟨rfl, rfl⟩

end Cursor

/-- The value of the traversal that goes on from a state of the loop. -/
def LoopState.outcome? {α : Type} (build : Build α) : LoopState Cursor α → Option α
  | .enter cursor (current :: ancestors) => some (traverse build true cursor current ancestors)
  | .leave cursor (current :: ancestors) => some (traverse build false cursor current ancestors)
  | .done value => some value
  | _ => none

/-- The traversal takes the steps of the loop. -/
theorem LoopState.outcome?_step {α : Type} (build : Build α) (root : ParseNode) {value : α}
    (state : LoopState Cursor α) (outcome : state.outcome? build = some value) :
    ((Cursor.walker root).step build state).outcome? build = some value := by
  cases state with
  | enter cursor frames =>
      cases frames with
      | nil => cases outcome
      | cons current ancestors =>
          have moves : (Cursor.walker root).firstChild? cursor = cursor.firstChild? := rfl
          rw [← outcome, outcome?, traverse.eq_def build true, if_pos rfl, Walker.step, moves]
          cases cursor.firstChild? <;> rfl
  | leave cursor frames =>
      cases frames with
      | nil => cases outcome
      | cons current ancestors =>
          rw [← outcome, outcome?, traverse.eq_def build false, if_neg Bool.false_ne_true]
          cases ancestors with
          | nil => rfl
          | cons parent above =>
              have moves : (Cursor.walker root).nextSibling? cursor = cursor.nextSibling? := rfl
              rw [Walker.step, moves, Cursor.parent_eq]
              cases cursor.nextSibling? <;> rfl
  | done value => exact outcome
  | stuck => cases outcome

/-- Wherever the loop of the zipper is, the traversal that goes on from there gives the result. -/
theorem Cursor.outcome?_run {α : Type} (build : Build α) (root : ParseNode) (count : Nat) :
    ((walker root).run build count).outcome? build = some (root.traversed build) := by
  induction count with
  | zero => rfl
  | succ count induction =>
      rw [Walker.run, Function.iterate_succ_apply']
      exact LoopState.outcome?_step build root _ induction

namespace Grammar

theorem closedIn_convertNode (source : List UInt8) (field : Option String) (node : ParseNode) :
    node.closedIn (convertNode source) field =
      ⟨node.construct, field, node.children.map (converted source)⟩ := by
  rw [ParseNode.closedIn, ParseNode.foldAll_eq_map]
  rfl

/-- The loop that converts a tree with a cursor on it. It always has a node to close, and ends after
two steps for each node with the tree converted from the leaves up. On the way each node is closed
once, in its own slot or, at the root, in none, with its children converted in order, and nothing
else is closed. From each state of the loop of the zipper, the traversal goes on to the normal form.
With the same loop the nodes are created, and they come to have this form. -/
theorem loop_converts_each_node_once {σ : Type} {walker : Walker σ} {root : ParseNode}
    {Stands : σ → List Nat → Prop} (follows : walker.Follows root Stands) (source : List UInt8) :
    let run := walker.run (convertNode source)
    let frame (address : List Nat) (node : ParseNode) : OpenNode Shape :=
      ⟨node.construct, if address = [] then none else node.construct.field,
        node.children.map (converted source)⟩
    (∀ count, run count ≠ .stuck) ∧
    (∀ count value, run count = .done value ↔
      2 * root.size ≤ count ∧ value = convert source none root) ∧
    (∀ address node, root.nodeAt? address = some node →
      ∃! count, ∃ cursor, Stands cursor address ∧
        (run count).closing? = some (cursor, frame address node)) ∧
    (∀ count cursor closed, (run count).closing? = some (cursor, closed) →
      ∃ address node, Stands cursor address ∧ root.nodeAt? address = some node ∧
        closed = frame address node) ∧
    (∀ field node, convert source field node =
      convertNode source node.construct field (node.children.map (converted source))) ∧
    normalize source root = convert source none root ∧
    (∀ count, ((Cursor.walker root).run (convertNode source) count).outcome? (convertNode source) =
      some (normalize source root)) ∧
    (∀ count, ((Cursor.walker root).run (createNode source) count).outcome? (createNode source) =
      some (creation source root)) ∧
    (create source root).1.shape = convert source none root := by
  intro run frame
  have framed (address : List Nat) (node : ParseNode) :=
    closedIn_convertNode source (if address = [] then none else node.construct.field) node
  have normal : normalize source root = convert source none root :=
    ParseNode.traversed_eq_fold (convertNode source) root
  refine ⟨follows.run_ne_stuck _, fun _ _ => follows.run_eq_done_iff _, ?_, ?_, ?_, normal,
    Cursor.outcome?_run (convertNode source) root, Cursor.outcome?_run (createNode source) root,
    (shape_create source root).trans normal⟩
  · intro address node found
    obtain ⟨count, cursor, stands, closes⟩ := follows.exists_closing (convertNode source) found
    rw [framed] at closes
    refine ⟨count, ⟨cursor, stands, closes⟩, ?_⟩
    rintro other ⟨twin, standsToo, closesToo⟩
    exact follows.closing_unique _ closesToo closes standsToo stands
  · intro count cursor closed closes
    obtain ⟨address, node, stands, found, rfl⟩ := follows.exists_node_of_closing _ closes
    exact ⟨address, node, stands, found, framed address node⟩
  · intro field node
    rw [convert, ParseNode.fold_eq, ParseNode.foldAll_eq_map]
    rfl

/-- A parse node in a slot. -/
def slotted (field : String) : ParseNode → ParseNode
  | .mk construct children => .mk { construct with field := some field } children

/-- The source text of `slottedCall`. -/
def slottedCallSource : List UInt8 := "a && f(c)".toUTF8.toList

/-- An operator with a call on its right, in their slots. -/
def slottedCall : ParseNode :=
  sketchAt "binary_expression" true 0 9
    [slotted "left" (sketchAt "identifier" true 0 1 []),
      slotted "operator" (sketchAt "&&" false 2 4 []),
      slotted "right" (sketchAt "invocation_expression" true 5 9
        [slotted "function" (sketchAt "identifier" true 5 6 []),
          slotted "arguments" (sketchAt "argument_list" true 6 9
            [sketchAt "(" false 6 7 [], sketchAt "identifier" true 7 8 [],
              sketchAt ")" false 8 9 []])])]

theorem loop_converts_each_node_once_slottedCall :
    let run := (Cursor.walker slottedCall).run (convertNode slottedCallSource)
    (Cursor.walker slottedCall).Follows slottedCall (Cursor.StandsAt slottedCall) ∧
      (∀ value, run 17 ≠ .done value) ∧
      (∃ value, run 18 = .done value ∧ value.kind = .logicalAnd ∧
        value.children.map Node.field = [some "left", some "operator", some "right"]) ∧
      ∃ node, slottedCall.nodeAt? [1, 2] = some node ∧ node.children.length = 3 ∧
        ∃! count, ∃ cursor, Cursor.StandsAt slottedCall cursor [1, 2] ∧
          (run count).closing? = some (cursor, ⟨node.construct, some "arguments",
            node.children.map (converted slottedCallSource)⟩) := by
  intro run
  have follows := Cursor.follows slottedCall
  obtain ⟨-, ends, once, -⟩ := loop_converts_each_node_once follows slottedCallSource
  have size : slottedCall.size = 9 := by decide
  rw [size] at ends
  refine ⟨follows, ?_, ⟨_, (ends 18 _).mpr ⟨Nat.le_refl _, rfl⟩, ?_, ?_⟩, _, rfl, rfl, ?_⟩
  · intro value done
    exact absurd ((ends 17 value).mp done).1 (by decide)
  · decide +kernel
  · decide +kernel
  · exact once [1, 2] _ rfl

end Grammar

end CodeMetrics
