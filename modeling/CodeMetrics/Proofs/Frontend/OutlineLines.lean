import CodeMetrics.Frontend.Outline
import CodeMetrics.Proofs.Text.WrittenLines
import CodeMetrics.Proofs.Tree.Routes

/-!
# What an outline shows

An outline goes down a tree and stops at a depth. It writes one line for each node down to that
depth, in pre-order, and the lines of deeper nodes are left out. Whatever the texts of the leaves
hold, nothing but the grammar's name for a node can break a line.
-/

namespace CodeMetrics

namespace Outline

variable {ι : Type}

/-! ## The nodes on show -/

/-- The routes that lead at most so many levels down. -/
def within (levels : Nat) (routes : List (List Nat × Node ι)) : List (List Nat × Node ι) :=
  routes.filter fun entry => entry.1.length ≤ levels

theorem mem_within {levels : Nat} {routes : List (List Nat × Node ι)}
    {entry : List Nat × Node ι} :
    entry ∈ within levels routes ↔ entry ∈ routes ∧ entry.1.length ≤ levels := by
  rw [within, List.mem_filter, decide_eq_true_iff]

theorem within_append (levels : Nat) (left right : List (List Nat × Node ι)) :
    within levels (left ++ right) = within levels left ++ within levels right :=
  List.filter_append left right

theorem within_map_cons (levels index : Nat) (routes : List (List Nat × Node ι)) :
    within (levels + 1) (routes.map (Prod.map (index :: ·) id)) =
      (within levels routes).map (Prod.map (index :: ·) id) := by
  simp only [within, List.filter_map, Function.comp_def, Prod.map_fst, List.length_cons,
    Nat.add_le_add_iff_right]

theorem within_zero_routesFrom (index : Nat) (nodes : List (Node ι)) :
    within 0 (Node.routesFrom index nodes) = [] := by
  rw [within, List.filter_eq_nil_iff]
  rintro ⟨route, inner⟩ listed
  obtain ⟨offset, child, below, -, -, rfl⟩ := (Node.mem_routesFrom index nodes).mp listed
  simp

theorem within_routes (levels : Nat) (node : Node ι) :
    within levels node.routes =
      ([], node) :: within levels (Node.routesFrom 0 node.children) := by
  cases node
  rw [Node.routes, within, List.filter_cons_of_pos (by simp), ← within, Node.children_mk]

/-- The line of a node at a depth. -/
def lineAt (limit : Int) (depth : Nat) (node : Node ι) : String :=
  indent depth ++ if (depth : Int) < limit then line node else "..."

mutual

/-- From a depth on, the lines are those of the nodes that the limit leaves room for. -/
theorem lines_eq (limit : Int) (depth : Nat) : (node : Node ι) →
    lines limit depth node = (within (limit - depth).toNat node.routes).map fun entry =>
      lineAt limit (depth + entry.1.length) entry.2
  | .mk mark attributes nodes => by
      rw [lines, within_routes, List.map_cons]
      change _ = lineAt limit depth (.mk mark attributes nodes) :: _
      rw [lineAt, Node.children_mk]
      by_cases reached : limit ≤ depth
      -- every route to a node below takes a step, so at the limit the node alone is left
      · have noRoom : (limit - depth).toNat = 0 := by omega
        rw [if_pos reached, if_neg (by omega), noRoom, within_zero_routesFrom, List.map_nil]
      · have room : (limit - depth).toNat = (limit - (depth + 1 : Nat)).toNat + 1 := by omega
        rw [if_neg reached, if_pos (by omega), room, linesOf_eq limit depth 0 nodes]

theorem linesOf_eq (limit : Int) (depth index : Nat) : (nodes : List (Node ι)) →
    linesOf limit (depth + 1) nodes =
      (within ((limit - (depth + 1 : Nat)).toNat + 1) (Node.routesFrom index nodes)).map
        fun entry => lineAt limit (depth + entry.1.length) entry.2
  | [] => rfl
  | node :: nodes => by
      rw [linesOf, Node.routesFrom, within_append, within_map_cons, List.map_append, List.map_map,
        lines_eq limit (depth + 1) node, linesOf_eq limit depth (index + 1) nodes]
      -- the step to the child counts towards the depth on the left, towards the route on the right
      refine congrArg (· ++ _) (List.map_congr_left fun entry _ => ?_)
      rw [Function.comp_apply, Prod.map_fst, Prod.map_snd, List.length_cons, id_eq,
        Nat.add_right_comm, Nat.add_assoc]

end

/-! ## The characters of a line -/

theorem line_eq (node : Node ι) :
    line node = node.kind.name ++ " (" ++ node.grammarType ++ ") [" ++
      (toString node.span.startLine ++ ":" ++ toString node.span.startColumn ++ "]") ++
      node.text.elim "" (" = " ++ Text.quote ·) := by
  rw [line]
  cases node.text <;> rfl

theorem isPrintable_of_mem_name {character : Char} {kind : Kind}
    (member : character ∈ kind.name.toList) : Text.isPrintable character := by
  have all : Kind.all.all fun kind => kind.name.toList.all Text.isPrintable := by decide +kernel
  have ofKind := List.all_eq_true.mp all kind (Kind.mem_all kind)
  exact List.all_eq_true.mp ofKind character member

/-- Nothing in a line but the grammar's name for the node can be unprintable. -/
theorem isPrintable_or_mem_of_mem_line {character : Char} {node : Node ι}
    (member : character ∈ (line node).toList) :
    Text.isPrintable character ∨ character ∈ node.grammarType.toList := by
  have fixed {text : String} (printable : text.toList.all Text.isPrintable)
      (listed : character ∈ text.toList) : Text.isPrintable character :=
    List.all_eq_true.mp printable character listed
  rw [line_eq] at member
  simp only [String.toList_append, List.mem_append] at member
  rcases member with
    ((((name | opening) | grammar) | closing) | (((first | colon) | second) | bracket)) | text
  · exact .inl (isPrintable_of_mem_name name)
  · exact .inl (fixed (by decide +kernel) opening)
  · exact .inr grammar
  · exact .inl (fixed (by decide +kernel) closing)
  · exact .inl (Text.isPrintable_of_mem_toString first)
  · exact .inl (fixed (by decide +kernel) colon)
  · exact .inl (Text.isPrintable_of_mem_toString second)
  · exact .inl (fixed (by decide +kernel) bracket)
  · cases isText : node.text with
    | none => simp [isText] at text
    | some content =>
        rw [isText, Option.elim_some, String.toList_append, List.mem_append] at text
        rcases text with equals | quoted
        · exact .inl (fixed (by decide +kernel) equals)
        · exact .inl (Text.isPrintable_of_mem_quote quoted)

theorem isPrintable_or_mem_of_mem_lineAt {character : Char} {limit : Int} {depth : Nat}
    {node : Node ι} (member : character ∈ (lineAt limit depth node).toList) :
    Text.isPrintable character ∨ character ∈ node.grammarType.toList := by
  rw [lineAt, String.toList_append, List.mem_append] at member
  rcases member with space | rest
  · rw [indent, String.toList_ofList] at space
    obtain rfl := List.eq_of_mem_replicate space
    exact .inl (by decide)
  · split at rest
    · exact isPrintable_or_mem_of_mem_line rest
    · obtain rfl : character = '.' := by simpa using rest
      exact .inl (by decide)

/-- A character that ends a line comes into an outline only with a grammar's name for a node. -/
theorem exists_mem_grammarType {character : Char} (isBreak : character ∈ Text.lineBreaks)
    {limit : Int} {depth : Nat} {root : Node ι} {text : String}
    (listed : text ∈ lines limit depth root) (member : character ∈ text.toList) :
    ∃ node ∈ root.preorder, character ∈ node.grammarType.toList := by
  rw [lines_eq, List.mem_map] at listed
  obtain ⟨entry, shown, rfl⟩ := listed
  rcases isPrintable_or_mem_of_mem_lineAt member with printable | inName
  · exact absurd printable (Text.not_isPrintable_of_lineBreak isBreak)
  · refine ⟨entry.2, ?_, inName⟩
    rw [← Node.map_snd_routes]
    exact List.mem_map_of_mem (mem_within.mp shown).1

/-! ## The whole outline -/

theorem toList_render (limit : Int) (root : Node ι) :
    (render limit root).toList =
      ((lines limit 0 root).map String.toList).flatMap (· ++ ['\n']) := by
  rw [render, String.toList_join, List.flatMap_map, List.flatMap_map]
  simp only [String.toList_append]
  rfl

/-- The nodes that the outline of a tree shows, each with the route that leads to it, and the line
that it has there. -/
structure Shows (limit : Int) (root : Node ι) (shown : List (List Nat × Node ι)) : Prop where
  /-- Pre-order, and no route twice. -/
  ordered : shown.Pairwise fun entry later => Node.ComesBefore entry.1 later.1
  /-- Exactly the nodes down to the limit. -/
  listed : ∀ route node, (route, node) ∈ shown ↔
    root.nodeAt? route = some node ∧ (route.length : Int) ≤ max limit 0
  /-- The walk through the tree passes the nodes in this order, so none that it passes once is shown
  twice. -/
  walked : (shown.map Prod.snd).Sublist root.walk
  /-- Two spaces for each level, and then what is known of the node, or dots at the limit. -/
  written : lines limit 0 root = shown.map fun entry =>
    String.ofList (List.replicate (2 * entry.1.length) ' ') ++
      if (entry.1.length : Int) < limit then
        entry.2.kind.name ++ " (" ++ entry.2.grammarType ++ ") [" ++
          (toString entry.2.span.startLine ++ ":" ++ toString entry.2.span.startColumn ++ "]") ++
          entry.2.text.elim "" (" = " ++ Text.quote ·)
      else "..."

theorem shows_within (limit : Int) (root : Node ι) :
    Shows limit root (within limit.toNat root.routes) where
  ordered := (Node.pairwise_routes root).filter _
  listed route node := by
    rw [mem_within, Node.mem_routes]
    have bound : route.length ≤ limit.toNat ↔ (route.length : Int) ≤ max limit 0 := by omega
    rw [bound]
  walked := by
    rw [Node.walk_eq_preorder, ← Node.map_snd_routes]
    exact List.filter_sublist.map Prod.snd
  written := by
    rw [lines_eq, Int.natCast_zero, Int.sub_zero]
    refine List.map_congr_left fun entry _ => ?_
    rw [Nat.zero_add, lineAt, line_eq, indent]

/-- The outline of a tree shows each node down to the limit once, in pre-order, on a line of its
own: unless the grammar's name for a node is broken itself, the lines of the outline are the lines
that were written, whatever the leaves hold. -/
theorem one_line_for_each_node_shown (limit : Int) (root : Node ι) :
    ∃ shown : List (List Nat × Node ι), Shows limit root shown ∧
      ((∀ node ∈ root.preorder, '\n' ∉ node.grammarType.toList) →
        (render limit root).toList.splitOn '\n' = (lines limit 0 root).map String.toList ++ [[]] ∧
        (render limit root).toList.count '\n' = shown.length) ∧
      ((∀ node ∈ root.preorder, ∀ character ∈ node.grammarType.toList,
          character ∉ Text.lineBreaks) →
        Text.splitLines (render limit root).toList = (lines limit 0 root).map String.toList) := by
  have shows := shows_within limit root
  refine ⟨_, shows, ?_, ?_⟩
  · intro whole
    have unbroken : ∀ line ∈ (lines limit 0 root).map String.toList, '\n' ∉ line := by
      intro line member broken
      obtain ⟨text, listed, rfl⟩ := List.mem_map.mp member
      obtain ⟨node, inTree, inName⟩ := exists_mem_grammarType (by decide) listed broken
      exact whole node inTree inName
    rw [toList_render]
    refine ⟨Text.splitOn_flatMap_lineFeed unbroken, ?_⟩
    rw [Text.count_flatMap_lineFeed unbroken, List.length_map, shows.written, List.length_map]
  · intro whole
    rw [toList_render]
    apply Text.splitLines_flatMap_lineFeed
    intro line member character inLine isBreak
    obtain ⟨text, listed, rfl⟩ := List.mem_map.mp member
    obtain ⟨node, inTree, inName⟩ := exists_mem_grammarType isBreak listed inLine
    exact whole node inTree character inName isBreak

/-- A block with a comment over three lines, and a call whose name is out of reach. -/
def remarkedBlock : Shape :=
  .mk () (.of .block ⟨0, 25, 1, 0, 3, 8⟩ none none "")
    [.mk () (.of .multiLineComment ⟨2, 16, 1, 2, 2, 5⟩ (some "/* it's\r\n\u2028*/") none
        "comment") [],
      .mk () (.of .expressionStatement ⟨19, 23, 3, 2, 3, 6⟩ none none "")
        [.mk () (.of .invocation ⟨19, 22, 3, 2, 3, 5⟩ none none "invocation_expression")
          [.mk () (.of .identifier ⟨19, 20, 3, 2, 3, 3⟩ (some "f") none "") []]]]

theorem one_line_for_each_node_shown_remarkedBlock :
    remarkedBlock.preorder.length = 5 ∧
      (∀ node ∈ remarkedBlock.preorder, '\n' ∉ node.grammarType.toList) ∧
      lines 2 0 remarkedBlock =
        ["block (block) [1:0]",
          "  multi_line_comment (comment) [1:2] = \"/* it's\\r\\n\\u2028*/\"",
          "  expression_statement (expression_statement) [3:2]",
          "    ..."] ∧
      (render 2 remarkedBlock).toList.count '\n' = 4 ∧
      Text.splitLines (render 2 remarkedBlock).toList =
        (lines 2 0 remarkedBlock).map String.toList := by
  have checked : remarkedBlock.preorder.all fun node =>
      node.grammarType.toList.all fun character => !Text.lineBreaks.contains character := by
    decide +kernel
  have unbroken : ∀ node ∈ remarkedBlock.preorder, ∀ character ∈ node.grammarType.toList,
      character ∉ Text.lineBreaks := by
    intro node member character inName
    simpa using List.all_eq_true.mp (List.all_eq_true.mp checked node member) character inName
  have whole : ∀ node ∈ remarkedBlock.preorder, '\n' ∉ node.grammarType.toList := by
    intro node member inName
    exact unbroken node member '\n' inName (by decide)
  obtain ⟨shown, shows, feeds, split⟩ := one_line_for_each_node_shown 2 remarkedBlock
  refine ⟨by decide +kernel, whole, by decide +kernel, ?_, split unbroken⟩
  have fourLines : (lines 2 0 remarkedBlock).length = 4 := by decide +kernel
  rw [(feeds whole).2, ← fourLines, shows.written, List.length_map]

end Outline

end CodeMetrics
