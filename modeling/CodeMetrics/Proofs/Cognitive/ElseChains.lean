import CodeMetrics.Proofs.Cognitive.Contribution
import CodeMetrics.Proofs.Grammar.Pregrouping
import CodeMetrics.Proofs.Tree.Correspondence

/-!
# Chains of else ifs

In a parse tree each further if of a chain is nested in the one before, behind its else. The normal
form puts an else clause over each else and what follows it, so that the further ifs are
alternatives. A chain is then charged for its nesting once, at its first if, and what stands in its
conditions and branches lies one level deeper than the chain, however far down.
-/

namespace CodeMetrics

/-! ## Chains in a parse tree -/

namespace ParseNode

/-- A named node other than a comment. -/
def isStatement (node : ParseNode) : Bool :=
  node.construct.isNamed && node.construct.type != "comment"

/-- The node is the first if of a chain with so many else parts, and with the given ifs after it. An
else part is the first else token and what follows it. Its alternative is the one statement there. -/
inductive ElseIfs (source : List UInt8) : ParseNode → Nat → List ParseNode → Prop where
  | plain {node : ParseNode} (isIf : node.isOneOf ["if_statement"])
      (noElse : ∀ child ∈ node.children, child.spells source "else" = false) :
      ElseIfs source node 0 []
  | last {node token alternative : ParseNode} {rest : List ParseNode}
      (isIf : node.isOneOf ["if_statement"])
      (split : node.children.dropWhile (fun child => !child.spells source "else") = token :: rest)
      (only : rest.filter isStatement = [alternative])
      (notIf : alternative.isOneOf ["if_statement"] = false) : ElseIfs source node 1 []
  | further {node token alternative : ParseNode} {rest ifs : List ParseNode} {elses : Nat}
      (isIf : node.isOneOf ["if_statement"])
      (split : node.children.dropWhile (fun child => !child.spells source "else") = token :: rest)
      (only : rest.filter isStatement = [alternative])
      (chain : ElseIfs source alternative elses ifs) :
      ElseIfs source node (elses + 1) (alternative :: ifs)

end ParseNode

/-! ## Chains in a normal form -/

/-- The else clauses and the further ifs of a chain, from its first if on: an else clause is the
last child of its if, and the next if is in the else clause. -/
inductive ElseChain : Vertex → List Vertex → List Vertex → Prop where
  | stop (node : Vertex) : ElseChain node [] []
  | last {node clause : Vertex} (isLast : node.children.getLast? = some clause)
      (isElse : clause.kind = .elseClause) : ElseChain node [clause] []
  | further {node clause next : Vertex} {clauses ifs : List Vertex}
      (isLast : node.children.getLast? = some clause) (isElse : clause.kind = .elseClause)
      (held : next ∈ clause.children) (isIf : next.kind = .ifStatement)
      (chain : ElseChain next clauses ifs) : ElseChain node (clause :: clauses) (next :: ifs)

namespace Grammar

section

variable {source : List UInt8} {field : Option String} {raw : ParseNode} {first : Vertex}

theorem kind_of_isIf (shape : first.shape = convert source field raw)
    (isIf : raw.isOneOf ["if_statement"]) : first.kind = .ifStatement := by
  have typed : raw.construct.isNamed = true ∧ raw.construct.type = "if_statement" := by
    simpa [ParseNode.isOneOf] using isIf
  rw [← Node.kind_shape, shape, convert_eq]
  exact (kindOf_eq_ifStatement_iff source raw.construct _).mpr typed

/-- An else and what follows it become the last child of the if. -/
theorem exists_clause (shape : first.shape = convert source field raw)
    (isIf : raw.isOneOf ["if_statement"]) {token : ParseNode} {rest : List ParseNode}
    (split : raw.children.dropWhile (fun child => !child.spells source "else") = token :: rest) :
    ∃ clause, first.children.getLast? = some clause ∧ clause.kind = .elseClause ∧
      clause.children.map Node.shape = (token :: rest).map (converted source) := by
  have typed : raw.construct.isNamed = true ∧ raw.construct.type = "if_statement" := by
    simpa [ParseNode.isOneOf] using isIf
  have isKind := (kindOf_eq_ifStatement_iff source raw.construct
    (raw.children.map (converted source))).mpr typed
  have test : (fun child : Shape => !isTokenOf "else" child) ∘ converted source =
      fun child => !child.spells source "else" := by
    funext child
    rw [Function.comp_apply, isTokenOf_converted]
  have children := congrArg Node.children shape
  rw [Node.children_shape, convert_eq, Node.children_mk, isKind, wrapChildren, if_pos rfl, wrapElse,
    List.dropWhile_map, test, split, List.map_cons] at children
  have lasts := congrArg List.getLast? children
  rw [List.getLast?_map, List.getLast?_append] at lasts
  cases found : first.children.getLast? with
  | none => simp [found] at lasts
  | some clause =>
      have clauseShape : clause.shape =
          wrapper () .elseClause (some "else") "else_clause" (converted source token)
            (rest.map (converted source)) := by simpa [found] using lasts
      refine ⟨clause, rfl, ?_, ?_⟩
      · rw [← Node.kind_shape, clauseShape]
        rfl
      · rw [← Node.children_shape, clauseShape]
        rfl

/-- The normal form of a chain is a chain with as many else clauses, and its further ifs are the
normal forms of those of the parse tree. -/
theorem exists_elseChain {elses : Nat} {ifs : List ParseNode} (chain : raw.ElseIfs source elses ifs)
    (shape : first.shape = convert source field raw) :
    first.kind = .ifStatement ∧
      ∃ clauses further, ElseChain first clauses further ∧ clauses.length = elses ∧
        further.map Node.shape = ifs.map (converted source) := by
  induction chain generalizing first field with
  | plain isIf _ => exact ⟨kind_of_isIf shape isIf, [], [], .stop first, rfl, rfl⟩
  | last isIf split _ _ =>
      obtain ⟨clause, isLast, isElse, -⟩ := exists_clause shape isIf split
      exact ⟨kind_of_isIf shape isIf, [clause], [], .last isLast isElse, rfl, rfl⟩
  | @further node token alternative rest ifs elses isIf split only _ induction =>
      obtain ⟨clause, isLast, isElse, parts⟩ := exists_clause shape isIf split
      have isPart : alternative ∈ token :: rest := by
        have listed : alternative ∈ rest.filter ParseNode.isStatement := by rw [only]; simp
        exact List.mem_cons_of_mem _ (List.mem_filter.mp listed).1
      have converts : converted source alternative ∈ clause.children.map Node.shape := by
        rw [parts]
        exact List.mem_map_of_mem isPart
      obtain ⟨next, held, nextShape⟩ := List.mem_map.mp converts
      obtain ⟨isNextIf, clauses, further, chain, length, shapes⟩ := induction nextShape
      refine ⟨kind_of_isIf shape isIf, clause :: clauses, next :: further, ?_, ?_, ?_⟩
      · exact .further isLast isElse held isNextIf chain
      · rw [List.length_cons, length]
      · rw [List.map_cons, List.map_cons, shapes, nextShape]

end

end Grammar

/-! ## Where the parts of a parse tree are -/

namespace Grammar

theorem Grouped.mem_preorderAll_of_mem {ι : Type} {inserted : ι} {nodes grouped : List (Node ι)}
    (isGrouped : Grouped inserted nodes grouped) {node : Node ι}
    (member : node ∈ Node.preorderAll nodes) : node ∈ Node.preorderAll grouped := by
  induction isGrouped with
  | nil => exact member
  | keep kept _ induction =>
      rw [Node.preorderAll, List.mem_append] at member ⊢
      exact member.imp_right induction
  | wrap kind field grammarType first rest _ induction =>
      rw [Node.preorderAll_append, List.mem_append] at member
      rw [Node.preorderAll, List.mem_append, Node.preorder_eq]
      exact member.imp (List.mem_cons_of_mem _) induction

section

variable (source : List UInt8)

mutual

/-- Each part of a parse tree has its place in the normal form. -/
theorem exists_convert_of_part {part : ParseNode} : (node : ParseNode) → (field : Option String) →
    part ∈ node.parts → ∃ slot, convert source slot part ∈ (convert source field node).preorder
  | .mk construct children, field, member => by
      rw [ParseNode.parts, List.mem_cons] at member
      rcases member with rfl | below
      · exact ⟨field, Node.self_mem_preorder _⟩
      · obtain ⟨slot, inside⟩ := exists_convert_of_partsAll children below
        refine ⟨slot, ?_⟩
        rw [convert_eq, Node.preorder_eq]
        exact List.mem_cons_of_mem _
          ((grouped_wrapChildren () _ _).mem_preorderAll_of_mem inside)

theorem exists_convert_of_partsAll {part : ParseNode} : (nodes : List ParseNode) →
    part ∈ ParseNode.partsAll nodes →
      ∃ slot, convert source slot part ∈ Node.preorderAll (nodes.map (converted source))
  | [], member => by simp [ParseNode.partsAll] at member
  | node :: nodes, member => by
      rw [ParseNode.partsAll, List.mem_append] at member
      rcases member with here | later
      · obtain ⟨slot, inside⟩ := exists_convert_of_part node node.construct.field here
        exact ⟨slot, List.mem_append_left _ inside⟩
      · obtain ⟨slot, inside⟩ := exists_convert_of_partsAll nodes later
        exact ⟨slot, List.mem_append_right _ inside⟩

end

end

end Grammar

/-! ## Visits inside a chain -/

/-- The node is charged one more than its nesting: a construct that deepens the nesting, other than
a lambda, or a jump, or a call of the function with the given name. -/
def Forest.IsCharged (forest : Forest) (node : Vertex) (name : Option String) : Prop :=
  forest.Deepens node ∧ node.kind ≠ .lambdaExpression ∨ node.kind = .gotoStatement ∨
    node.kind = .invocation ∧ (node.recursiveCallee? name).isSome

theorem magnitude_of_isCharged {forest : Forest} {node : Vertex} {depth : Nat}
    {name : Option String}
    {recorded : List Increment} (charged : forest.IsCharged node name)
    (contributes : Contributes forest node depth name recorded) :
    recorded.map Increment.magnitude = [(1 + depth : Int)] := by
  rcases charged with ⟨listed | ⟨isIf, notAlternative⟩, notLambda⟩ | isJump | ⟨isCall, isRecursive⟩
  · simp only [Kind.deepening, List.mem_cons, List.not_mem_nil, or_false] at listed
    rcases listed with kind | kind | kind | kind | kind | kind | kind | kind
    · exact absurd kind notLambda
    all_goals
      rw [Contributes, kind] at contributes
      rw [contributes]
      rfl
  · rw [Contributes, isIf] at contributes
    rw [contributes, if_neg notAlternative]
    rfl
  · rw [Contributes, isJump] at contributes
    rw [contributes]
    rfl
  · rw [Contributes, isCall] at contributes
    obtain ⟨callee, found⟩ := Option.isSome_iff_exists.mp isRecursive
    rw [contributes, found]
    rfl

/-! ## What a chain costs -/

namespace ElseChain

variable {forest : Forest} {root first : Vertex} {clauses ifs : List Vertex}

/-- A chain goes on with an else clause, an if and the rest of the chain. -/
theorem perm_further (clause next : Vertex) (clauses ifs : List Vertex) :
    (clause :: clauses ++ next :: ifs).Perm (clause :: next :: (clauses ++ ifs)) :=
  List.perm_middle.cons clause

/-- The nodes of a chain lie in its first if. -/
theorem mem_descendants (chain : ElseChain first clauses ifs) :
    ∀ node ∈ clauses ++ ifs, node ∈ first.descendants := by
  induction chain with
  | stop => simp
  | @last first clause isLast _ =>
      have held := List.mem_of_getLast? isLast
      simpa using Node.child_mem_descendants held (Node.self_mem_preorder first)
  | @further first clause next clauses ifs isLast _ held _ _ induction =>
      have isClause := Node.child_mem_descendants (List.mem_of_getLast? isLast)
        (Node.self_mem_preorder first)
      have isNext := Node.child_mem_descendants held
        (Node.mem_preorder_iff_descendant.mpr (.inr isClause))
      intro node listed
      rw [(perm_further clause next clauses ifs).mem_iff, List.mem_cons, List.mem_cons] at listed
      rcases listed with rfl | rfl | later
      · exact isClause
      · exact isNext
      · have inside := induction node later
        rw [Node.descendants_eq] at isNext ⊢
        exact Node.descendant_mem_preorderAll inside isNext

/-- No node occurs twice in a chain. -/
theorem nodup (chain : ElseChain first clauses ifs) (distinct : first.Distinct) :
    (first :: (clauses ++ ifs)).Nodup := by
  have apart : ∀ {node : Vertex}, node.Distinct → node ∉ node.descendants := by
    intro node distinct inside
    have once := distinct.nodup
    rw [Node.preorder_eq, List.nodup_cons, ← Node.descendants_eq] at once
    exact once.1 inside
  induction chain with
  | stop => simp
  | last isLast isElse =>
      have inside := (ElseChain.last isLast isElse).mem_descendants
      rw [List.nodup_cons]
      exact ⟨fun listed => apart distinct (inside _ listed), by simp⟩
  | @further first clause next clauses ifs isLast isElse held isIf chain induction =>
      have inside := (ElseChain.further isLast isElse held isIf chain).mem_descendants
      have clauseDistinct : clause.Distinct :=
        distinct.of_mem (Node.child_mem_preorder (List.mem_of_getLast? isLast))
      have nextDistinct : next.Distinct := clauseDistinct.of_mem (Node.child_mem_preorder held)
      rw [List.nodup_cons, (perm_further clause next clauses ifs).nodup_iff, List.nodup_cons]
      refine ⟨fun listed => apart distinct (inside _ listed), ?_, induction nextDistinct⟩
      intro listed
      have isNext := Node.child_mem_descendants held (Node.self_mem_preorder clause)
      apply apart clauseDistinct
      rcases List.mem_cons.mp listed with same | later
      · exact same ▸ isNext
      · have deeper := chain.mem_descendants clause later
        rw [Node.descendants_eq] at isNext ⊢
        exact Node.descendant_mem_preorderAll deeper isNext

/-- The further ifs of a chain are alternatives. -/
theorem isAlternative (chain : ElseChain first clauses ifs) (tree : forest.IsTree root)
    (inTree : first ∈ root.preorder) :
    ∀ node ∈ ifs, node.kind = .ifStatement ∧ forest.IsAlternative node := by
  induction chain with
  | stop => simp
  | last => simp
  | further isLast isElse held isIf _ induction =>
      have clauseInTree := Node.mem_preorder_trans
        (Node.child_mem_preorder (List.mem_of_getLast? isLast)) root inTree
      have nextInTree := Node.mem_preorder_trans (Node.child_mem_preorder held) root clauseInTree
      refine List.forall_mem_cons.mpr ⟨⟨isIf, ?_⟩, induction nextInTree⟩
      rw [Forest.IsAlternative, tree.parent?_eq clauseInTree held, Option.map_some, isElse]

theorem kind_of_clause (chain : ElseChain first clauses ifs) :
    ∀ node ∈ clauses, node.kind = .elseClause := by
  induction chain with
  | stop => simp
  | last _ isElse => simpa using isElse
  | further _ isElse _ _ _ induction => exact List.forall_mem_cons.mpr ⟨isElse, induction⟩

end ElseChain

/-- A walk arrives at the first if of a chain with the given nesting, and charges the chain for it
once: one more than the nesting at the first if, one at each else clause, and nothing at a further
if. What is charged for its nesting inside the chain, where only ifs of the chain are in between, is
one level deeper than the chain. -/
structure CostsNestingOnce (forest : Forest) (start : Vertex) (functionName : Option String)
    (first : Vertex) (clauses ifs : List Vertex) (nesting : Int) : Prop where
  own : ((first :: (clauses ++ ifs)).flatMap (forest.recordedAt start functionName)).map
    Increment.magnitude = (nesting + 1) :: List.replicate clauses.length 1
  inside : ∀ visit ∈ forest.scoringVisits start functionName, visit.node ∈ first.descendants →
    (∀ between ∈ first.descendants, visit.node ∈ between.descendants → forest.Deepens between →
      between ∈ ifs) →
    forest.IsCharged visit.node visit.before.functionName →
      visit.before.nesting = nesting + 1 ∧ visit.recorded.map Increment.magnitude = [nesting + 2]

namespace ElseChain

variable {forest : Forest} {root first start : Vertex} {clauses ifs : List Vertex}
  {functionName : Option String}

/-- What is recorded at the else clauses and the further ifs of a chain. -/
theorem magnitudes_recordedAt (chain : ElseChain first clauses ifs) (tree : forest.IsTree root)
    (inTree : first ∈ root.preorder) (distinct : start.Distinct)
    (inStart : first ∈ start.preorder) :
    ((clauses ++ ifs).flatMap (forest.recordedAt start functionName)).map Increment.magnitude =
      List.replicate clauses.length 1 := by
  have contributes : ∀ node ∈ clauses ++ ifs,
      ∃ depth name,
        Contributes forest node depth name (forest.recordedAt start functionName node) := by
    intro node listed
    have below := Node.mem_preorder_iff_descendant.mpr (.inr (chain.mem_descendants node listed))
    have inside := Node.mem_preorder_trans below start inStart
    rw [← Forest.map_node_scoringVisits forest start functionName] at inside
    obtain ⟨visit, visited, rfl⟩ := List.mem_map.mp inside
    obtain ⟨above, -, -, contributes⟩ := Forest.exists_lineage_of_visit visited
    rw [Forest.recordedAt_eq distinct visited]
    exact ⟨_, _, contributes⟩
  have charged : ∀ clause ∈ clauses,
      (forest.recordedAt start functionName clause).map Increment.magnitude = [1] := by
    intro clause listed
    obtain ⟨depth, name, recorded⟩ := contributes clause (List.mem_append_left _ listed)
    rw [Contributes, chain.kind_of_clause clause listed] at recorded
    rw [recorded]
    rfl
  have free : (ifs.flatMap (forest.recordedAt start functionName)) = [] := by
    rw [List.flatMap_eq_nil_iff]
    intro node listed
    obtain ⟨depth, name, recorded⟩ := contributes node (List.mem_append_right _ listed)
    obtain ⟨isIf, isAlternative⟩ := chain.isAlternative tree inTree node listed
    rw [Contributes, isIf] at recorded
    rw [recorded, if_pos isAlternative]
  rw [List.flatMap_append, free, List.append_nil, List.map_flatMap, List.flatMap_congr charged,
    ← List.map_eq_flatMap, List.map_const']

theorem costsNestingOnce (chain : ElseChain first clauses ifs) (tree : forest.IsTree root)
    (inTree : first ∈ root.preorder) (isIf : first.kind = .ifStatement)
    (notAlternative : ¬ forest.IsAlternative first) (startInTree : start ∈ root.preorder)
    {visit : Visit} (visited : visit ∈ forest.scoringVisits start functionName)
    (arrives : visit.node = first) :
    CostsNestingOnce forest start functionName first clauses ifs visit.before.nesting := by
  have distinct := tree.distinct.of_mem startInTree
  have deepens : forest.Deepens first := .inr ⟨isIf, notAlternative⟩
  obtain ⟨above, entry, nesting, contributes⟩ := Forest.exists_lineage_of_visit visited
  have recorded := Forest.recordedAt_eq distinct visited
  rw [arrives] at entry contributes recorded
  constructor
  case own =>
    have inStart : first ∈ start.preorder := by
      rw [← Node.map_fst_lineage []]
      exact List.mem_map_of_mem entry
    have notLambda : first.kind ≠ .lambdaExpression := by simp [isIf]
    rw [List.flatMap_cons, List.map_append,
      chain.magnitudes_recordedAt tree inTree distinct inStart, recorded,
      magnitude_of_isCharged (.inl ⟨deepens, notLambda⟩) contributes, nesting, Int.add_comm]
    rfl
  case inside =>
    intro inner innerVisited isInside alone charged
    obtain ⟨path, innerEntry, innerNesting, innerContributes⟩ :=
      Forest.exists_lineage_of_visit innerVisited
    obtain ⟨between, throughFirst, passed⟩ := Node.exists_between entry isInside
    have flat : forest.depth between = 0 := by
      rw [Forest.depth, List.countP_eq_zero]
      intro node listed isDeeper
      have isDeeper := of_decide_eq_true isDeeper
      obtain ⟨nodeInside, innerBelow⟩ := passed node listed
      obtain ⟨isNodeIf, isAlternative⟩ :=
        chain.isAlternative tree inTree node (alone node nodeInside innerBelow isDeeper)
      rcases isDeeper with listed | ⟨-, notAlternative⟩
      · rw [isNodeIf] at listed
        exact absurd listed (by decide)
      · exact notAlternative isAlternative
    have depth : forest.depth path = forest.depth above + 1 :=
      calc forest.depth path = forest.depth (between ++ first :: above) := by
            rw [Node.lineage_path_unique distinct innerEntry throughFirst]
        _ = forest.depth between + forest.depth (first :: above) := List.countP_append
        _ = forest.depth above + 1 := by
            rw [flat, Forest.depth_cons_of_deepens deepens, Nat.zero_add]
    rw [depth] at innerNesting innerContributes
    refine ⟨by omega, ?_⟩
    rw [magnitude_of_isCharged charged innerContributes, nesting]
    congr 1
    omega

end ElseChain

namespace Grammar

theorem shape_create_eq_convert (source : List UInt8) (tree : ParseNode) :
    (create source tree).1.shape = convert source none tree :=
  (shape_create source tree).trans (ParseNode.traversed_eq_fold _ tree)

/-- The places of a parse node in the normal form of a tree that holds it. -/
theorem exists_vertex_of_part {source : List UInt8} {tree part : ParseNode}
    (isPart : part ∈ tree.parts) :
    ∃ node ∈ (create source tree).1.preorder,
      ∃ field, node.shape = convert source field part := by
  obtain ⟨field, converts⟩ := exists_convert_of_part source tree none isPart
  rw [← shape_create_eq_convert, Node.preorder_shape] at converts
  obtain ⟨node, member, shape⟩ := List.mem_map.mp converts
  exact ⟨node, member, field, shape⟩

/-- A chain of else ifs costs its nesting once, however long it is. -/
theorem elseIfs_cost_nesting_once (source : List UInt8) (tree raw : ParseNode) (elses : Nat)
    (further : List ParseNode) (chain : raw.ElseIfs source elses further) :
    let created := create source tree
    (raw ∈ tree.parts →
        ∃ first ∈ created.1.preorder, ∃ field, first.shape = convert source field raw) ∧
      ∀ first ∈ created.1.preorder, ∀ field, first.shape = convert source field raw →
        ¬ created.2.IsAlternative first →
          ∃ clauses ifs, ElseChain first clauses ifs ∧ clauses.length = elses ∧
            ifs.map Node.shape = further.map (converted source) ∧
            (first :: (clauses ++ ifs)).Nodup ∧
            ∀ start ∈ created.1.preorder, ∀ functionName,
              ∀ visit ∈ created.2.scoringVisits start functionName, visit.node = first →
                CostsNestingOnce created.2 start functionName first clauses ifs
                  visit.before.nesting := by
  intro created
  have isTree : created.2.IsTree created.1 := isTree_create source tree
  refine ⟨exists_vertex_of_part, ?_⟩
  intro first inTree field shape notAlternative
  obtain ⟨isIf, clauses, ifs, isChain, length, shapes⟩ := exists_elseChain chain shape
  refine ⟨clauses, ifs, isChain, length, shapes, isChain.nodup (isTree.distinct.of_mem inTree), ?_⟩
  intro start startInTree functionName visit visited arrives
  exact isChain.costsNestingOnce isTree inTree isIf notAlternative startInTree visited arrives

/-- The source text of `elseIfGoto`. -/
def elseIfGotoSource : List UInt8 := "if(a)b;else if(c)goto x;else d;".toUTF8.toList

/-- The alternative of `elseIfGoto`, which has an else of its own. -/
def gotoOrElse : ParseNode :=
  sketchAt "if_statement" true 12 31
    [sketchAt "if" false 12 14 [], sketchAt "identifier" true 15 16 [],
      sketchAt "goto_statement" true 17 24 [sketchAt "goto" false 17 21 []],
      sketchAt "else" false 24 28 [], sketchAt "expression_statement" true 29 31 []]

/-- An if with two else parts, where a jump follows the second condition. -/
def elseIfGoto : ParseNode :=
  sketchAt "if_statement" true 0 31
    [sketchAt "if" false 0 2 [], sketchAt "identifier" true 3 4 [],
      sketchAt "expression_statement" true 5 7 [], sketchAt "else" false 7 11 [], gotoOrElse]

theorem elseIfs_cost_nesting_once_elseIfGoto :
    let created := create elseIfGotoSource elseIfGoto
    elseIfGoto.ElseIfs elseIfGotoSource 2 [gotoOrElse] ∧
      ¬ created.2.IsAlternative created.1 ∧
      ∃ clauses ifs, ElseChain created.1 clauses ifs ∧ clauses.length = 2 ∧
        ∃ visit ∈ created.2.scoringVisits created.1 none, visit.node = created.1 ∧
          CostsNestingOnce created.2 created.1 none created.1 clauses ifs visit.before.nesting := by
  intro created
  have ifs : (sketchAt "if" false 0 2 []).spells elseIfGotoSource "else" = false ∧
      (sketchAt "if" false 12 14 []).spells elseIfGotoSource "else" = false := by decide +kernel
  have elses : (sketchAt "else" false 7 11 []).spells elseIfGotoSource "else" = true ∧
      (sketchAt "else" false 24 28 []).spells elseIfGotoSource "else" = true := by decide +kernel
  have named : ∀ type startByte endByte children,
      (sketchAt type true startByte endByte children).spells elseIfGotoSource "else" = false :=
    fun _ _ _ _ => rfl
  have last : gotoOrElse.ElseIfs elseIfGotoSource 1 [] := by
    refine @ParseNode.ElseIfs.last _ _ (sketchAt "else" false 24 28 [])
      _ [sketchAt "expression_statement" true 29 31 []] (by decide) ?_ rfl (by decide)
    rw [gotoOrElse, children_sketchAt]
    simp [ifs, elses, named]
  have chain : elseIfGoto.ElseIfs elseIfGotoSource 2 [gotoOrElse] := by
    refine @ParseNode.ElseIfs.further _ _ (sketchAt "else" false 7 11 []) _ [gotoOrElse] _ _
      (by decide) ?_ rfl last
    rw [elseIfGoto, children_sketchAt]
    simp [ifs, elses, named]
  obtain ⟨-, costs⟩ :=
    elseIfs_cost_nesting_once elseIfGotoSource elseIfGoto elseIfGoto 2 [gotoOrElse] chain
  have shape := shape_create_eq_convert elseIfGotoSource elseIfGoto
  have notAlternative : ¬ created.2.IsAlternative created.1 := by
    rw [Forest.IsAlternative, parent?_create_root]
    simp
  have inTree := Node.self_mem_preorder created.1
  obtain ⟨clauses, ifs, isChain, length, -, -, once⟩ :=
    costs created.1 inTree none shape notAlternative
  have visited := inTree
  rw [← Forest.map_node_scoringVisits created.2 created.1 none] at visited
  obtain ⟨visit, isVisit, arrives⟩ := List.mem_map.mp visited
  exact ⟨chain, notAlternative, clauses, ifs, isChain, length, visit, isVisit, arrives,
    once created.1 inTree none visit isVisit arrives⟩

end Grammar

end CodeMetrics
