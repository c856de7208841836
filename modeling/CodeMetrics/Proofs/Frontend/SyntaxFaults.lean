import CodeMetrics.Proofs.Frontend.History
import CodeMetrics.Proofs.Grammar.Traversal

/-!
# The syntax errors of a parsed text

The search for syntax errors does not go below a node that says it has none. If every node over a
fault says so, nothing is missed: the reported errors are the faults of the whole tree in pre-order,
and a text without errors is one whose tree has no fault.
-/

namespace CodeMetrics

/-! ## The search -/

namespace ParseNode

/-- Every part of the tree that has a fault in it says so. -/
def Flagged (root : ParseNode) : Prop :=
  ∀ node ∈ root.parts, ∀ inner ∈ node.parts, inner.isFault → node.construct.hasError

/-- What is below a flagged node is flagged. -/
theorem Flagged.child {node child : ParseNode} (flagged : node.Flagged)
    (held : child ∈ node.children) : child.Flagged := by
  intro part inChild
  apply flagged part
  rw [parts_eq]
  exact List.mem_cons_of_mem node (mem_partsAll.mpr ⟨child, held, inChild⟩)

/-- There is no fault in a flagged tree that says it has none. -/
theorem Flagged.filter_parts_eq_nil {node : ParseNode} (flagged : node.Flagged)
    (sound : node.construct.hasError = false) : node.parts.filter isFault = [] := by
  apply List.filter_eq_nil_iff.mpr
  intro inner inside isFault
  simpa [sound] using flagged node node.self_mem_parts inner inside isFault

mutual

/-- A flagged tree on top of the stack leaves its faults, and the stack below it. -/
theorem faultsOn_node : (node : ParseNode) → node.Flagged → (stack : List ParseNode) →
    faultsOn (node :: stack) = node.parts.filter isFault ++ faultsOn stack
  | .mk construct nodes, flagged, stack => by
      have below : faultsOn ((if construct.hasError then nodes else []) ++ stack) =
          (partsAll nodes).filter isFault ++ faultsOn stack := by
        cases marked : construct.hasError with
        | true => exact faultsOn_nodes nodes (fun _ held => flagged.child held) stack
        | false =>
            have sound := flagged.filter_parts_eq_nil marked
            rw [parts, List.filter_eq_nil_iff, List.forall_mem_cons] at sound
            rw [List.filter_eq_nil_iff.mpr sound.2]
            rfl
      rw [faultsOn, ParseNode.construct, children, below, parts, List.filter_cons]
      split <;> rfl

theorem faultsOn_nodes : (nodes : List ParseNode) → (∀ node ∈ nodes, node.Flagged) →
    (stack : List ParseNode) →
    faultsOn (nodes ++ stack) = (partsAll nodes).filter isFault ++ faultsOn stack
  | [], _, _ => rfl
  | node :: nodes, flagged, stack => by
      rw [List.forall_mem_cons] at flagged
      rw [List.cons_append, faultsOn_node node flagged.1, faultsOn_nodes nodes flagged.2, partsAll,
        List.filter_append, List.append_assoc]

end

/-- In a flagged tree the search finds every fault. -/
theorem faults_eq {root : ParseNode} (flagged : root.Flagged) :
    root.faults = root.parts.filter isFault := by
  cases marked : root.construct.hasError with
  | true =>
      rw [faults, if_pos marked, faultsOn_node root flagged, faultsOn]
      exact List.append_nil _
  | false => rw [faults, if_neg (by simp [marked]), flagged.filter_parts_eq_nil marked]

end ParseNode

/-! ## Accepted records -/

namespace Checked

variable {α β : Type}

theorem map_eq_ok_iff {change : α → β} {checked : Checked α} {result : β} :
    checked.map change = .ok result ↔ ∃ value, checked = .ok value ∧ change value = result := by
  cases checked <;> simp [map]

/-- Two parts are accepted together exactly if each of them is. -/
theorem ap_eq_ok_iff {function : Checked (α → β)} {checked : Checked α} {result : β} :
    function.ap checked = .ok result ↔
      ∃ apply value, function = .ok apply ∧ checked = .ok value ∧ apply value = result := by
  cases function <;> cases checked <;> simp [ap]

theorem close_eq_ok_iff {record : String} {checked : Checked α} {value : α} :
    checked.close record = .ok value ↔ checked = .ok value := by
  cases checked <;> simp [close]

end Checked

theorem Reader.integerFrom_eq_ok_iff {bound number value : Int} :
    integerFrom bound (.integer number) = .ok value ↔ bound ≤ number ∧ number = value := by
  change (if bound ≤ number then .ok number else Checked.fail (.below bound)) = _ ↔ _
  split
  · simp [*]
  · simp [Checked.fail, *]

theorem Reader.required_eq_ok_iff {α : Type} {entries : List (String × Value)} {name : String}
    {value : Value} {read : Value → Checked α} {item : α}
    (written : Value.get? name entries = some value) :
    required entries name read = .ok item ↔ read value = .ok item := by
  simp only [required, written]
  cases read value <;> simp [Checked.under]

/-! ## The report -/

namespace SyntaxFault

/-- The error that a node stands for, its line and column counted from one. -/
def ofFault (node : ParseNode) : SyntaxFault where
  line := node.construct.start.row + 1
  column := node.construct.start.column + 1
  missing := node.construct.isMissing

/-- The node starts at a row and a column from zero up, as every place in a text does. -/
def Placed (node : ParseNode) : Prop :=
  0 ≤ node.construct.start.row ∧ 0 ≤ node.construct.start.column

theorem ofNode_eq {node : ParseNode} (placed : Placed node) : ofNode node = .ok (ofFault node) := by
  obtain ⟨row, start⟩ := placed
  have line : 1 ≤ node.construct.start.row + 1 := by omega
  have column : 1 ≤ node.construct.start.column + 1 := by omega
  rw [ofNode, read, Reader.required_eq rfl (Reader.integerFrom_eq line),
    Reader.required_eq rfl (Reader.integerFrom_eq column)]
  rfl

/-- A node is accepted as an error exactly if it has such a place. -/
theorem ofNode_eq_ok_iff {node : ParseNode} {fault : SyntaxFault} :
    ofNode node = .ok fault ↔ Placed node ∧ fault = ofFault node := by
  constructor
  · intro accepted
    have placed : Placed node := by
      rw [ofNode, read, Checked.close_eq_ok_iff] at accepted
      obtain ⟨_, _, earlier, -, -⟩ := Checked.ap_eq_ok_iff.mp accepted
      obtain ⟨_, _, first, isColumn, -⟩ := Checked.ap_eq_ok_iff.mp earlier
      obtain ⟨_, isLine, -⟩ := Checked.map_eq_ok_iff.mp first
      have line := (Reader.integerFrom_eq_ok_iff.mp ((Reader.required_eq_ok_iff rfl).mp isLine)).1
      have column :=
        (Reader.integerFrom_eq_ok_iff.mp ((Reader.required_eq_ok_iff rfl).mp isColumn)).1
      exact ⟨by omega, by omega⟩
    exact ⟨placed, Except.ok.inj (accepted.symm.trans (ofNode_eq placed))⟩
  · rintro ⟨placed, rfl⟩
    exact ofNode_eq placed

theorem ofNodes_eq_ok_iff {nodes : List ParseNode} {faults : List SyntaxFault} :
    ofNodes nodes = .ok faults ↔ (∀ node ∈ nodes, Placed node) ∧ faults = nodes.map ofFault := by
  induction nodes generalizing faults with
  | nil => simp [ofNodes, eq_comm]
  | cons node nodes induction =>
      have step : ofNodes (node :: nodes) = .ok faults ↔
          ∃ first rest, ofNode node = .ok first ∧ ofNodes nodes = .ok rest ∧
            faults = first :: rest := by
        rw [ofNodes]
        cases ofNode node with
        | error rejection => simp [bind, Except.bind]
        | ok first =>
            cases ofNodes nodes with
            | error rejection => simp [bind, Except.bind]
            | ok rest => simp [bind, Except.bind, pure, Except.pure, eq_comm]
      rw [step, List.forall_mem_cons]
      simp only [ofNode_eq_ok_iff, induction, List.map_cons]
      constructor
      · rintro ⟨_, _, ⟨placed, rfl⟩, ⟨others, rfl⟩, rfl⟩
        exact ⟨⟨placed, others⟩, rfl⟩
      · rintro ⟨⟨placed, others⟩, rfl⟩
        exact ⟨_, _, ⟨placed, rfl⟩, ⟨others, rfl⟩, rfl⟩

end SyntaxFault

namespace Parser

/-- A text that has a tree is parsed to it exactly if its faults are accepted as errors. -/
theorem parseDocument_eq_ok_iff {parser : Parser} {text path name : String} {treeOf : Grammar}
    {tree : ParseNode} {result : ParseResult}
    (found : parser.grammars.lookup name.toLower = some treeOf)
    (isTree : treeOf text.toUTF8.toList = some tree) :
    (parser.parseDocument text path name).1 = .ok result ↔
      result.document = documentOf text path tree ∧
        SyntaxFault.ofNodes tree.faults = .ok result.errors := by
  obtain ⟨document, errors⟩ := result
  cases accepted : SyntaxFault.ofNodes tree.faults with
  | ok faults =>
      rw [parseDocument_of_tree found isTree accepted]
      simp [eq_comm]
  | error rejection =>
      have refused : parser.parse text path name = .error (.rejected rejection) := by
        simp only [parse, found, isTree, accepted]
        rfl
      simp [parseDocument, refused]

/-- The errors of a text whose tree is flagged. There is a result exactly if every fault has a place
that a text can have. The errors are then those of all parts of the tree that are faults, each of them
once and in pre-order, and the text is parsed with success exactly if there is no such part. -/
theorem errors_are_all_faults {parser : Parser} {grammar : Option Grammar} {text : String}
    {filePath language : Option String} {name : String} {treeOf : Grammar} {tree : ParseNode}
    (determined : Determines filePath language name)
    (found : (parser.load grammar).grammars.lookup name.toLower = some treeOf)
    (isTree : treeOf text.toUTF8.toList = some tree) (flagged : tree.Flagged) :
    ((∃ result, (parser.parseSource grammar text filePath language).outcome = .ok result) ↔
      ∀ node ∈ tree.parts, node.isFault → SyntaxFault.Placed node) ∧
    ∀ result, (parser.parseSource grammar text filePath language).outcome = .ok result →
      result.errors = (tree.parts.filter ParseNode.isFault).map SyntaxFault.ofFault ∧
      (result.success ↔ ∀ node ∈ tree.parts, ¬ node.isFault) := by
  have outcome : ∀ result,
      (parser.parseSource grammar text filePath language).outcome = .ok result ↔
        result.document = documentOf text (pathOr filePath) tree ∧
        (∀ node ∈ tree.parts, node.isFault → SyntaxFault.Placed node) ∧
        result.errors = (tree.parts.filter ParseNode.isFault).map SyntaxFault.ofFault := by
    intro result
    rw [outcome_parseSource (languageFor?_eq_some_iff.mpr determined),
      parseDocument_eq_ok_iff found isTree, SyntaxFault.ofNodes_eq_ok_iff,
      ParseNode.faults_eq flagged]
    simp only [List.mem_filter, and_imp]
  constructor
  · constructor
    · rintro ⟨result, parsed⟩
      exact ((outcome result).mp parsed).2.1
    · intro placed
      exact ⟨⟨_, _⟩, (outcome _).mpr ⟨rfl, placed, rfl⟩⟩
  · intro result parsed
    obtain ⟨-, -, errors⟩ := (outcome result).mp parsed
    refine ⟨errors, ?_⟩
    rw [ParseResult.success, errors, List.isEmpty_iff, List.map_eq_nil_iff,
      List.filter_eq_nil_iff]

/-- A node of a parse tree at the given place. -/
def nodeAt (type : String) (isMissing isError hasError : Bool) (row column : Int)
    (children : List ParseNode) : ParseNode :=
  .mk ⟨type, true, isMissing, isError, hasError, none, 0, 0, ⟨row, column⟩, ⟨row, column⟩⟩ children

/-- A tree with an error inside another, and a missing part after a sound one. -/
def nestedFaults : ParseNode :=
  nodeAt "compilation_unit" false false true 0 0
    [nodeAt "ERROR" false true true 0 0
      [nodeAt "identifier" false false false 0 0 [], nodeAt "ERROR" false true true 0 2 []],
      nodeAt "block" false false false 1 0 [nodeAt "identifier" false false false 1 1 []],
      nodeAt "block" false false true 2 0 [nodeAt "identifier" true false true 2 4 []]]

theorem errors_are_all_faults_nestedFaults :
    nestedFaults.Flagged ∧ ∃ result,
      (new.parseSource (some fun _ => some nestedFaults) "f((" none (some "CSharp")).outcome =
        .ok result ∧
      result.errors = [⟨1, 1, false⟩, ⟨1, 3, false⟩, ⟨3, 5, true⟩] ∧ result.success = false := by
  have flagged : nestedFaults.Flagged := by
    unfold ParseNode.Flagged
    decide +kernel
  have found : (new.load (some fun _ => some nestedFaults)).grammars.lookup "CSharp".toLower =
      some fun _ => some nestedFaults :=
    (lookup_load_new _ _).trans (if_pos (by decide +kernel))
  have placed : ∀ node ∈ nestedFaults.parts, node.isFault → SyntaxFault.Placed node := by
    unfold SyntaxFault.Placed
    decide +kernel
  have isTree : (fun _ => some nestedFaults) "f((".toUTF8.toList = some nestedFaults := rfl
  obtain ⟨given, reported⟩ :=
    errors_are_all_faults (.named rfl (by decide)) found isTree flagged
  obtain ⟨result, parsed⟩ := given.mpr placed
  obtain ⟨errors, -⟩ := reported result parsed
  have listed : result.errors = [⟨1, 1, false⟩, ⟨1, 3, false⟩, ⟨3, 5, true⟩] :=
    errors.trans (by decide +kernel)
  exact ⟨flagged, result, parsed, listed, by rw [ParseResult.success, listed]; rfl⟩

end Parser

end CodeMetrics
