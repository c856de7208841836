import CodeMetrics.Frontend.Parser
import CodeMetrics.Proofs.Grammar.Pregrouping
import CodeMetrics.Proofs.Text.Utf8RoundTrip
import CodeMetrics.Proofs.Tree.Navigation

/-!
# The texts of leaves

A parse tree need not fit its source. If its leaves do, lying one after the other between characters
of the source, then each leaf of the document has the text that stands at its place, and with what
stands between them the leaves make up the source again.
-/

namespace CodeMetrics

/-! ## Stretches of a text -/

namespace Text

/-- The offset lies between two characters of the text, at its start or at its end. -/
def Boundary (text : String) (offset : Int) : Prop :=
  ∃ before after : String, text = before ++ after ∧ offset = before.utf8ByteSize

theorem length_encoded (characters : List Char) :
    (encoded characters).length = (String.ofList characters).utf8ByteSize := by
  rw [String.utf8ByteSize, String.toByteArray_ofList, List.utf8Encode, List.size_toByteArray]
  rfl

/-- The characters before a boundary. -/
theorem boundary_iff {text : String} {offset : Int} :
    Boundary text offset ↔
      ∃ before after, text.toList = before ++ after ∧ offset = (encoded before).length := by
  constructor
  · rintro ⟨before, after, rfl, rfl⟩
    refine ⟨before.toList, after.toList, String.toList_append, ?_⟩
    rw [length_encoded, String.ofList_toList]
  · rintro ⟨before, after, split, rfl⟩
    refine ⟨String.ofList before, String.ofList after, ?_, by rw [length_encoded]⟩
    rw [← String.ofList_append, ← split, String.ofList_toList]

theorem boundary_take (text : String) (count : Nat) :
    Boundary text (encoded (text.toList.take count)).length :=
  boundary_iff.mpr ⟨_, text.toList.drop count, (List.take_append_drop count _).symm, rfl⟩

theorem boundary_zero (text : String) : Boundary text 0 := boundary_take text 0

theorem boundary_length (text : String) : Boundary text text.toUTF8.toList.length := by
  have whole := boundary_take text text.toList.length
  rwa [List.take_length, ← toList_toUTF8] at whole

theorem Boundary.le_length {text : String} {offset : Int} (boundary : Boundary text offset) :
    offset ≤ text.toUTF8.toList.length := by
  obtain ⟨before, after, split, rfl⟩ := boundary_iff.mp boundary
  rw [toList_toUTF8, split, encoded_append, List.length_append]
  omega

/-- Two boundaries in order cut the text in three. -/
theorem exists_between {text : String} {start stop : Int} (starts : Boundary text start)
    (stops : Boundary text stop) (forward : start ≤ stop) :
    ∃ before middle after, text.toList = before ++ middle ++ after ∧
      start = (encoded before).length ∧
      stop = (encoded before).length + (encoded middle).length := by
  obtain ⟨before, rest, split, rfl⟩ := boundary_iff.mp starts
  obtain ⟨longer, after, other, rfl⟩ := boundary_iff.mp stops
  rcases List.append_eq_append_iff.mp (split.symm.trans other) with
    ⟨middle, rfl, rfl⟩ | ⟨extra, rfl, rfl⟩
  · refine ⟨before, middle, after, other, rfl, ?_⟩
    rw [encoded_append, List.length_append, Int.natCast_add]
  · refine ⟨longer ++ extra, [], rest, by simpa using split, rfl, ?_⟩
    simp only [encoded_append, encoded_nil, List.length_append, List.length_nil] at forward ⊢
    omega

end Text

namespace Grammar

theorem clipOffset_natCast (length offset : Nat) :
    clipOffset length offset = min offset length := by
  rw [clipOffset, if_neg (by omega), Int.toNat_natCast]

/-- The bytes from the end of some bytes to the end of others. -/
theorem slice_append (before middle after : List UInt8) :
    slice (before ++ middle ++ after) before.length (before.length + middle.length) = middle := by
  rw [slice, ← Int.natCast_add, clipOffset_natCast, clipOffset_natCast]
  simp

/-- The text between two offsets, bytes that are no text replaced. -/
def textBetween (bytes : List UInt8) (start stop : Int) : String :=
  Text.decodeUtf8Lenient (slice bytes start stop)

/-- Between two boundaries of the source stands an encoded text. -/
theorem exists_slice_eq {source : String} {start stop : Int} (starts : Text.Boundary source start)
    (stops : Text.Boundary source stop) (forward : start ≤ stop) :
    ∃ before characters after,
      source.toUTF8.toList = before ++ Text.encoded characters ++ after ∧
      start = before.length ∧ stop = before.length + (Text.encoded characters).length ∧
      textBetween source.toUTF8.toList start stop = String.ofList characters := by
  obtain ⟨before, middle, after, split, rfl, rfl⟩ := Text.exists_between starts stops forward
  have bytes : source.toUTF8.toList =
      Text.encoded before ++ Text.encoded middle ++ Text.encoded after := by
    rw [Text.toList_toUTF8, split, Text.encoded_append, Text.encoded_append]
  refine ⟨_, middle, _, bytes, rfl, rfl, ?_⟩
  rw [textBetween, bytes, slice_append, Text.decodeUtf8Lenient_encoded]

/-- Adjoining stretches of the source make up one. -/
theorem textBetween_append {source : String} {start middle stop : Int}
    (starts : Text.Boundary source start) (cuts : Text.Boundary source middle)
    (stops : Text.Boundary source stop) (first : start ≤ middle) (second : middle ≤ stop) :
    textBetween source.toUTF8.toList start middle ++ textBetween source.toUTF8.toList middle stop =
      textBetween source.toUTF8.toList start stop := by
  obtain ⟨before, left, rest, bytes, rfl, rfl, isLeft⟩ := exists_slice_eq starts cuts first
  obtain ⟨passed, right, after, others, cut, rfl, isRight⟩ := exists_slice_eq cuts stops second
  have lengths : (before ++ Text.encoded left).length = passed.length := by
    rw [List.length_append]
    omega
  obtain ⟨rfl, rfl⟩ := List.append_inj
    (bytes.symm.trans (others.trans (List.append_assoc ..))) lengths
  have whole : source.toUTF8.toList =
      before ++ Text.encoded (left ++ right) ++ after := by
    rw [others, Text.encoded_append, ← List.append_assoc]
  have stop : ((before ++ Text.encoded left).length : Int) + (Text.encoded right).length =
      before.length + (Text.encoded (left ++ right)).length := by
    simp only [Text.encoded_append, List.length_append]
    omega
  rw [isLeft, isRight, textBetween, whole, stop, slice_append, Text.decodeUtf8Lenient_encoded,
    String.ofList_append]

theorem textBetween_whole (source : String) :
    textBetween source.toUTF8.toList 0 source.toUTF8.toList.length = source := by
  have whole := slice_append [] source.toUTF8.toList []
  rw [List.nil_append, List.append_nil, List.length_nil, Int.natCast_zero, Int.zero_add] at whole
  rw [textBetween, whole, Text.toList_toUTF8, Text.decodeUtf8Lenient_encoded, String.ofList_toList]

end Grammar

/-! ## Leaves -/

/-- The leaves of a parse tree, in document order. -/
def ParseNode.leaves (node : ParseNode) : List ParseNode :=
  node.parts.filter fun part => part.children.isEmpty

/-- The place of a node and its text. -/
def Node.excerpt {ι : Type} (node : Node ι) : Span × Option String := (node.span, node.text)

theorem Node.map_excerpt_leaves_shape {ι : Type} (node : Node ι) :
    node.shape.leaves.map excerpt = node.leaves.map excerpt := by
  have sameLeaf : isLeaf ∘ shape = (isLeaf : Node ι → Bool) := by
    funext inner
    simp [isLeaf]
  have sameExcerpt : excerpt ∘ shape = (excerpt : Node ι → Span × Option String) := by
    funext inner
    simp [excerpt]
  rw [leaves_eq, leaves_eq, preorder_shape, List.filter_map, sameLeaf, List.map_map, sameExcerpt]

namespace Grammar

/-- The place of a construct and the text that the source has there. -/
def excerptOf (source : List UInt8) (node : ParseNode) : Span × Option String :=
  (node.construct.span, some (textOf source node.construct))

theorem Grouped.filter_isLeaf {ι : Type} {inserted : ι} {nodes grouped : List (Node ι)}
    (isGrouped : Grouped inserted nodes grouped) :
    (Node.preorderAll grouped).filter Node.isLeaf =
      (Node.preorderAll nodes).filter Node.isLeaf := by
  induction isGrouped with
  | nil => rfl
  | keep node _ induction =>
      rw [Node.preorderAll, Node.preorderAll, List.filter_append, List.filter_append, induction]
  | wrap kind field grammarType first rest _ induction =>
      -- A wrapper holds at least the first node of its group, so it is no leaf itself.
      rw [Node.preorderAll, Node.preorderAll_append, List.filter_append, List.filter_append,
        induction, Node.preorder_eq, List.filter_cons_of_neg (by simp [Node.isLeaf, wrapper])]
      rfl

theorem Grouped.isEmpty_eq {ι : Type} {inserted : ι} {nodes grouped : List (Node ι)}
    (isGrouped : Grouped inserted nodes grouped) : grouped.isEmpty = nodes.isEmpty := by
  cases isGrouped <;> rfl

section

variable (source : List UInt8)

mutual

/-- The leaves of a converted tree are those of the parse tree. -/
theorem excerpts_convert : (node : ParseNode) → (field : Option String) →
    ((convert source field node).preorder.filter Node.isLeaf).map Node.excerpt =
      node.leaves.map (excerptOf source)
  | .mk construct children, field => by
      have below := excerpts_converted children
      rw [convert_eq, ParseNode.children, ParseNode.construct]
      generalize kindOf source construct (children.map (converted source)) = kind
      have grouped := grouped_wrapChildren () kind (children.map (converted source))
      rw [Node.preorder, List.filter_cons, Node.isLeaf, Node.children_mk, grouped.isEmpty_eq,
        List.isEmpty_map, grouped.filter_isLeaf, ParseNode.leaves, ParseNode.parts,
        List.filter_cons, ParseNode.children]
      cases children.isEmpty with
      | false => exact below
      | true => exact congrArg (excerptOf source (.mk construct children) :: ·) below

theorem excerpts_converted : (nodes : List ParseNode) →
    ((Node.preorderAll (nodes.map (converted source))).filter Node.isLeaf).map Node.excerpt =
      ((ParseNode.partsAll nodes).filter fun part => part.children.isEmpty).map (excerptOf source)
  | [] => rfl
  | node :: nodes => by
      rw [List.map_cons, Node.preorderAll, ParseNode.partsAll, List.filter_append,
        List.filter_append, List.map_append, List.map_append, converted,
        excerpts_convert node node.construct.field, excerpts_converted nodes, ParseNode.leaves]

end

end

/-- The leaves of the document are the leaves of the parse tree, each with the text at its place. -/
theorem excerpts_documentOf (source filePath : String) (tree : ParseNode) :
    (Parser.documentOf source filePath tree).root.leaves.map Node.excerpt =
      tree.leaves.map (excerptOf source.toUTF8.toList) := by
  have shape : (Parser.documentOf source filePath tree).root.shape =
      convert source.toUTF8.toList none tree := by
    exact (shape_create _ tree).trans (ParseNode.traversed_eq_fold _ tree)
  rw [← Node.map_excerpt_leaves_shape, shape, Node.leaves_eq, excerpts_convert]

/-! ## Leaves that fit their source -/

/-- The nodes lie in the source one after the other, each from a boundary to a boundary. -/
structure LieIn (source : String) (nodes : List ParseNode) : Prop where
  starts : ∀ node ∈ nodes, Text.Boundary source node.construct.startByte
  stops : ∀ node ∈ nodes, Text.Boundary source node.construct.endByte
  forward : ∀ node ∈ nodes, node.construct.startByte ≤ node.construct.endByte
  ordered : nodes.Pairwise fun first second =>
    first.construct.endByte ≤ second.construct.startByte

theorem LieIn.tail {source : String} {node : ParseNode} {nodes : List ParseNode}
    (lie : LieIn source (node :: nodes)) : LieIn source nodes where
  starts := (List.forall_mem_cons.mp lie.starts).2
  stops := (List.forall_mem_cons.mp lie.stops).2
  forward := (List.forall_mem_cons.mp lie.forward).2
  ordered := lie.ordered.tail

/-- Texts at their places, with what the bytes have before, between and after them. -/
def interleaved (bytes : List UInt8) (offset : Int) : List (Span × Option String) → String
  | [] => textBetween bytes offset bytes.length
  | (span, text) :: excerpts =>
      textBetween bytes offset span.startByte ++ text.getD "" ++
        interleaved bytes span.endByte excerpts

theorem interleaved_cons (bytes : List UInt8) (offset : Int) (node : ParseNode)
    (excerpts : List (Span × Option String)) :
    interleaved bytes offset (excerptOf bytes node :: excerpts) =
      textBetween bytes offset node.construct.startByte ++
        textBetween bytes node.construct.startByte node.construct.endByte ++
        interleaved bytes node.construct.endByte excerpts := rfl

/-- From a boundary in front of the nodes, their texts and the rest make up what the source has from
there on. -/
theorem interleaved_eq {source : String} {nodes : List ParseNode} (lie : LieIn source nodes)
    {offset : Int} (here : Text.Boundary source offset)
    (ahead : ∀ node ∈ nodes, offset ≤ node.construct.startByte) :
    interleaved source.toUTF8.toList offset (nodes.map (excerptOf source.toUTF8.toList)) =
      textBetween source.toUTF8.toList offset source.toUTF8.toList.length := by
  induction nodes generalizing offset with
  | nil => rfl
  | cons node nodes induction =>
      have starts := lie.starts node List.mem_cons_self
      have stops := lie.stops node List.mem_cons_self
      have forward := lie.forward node List.mem_cons_self
      have before := ahead node List.mem_cons_self
      rw [List.map_cons, interleaved_cons,
        induction lie.tail stops (List.pairwise_cons.mp lie.ordered).1,
        textBetween_append here starts stops before forward,
        textBetween_append here stops (Text.boundary_length source) (Int.le_trans before forward)
          stops.le_length]

/-- If the leaves of a parse tree lie between characters of the source, one after the other, then
the leaves of the document are at the same places, each has the text that is encoded at its place,
and with what stands before, between and after them their texts make up the source. -/
theorem leaf_texts_make_up_source (source filePath : String) {tree : ParseNode}
    (lie : LieIn source tree.leaves) :
    let leaves := (Parser.documentOf source filePath tree).root.leaves
    leaves.map Node.span = tree.leaves.map (fun leaf => leaf.construct.span) ∧
      (∀ leaf ∈ leaves, ∃ text before after,
        leaf.text = some text ∧ source.toUTF8.toList = before ++ text.toUTF8.toList ++ after ∧
          leaf.span.startByte = before.length ∧
          leaf.span.endByte = before.length + text.toUTF8.toList.length) ∧
      interleaved source.toUTF8.toList 0 (leaves.map Node.excerpt) = source := by
  intro leaves
  have excerpts := excerpts_documentOf source filePath tree
  refine ⟨?_, ?_, ?_⟩
  · have spans := congrArg (List.map Prod.fst) excerpts
    rwa [List.map_map, List.map_map] at spans
  · intro leaf member
    obtain ⟨node, listed, same⟩ : ∃ node ∈ tree.leaves,
        excerptOf source.toUTF8.toList node = leaf.excerpt := by
      rw [← List.mem_map, ← excerpts]
      exact List.mem_map_of_mem member
    obtain ⟨span, text⟩ := Prod.mk.inj same
    obtain ⟨before, characters, after, bytes, start, stop, isText⟩ :=
      exists_slice_eq (lie.starts node listed) (lie.stops node listed) (lie.forward node listed)
    refine ⟨String.ofList characters, before, after, ?_, ?_⟩
    · rw [← text, ← isText]
      rfl
    · rw [← span, Text.toList_toUTF8 (String.ofList characters), String.toList_ofList]
      exact ⟨bytes, start, stop⟩
  · rw [excerpts, interleaved_eq lie (Text.boundary_zero source), textBetween_whole]
    intro node listed
    obtain ⟨before, after, -, start⟩ := lie.starts node listed
    omega

/-- The source text of `wideElse`. -/
def wideElseSource : String := "if é else 𝔸;"

/-- An if with an else, over characters of one, two and four bytes. -/
def wideElse : ParseNode :=
  sketchAt "if_statement" true 0 16
    [sketchAt "if" false 0 2 [], sketchAt "identifier" true 3 5 [], sketchAt "else" false 6 10 [],
      sketchAt "expression_statement" true 11 16
        [sketchAt "identifier" true 11 15 [], sketchAt ";" false 15 16 []]]

theorem leaf_texts_make_up_source_wideElse :
    LieIn wideElseSource wideElse.leaves ∧
      (Parser.documentOf wideElseSource "A.cs" wideElse).root.leaves.map Node.text =
        [some "if", some "é", some "else", some "𝔸", some ";"] ∧
      interleaved wideElseSource.toUTF8.toList 0
        ((Parser.documentOf wideElseSource "A.cs" wideElse).root.leaves.map Node.excerpt) =
          wideElseSource := by
  have lie : LieIn wideElseSource wideElse.leaves := by
    constructor
    · intro node listed
      have counted : ∀ node ∈ wideElse.leaves, ∃ count ∈ List.range 12, node.construct.startByte =
          (Text.encoded (wideElseSource.toList.take count)).length := by decide +kernel
      obtain ⟨count, -, start⟩ := counted node listed
      exact start ▸ Text.boundary_take wideElseSource count
    · intro node listed
      have counted : ∀ node ∈ wideElse.leaves, ∃ count ∈ List.range 13, node.construct.endByte =
          (Text.encoded (wideElseSource.toList.take count)).length := by decide +kernel
      obtain ⟨count, -, stop⟩ := counted node listed
      exact stop ▸ Text.boundary_take wideElseSource count
    · decide +kernel
    · decide +kernel
  exact ⟨lie, by decide +kernel, (leaf_texts_make_up_source wideElseSource "A.cs" lie).2.2⟩

end Grammar

end CodeMetrics
