import CodeMetrics.Grammar.Cursor
import CodeMetrics.Grammar.ParseNode
import CodeMetrics.Grammar.Wrapping
import CodeMetrics.Log.Event
import CodeMetrics.Text.Utf8

/-!
# Normal form of a parse tree

Each node of a parse tree becomes one node, with its kind read off its type, its operator or its text.
Leaves take their text from the source bytes. Else clauses and switch labels are grouped. Marks may
tell the nodes that were read from the nodes that were put in; the normal form itself has none.
-/

namespace CodeMetrics

namespace Grammar

variable {ι : Type}

/-! ## Text -/

/-- An offset into so many bytes: beyond the end it is the end, and below zero it counts from there. -/
def clipOffset (length : Nat) (offset : Int) : Nat :=
  if offset < 0 then (length + offset).toNat else min offset.toNat length

/-- The bytes between two offsets. -/
def slice (source : List UInt8) (start stop : Int) : List UInt8 :=
  let first := clipOffset source.length start
  (source.drop first).take (clipOffset source.length stop - first)

/-- The source text of a construct. -/
def textOf (source : List UInt8) (construct : Construct) : String :=
  Text.decodeUtf8Lenient (slice source construct.startByte construct.endByte)

/-! ## Nodes -/

/-- The kind of a construct over converted children. -/
def kindOf (source : List UInt8) (construct : Construct) (children : List (Node ι)) : Kind :=
  if !construct.isNamed then .token
  else if construct.type = "comment" then kindOfComment (textOf source construct)
  else if construct.type = "binary_expression" then
    kindOfOperator ((children.find? fun child => child.field == some "operator").bind Node.text)
  else kindOfType construct.type

/-- The children of a node of the given kind, grouped. -/
def wrapChildren (inserted : ι) (kind : Kind) (children : List (Node ι)) : List (Node ι) :=
  if kind = .ifStatement then wrapElse inserted children
  else if kind = .switchSection then wrapLabels inserted children
  else children

/-- One node over its converted children, with the mark that `read` gives it. -/
def convertMarked (read : Construct → ι) (inserted : ι) (source : List UInt8)
    (construct : Construct) (field : Option String) (children : List (Node ι)) : Node ι :=
  let kind := kindOf source construct children
  if children.isEmpty then
    .mk (read construct)
      (.of kind construct.span (some (textOf source construct)) field construct.type) []
  else
    .mk (read construct) (.of kind construct.span none field construct.type)
      (wrapChildren inserted kind children)

/-- One node over its converted children. -/
def convertNode (source : List UInt8) : Build Shape := convertMarked (fun _ => ()) () source

/-- A tree in the given slot, converted from the leaves up. -/
def convert (source : List UInt8) (field : Option String) (node : ParseNode) : Shape :=
  node.fold (convertNode source) field

/-- The normal form of a parse tree, built with a cursor. -/
def normalize (source : List UInt8) (root : ParseNode) : Shape :=
  root.traversed (convertNode source)

/-! ## Labels without an end -/

/-- The numbers of parts of the unfinished label of a node, if it has one. -/
def unfinishedAt (source : List UInt8) (construct : Construct) (children : List Shape) : List Nat :=
  if kindOf source construct children = .switchSection then
    let parts := unfinishedLabel children
    if parts.isEmpty then [] else [parts.length]
  else []

/-- One node over its converted children, with the numbers of parts of all unfinished labels in its
tree, those of the children first. -/
def convertNoting (source : List UInt8) (construct : Construct) (field : Option String)
    (children : List (Shape × List Nat)) : Shape × List Nat :=
  let shapes := children.map Prod.fst
  (convertNode source construct field shapes,
    children.flatMap Prod.snd ++ unfinishedAt source construct shapes)

/-- The numbers of parts of all unfinished labels of a tree. -/
def unfinished (source : List UInt8) (root : ParseNode) : List Nat :=
  (root.fold (convertNoting source) none).2

/-- What an unfinished label leaves in the log. -/
def unfinishedEvent (parts : Nat) : Event where
  level := .debug
  message := "Unterminated switch label"
  fields := [("tokens", .integer parts)]

end Grammar

end CodeMetrics
