import CodeMetrics.Tree.Forest

/-!
# Laying out a tree

A tree is built leaf by leaf together with its source text. Leaves stand in the order in which they
are made, one space apart unless the text so far ends a line, and every span is read off the cursor.
-/

namespace CodeMetrics

/-- The text laid out so far, the cursor behind it, and the nodes made so far. -/
structure Layout where
  forest : Forest
  source : String
  byte : Nat
  line : Nat
  column : Nat
  /-- The next leaf is set off by a space. -/
  spaced : Bool

namespace Layout

/-- Nothing laid out yet. -/
def start : Layout where
  forest := .empty
  source := ""
  byte := 0
  line := 1
  column := 0
  spaced := false

/-- The line and column after one more character. -/
def advance (position : Nat × Nat) (character : Char) : Nat × Nat :=
  if character = '\n' then (position.1 + 1, 0) else (position.1, position.2 + 1)

/-- Write text at the cursor. -/
def emit (layout : Layout) (text : String) : Layout :=
  let position := text.toList.foldl advance (layout.line, layout.column)
  { layout with
    source := layout.source ++ text
    byte := layout.byte + text.utf8ByteSize
    line := position.1
    column := position.2
    spaced := text.toList.getLast? != some '\n' }

/-- End the line. -/
def newline (layout : Layout) : Layout := layout.emit "\n"

/-- The text so far, with the space that sets off the next leaf. -/
def separate (layout : Layout) : Layout :=
  if layout.spaced then layout.emit " " else layout

/-- The span between two states of the cursor. -/
def spanTo (before after : Layout) : Span where
  startByte := before.byte
  endByte := after.byte
  startLine := before.line
  startColumn := before.column
  endLine := after.line
  endColumn := after.column

/-- Create a node with attributes of its own. -/
def place (layout : Layout) (attributes : Attributes) (children : List Vertex) :
    Vertex × Layout :=
  let added := layout.forest.add attributes children
  (added.1, { layout with forest := added.2 })

/-- Write a leaf. -/
def leaf (layout : Layout) (kind : Kind) (text : String) (field : Option String)
    (grammarType : String) : Vertex × Layout :=
  let before := layout.separate
  let after := before.emit text
  after.place (.of kind (before.spanTo after) (some text) field grammarType) []

/-- Write an anonymous token. -/
def token (layout : Layout) (text : String) (field : Option String) : Vertex × Layout :=
  layout.leaf .token text field ""

/-- Write an identifier. -/
def identifier (layout : Layout) (text : String) (field : Option String) : Vertex × Layout :=
  layout.leaf .identifier text field ""

/-- The span of the children, or the empty span at the cursor. -/
def spanOf (layout : Layout) (children : List Vertex) : Span :=
  match children.head?, children.getLast? with
  | some first, some last => first.span.join last.span
  | _, _ => layout.spanTo layout

/-- Put a node over its children. -/
def inner (layout : Layout) (kind : Kind) (children : List Vertex) (field : Option String)
    (grammarType : String) : Vertex × Layout :=
  layout.place (.of kind (layout.spanOf children) none field grammarType) children

/-- The finished text with the tree under `root`. -/
def finish (layout : Layout) (root : Vertex) (language : Option String)
    (filePath : Option String) : Document :=
  .ofTree (root, layout.forest) (language.getD "csharp") layout.source
    (filePath.getD "<built>")

end Layout

end CodeMetrics
