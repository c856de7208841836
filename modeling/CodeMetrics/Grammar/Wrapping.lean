import CodeMetrics.Grammar.Vocabulary

/-!
# Grouping children

The grammar puts an else and its statement directly into the if, and the parts of a switch label
directly into the section. They are grouped here under nodes of their own, which get the mark
`inserted`.
-/

namespace CodeMetrics

namespace Grammar

variable {ι : Type}

/-- The node is a token with the given text. -/
def isTokenOf (text : String) (node : Node ι) : Bool := node.isToken && node.text == some text

/-- The span over a run of nodes. -/
def spanOver (first : Node ι) (rest : List (Node ι)) : Span :=
  first.span.join (rest.getLast?.getD first).span

/-- A node put over a run of nodes. -/
def wrapper (inserted : ι) (kind : Kind) (field : Option String) (grammarType : String)
    (first : Node ι) (rest : List (Node ι)) : Node ι :=
  .mk inserted (.of kind (spanOver first rest) none field grammarType) (first :: rest)

/-! ## Else clauses -/

/-- Group the first else token and all that follows it. -/
def wrapElse (inserted : ι) (children : List (Node ι)) : List (Node ι) :=
  match children.dropWhile fun child => !isTokenOf "else" child with
  | [] => children
  | first :: rest =>
      children.takeWhile (fun child => !isTokenOf "else" child) ++
        [wrapper inserted .elseClause (some "else") "else_clause" first rest]

/-! ## Switch labels -/

/-- The kinds of labels. -/
def isLabel (kind : Kind) : Bool :=
  kind = .caseLabel || kind = .casePatternLabel || kind = .defaultLabel

/-- The token opens a label. -/
def opensLabel (node : Node ι) : Bool := isTokenOf "case" node || isTokenOf "default" node

/-- The kind of a label with the given parts. -/
def labelKind (first : Node ι) (rest : List (Node ι)) : Kind :=
  if first.text = some "default" then .defaultLabel
  else if (first :: rest).any fun part => part.grammarType ∈ patternTypes then .casePatternLabel
  else .caseLabel

/-- A label over its parts. -/
def label (inserted : ι) (first : Node ι) (rest : List (Node ι)) : Node ι :=
  wrapper inserted (labelKind first rest) none (labelKind first rest).name first rest

/-- Group each run from an opening token to the next colon. `pending` holds the parts of the label
that is open; the parts of a label that no colon ends are returned apart. -/
def groupLabels (inserted : ι) (pending : List (Node ι)) :
    List (Node ι) → List (Node ι) × List (Node ι)
  | [] => ([], pending)
  | child :: children =>
      match pending with
      | [] =>
          if opensLabel child then groupLabels inserted [child] children
          else
            let rest := groupLabels inserted [] children
            (child :: rest.1, rest.2)
      | first :: parts =>
          if isTokenOf ":" child then
            let rest := groupLabels inserted [] children
            (label inserted first (parts ++ [child]) :: rest.1, rest.2)
          else groupLabels inserted (first :: (parts ++ [child])) children

/-- Some child is a label already. -/
def hasLabel (children : List (Node ι)) : Bool := children.any fun child => isLabel child.kind

/-- Group the labels of a switch section, unless they are grouped already. -/
def wrapLabels (inserted : ι) (children : List (Node ι)) : List (Node ι) :=
  if hasLabel children then children
  else
    let grouped := groupLabels inserted [] children
    grouped.1 ++ grouped.2

/-- The parts of the last label of a switch section, if no colon ends it. -/
def unfinishedLabel (children : List Shape) : List Shape :=
  if hasLabel children then [] else (groupLabels () [] children).2

end Grammar

end CodeMetrics
