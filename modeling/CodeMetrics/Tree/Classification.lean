import CodeMetrics.Tree.Forest

/-!
# Classes of nodes

Which nodes are comments, statements, members, functions and so on. A class that depends only on the
kind is a predicate of the kind; the others look at children and parents.
-/

namespace CodeMetrics

namespace Kind

/-- Comments of any sort. -/
def isComment : Kind → Bool
  | .singleLineComment | .multiLineComment | .singleLineDocComment | .multiLineDocComment => true
  | _ => false

/-- Documentation comments. -/
def isDocComment : Kind → Bool
  | .singleLineDocComment | .multiLineDocComment => true
  | _ => false

/-- Classes, structs and interfaces. -/
def isClassLike : Kind → Bool
  | .classDeclaration | .structDeclaration | .interfaceDeclaration => true
  | _ => false

/-- Statements. A block is none: counting it would count its statements twice. -/
def isStatement : Kind → Bool
  | .ifStatement | .switchStatement | .whileStatement | .doStatement | .forStatement
  | .foreachStatement | .tryStatement | .gotoStatement | .labeledStatement | .returnStatement
  | .breakStatement | .continueStatement | .throwStatement | .yieldStatement | .usingStatement
  | .lockStatement | .checkedStatement | .unsafeStatement | .fixedStatement | .emptyStatement
  | .expressionStatement | .localDeclaration | .localFunction => true
  | _ => false

/-- Declarations whose body is a block. -/
def isBlockFunction : Kind → Bool
  | .constructorDeclaration | .destructorDeclaration | .methodDeclaration | .operatorDeclaration =>
      true
  | _ => false

/-- Declarations that have accessors. -/
def hasAccessors : Kind → Bool
  | .propertyDeclaration | .indexerDeclaration | .eventDeclaration => true
  | _ => false

/-- Constructs that the flat complexity counts. -/
def increasesComplexity : Kind → Bool
  | .ifStatement | .coalesce | .conditionalAccess | .conditionalExpression | .switchStatement
  | .labeledStatement | .whileStatement | .doStatement | .forStatement | .foreachStatement
  | .logicalAnd | .logicalOr | .caseLabel => true
  | _ => false

/-- Declarations that can be members of a type, a namespace or a file. -/
def isMember : Kind → Bool
  | .namespaceDeclaration | .fileScopedNamespace | .classDeclaration | .structDeclaration
  | .interfaceDeclaration | .recordDeclaration | .enumDeclaration | .delegateDeclaration
  | .methodDeclaration | .constructorDeclaration | .destructorDeclaration | .operatorDeclaration
  | .conversionOperator | .propertyDeclaration | .indexerDeclaration | .eventDeclaration
  | .eventFieldDeclaration | .fieldDeclaration | .enumMember | .globalStatement => true
  | _ => false

/-- Namespaces. -/
def isNamespace : Kind → Bool
  | .namespaceDeclaration | .fileScopedNamespace => true
  | _ => false

end Kind

namespace Node

variable {ι : Type}

/-- The keywords of one modifier: its text, or else the texts of its leaves that are not empty. -/
def modifierKeywords (node : Node ι) : List String :=
  match node.text with
  | some text => [text]
  | none => (node.leaves.filterMap text).filter fun text => !text.isEmpty

/-- The modifier keywords of a declaration. -/
def modifiers (node : Node ι) : List String :=
  (node.childrenOfKind [.modifier]).flatMap modifierKeywords

/-- The declaration carries the modifier. -/
def hasModifier (node : Node ι) (keyword : String) : Bool := keyword ∈ node.modifiers

/-- The declaration is public. -/
def isPublic (node : Node ι) : Bool := node.hasModifier "public"

/-- A member declaration by itself, the members of a declaration list, and nothing else. -/
def ownMembers (child : Node ι) : List (Node ι) :=
  if child.kind.isMember then [child]
  else if child.kind = .declarationList then child.children.filter fun node => node.kind.isMember
  else []

/-- The members that a node owns, directly or in a declaration list. -/
def memberDeclarations (node : Node ι) : List (Node ι) := node.children.flatMap ownMembers

end Node

namespace Forest

/-- The declaration that owns a member: its parent, a declaration list being passed over. -/
def enclosingDeclaration? (forest : Forest) (node : Vertex) : Option Vertex :=
  match forest.parent? node with
  | none => none
  | some parent => if parent.kind = .declarationList then forest.parent? parent else some parent

/-- An accessor that is written without a body still has one when its property is not abstract and
not in an interface. -/
def isImplicitAccessor (forest : Forest) (accessor : Vertex) : Bool :=
  match (forest.parent? accessor).bind forest.parent? with
  | none => false
  | some property =>
      property.kind.hasAccessors && !property.hasModifier "abstract" &&
        (match forest.enclosingDeclaration? property with
          | none => true
          | some container => container.kind != .interfaceDeclaration)

/-- The node declares a function body. -/
def isFunctionLike (forest : Forest) (node : Vertex) : Bool :=
  ((node.kind = .propertyDeclaration || node.kind = .methodDeclaration) &&
      node.hasChildOfKind .arrowExpressionClause) ||
    (node.kind.isBlockFunction && node.hasChildOfKind .block) ||
    (node.kind = .accessorDeclaration &&
      (node.hasChildOfKind .block || forest.isImplicitAccessor node))

/-- The leaf lies directly in the body block of a function. -/
def closesFunction (forest : Forest) (leaf : Vertex) : Bool :=
  match forest.parent? leaf with
  | none => false
  | some block =>
      block.kind = .block &&
        (match forest.parent? block with
          | none => false
          | some function => forest.isFunctionLike function)

/-- The leaf after a statement closes the function that the statement is in. -/
def isLastStatement (forest : Forest) (node : Vertex) : Except Detached Bool := do
  match ← forest.nextToken node.lastToken with
  | none => return false
  | some leaf => return forest.closesFunction leaf

/-- A return that is not the last statement of its function. -/
def isReturnButNotLast (forest : Forest) (node : Vertex) : Except Detached Bool :=
  if node.kind = .returnStatement then do
    let last ← forest.isLastStatement node
    return !last
  else .ok false

end Forest

end CodeMetrics
