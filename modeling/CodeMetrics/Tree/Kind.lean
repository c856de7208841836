import CodeMetrics.Text.Quoted

/-!
# Kinds of nodes

The closed set of tags that the analyses match on. Each kind has one written name; a construct that
no tag describes is `other`.
-/

namespace CodeMetrics

/-- The tag of a node: what the construct is. -/
inductive Kind where
  -- comments
  | singleLineComment | multiLineComment | singleLineDocComment | multiLineDocComment
  -- declarations
  | compilationUnit | namespaceDeclaration | fileScopedNamespace | classDeclaration
  | structDeclaration | interfaceDeclaration | recordDeclaration | enumDeclaration
  | delegateDeclaration | methodDeclaration | constructorDeclaration | destructorDeclaration
  | operatorDeclaration | conversionOperator | propertyDeclaration | indexerDeclaration
  | eventDeclaration | eventFieldDeclaration | fieldDeclaration | accessorDeclaration
  | enumMember | globalStatement
  -- structural parts
  | declarationList | accessorList | arrowExpressionClause | parameterList | modifier
  | variableDeclarator | switchSection | caseLabel | casePatternLabel | defaultLabel | elseClause
  | catchClause | finallyClause
  -- statements
  | block | ifStatement | switchStatement | whileStatement | doStatement | forStatement
  | foreachStatement | tryStatement | gotoStatement | labeledStatement | returnStatement
  | breakStatement | continueStatement | throwStatement | yieldStatement | usingStatement
  | lockStatement | checkedStatement | unsafeStatement | fixedStatement | emptyStatement
  | expressionStatement | localDeclaration | localFunction
  -- expressions
  | logicalAnd | logicalOr | coalesce | binaryExpression | conditionalExpression
  | conditionalAccess | invocation | identifier | memberAccess | parenthesizedExpression
  | lambdaExpression | anonymousMethod
  -- leaves and the rest
  | token | error | other
deriving DecidableEq, Repr

namespace Kind

/-- The written name of a kind. -/
def name : Kind → String
  | .singleLineComment => "single_line_comment"
  | .multiLineComment => "multi_line_comment"
  | .singleLineDocComment => "single_line_doc_comment"
  | .multiLineDocComment => "multi_line_doc_comment"
  | .compilationUnit => "compilation_unit"
  | .namespaceDeclaration => "namespace"
  | .fileScopedNamespace => "file_scoped_namespace"
  | .classDeclaration => "class"
  | .structDeclaration => "struct"
  | .interfaceDeclaration => "interface"
  | .recordDeclaration => "record"
  | .enumDeclaration => "enum"
  | .delegateDeclaration => "delegate"
  | .methodDeclaration => "method"
  | .constructorDeclaration => "constructor"
  | .destructorDeclaration => "destructor"
  | .operatorDeclaration => "operator"
  | .conversionOperator => "conversion_operator"
  | .propertyDeclaration => "property"
  | .indexerDeclaration => "indexer"
  | .eventDeclaration => "event"
  | .eventFieldDeclaration => "event_field"
  | .fieldDeclaration => "field"
  | .accessorDeclaration => "accessor"
  | .enumMember => "enum_member"
  | .globalStatement => "global_statement"
  | .declarationList => "declaration_list"
  | .accessorList => "accessor_list"
  | .arrowExpressionClause => "arrow_expression_clause"
  | .parameterList => "parameter_list"
  | .modifier => "modifier"
  | .variableDeclarator => "variable_declarator"
  | .switchSection => "switch_section"
  | .caseLabel => "case_label"
  | .casePatternLabel => "case_pattern_label"
  | .defaultLabel => "default_label"
  | .elseClause => "else_clause"
  | .catchClause => "catch"
  | .finallyClause => "finally"
  | .block => "block"
  | .ifStatement => "if"
  | .switchStatement => "switch"
  | .whileStatement => "while"
  | .doStatement => "do"
  | .forStatement => "for"
  | .foreachStatement => "foreach"
  | .tryStatement => "try"
  | .gotoStatement => "goto"
  | .labeledStatement => "labeled"
  | .returnStatement => "return"
  | .breakStatement => "break"
  | .continueStatement => "continue"
  | .throwStatement => "throw"
  | .yieldStatement => "yield"
  | .usingStatement => "using"
  | .lockStatement => "lock"
  | .checkedStatement => "checked"
  | .unsafeStatement => "unsafe"
  | .fixedStatement => "fixed"
  | .emptyStatement => "empty"
  | .expressionStatement => "expression_statement"
  | .localDeclaration => "local_declaration"
  | .localFunction => "local_function"
  | .logicalAnd => "logical_and"
  | .logicalOr => "logical_or"
  | .coalesce => "coalesce"
  | .binaryExpression => "binary"
  | .conditionalExpression => "conditional"
  | .conditionalAccess => "conditional_access"
  | .invocation => "invocation"
  | .identifier => "identifier"
  | .memberAccess => "member_access"
  | .parenthesizedExpression => "parenthesized"
  | .lambdaExpression => "lambda"
  | .anonymousMethod => "anonymous_method"
  | .token => "token"
  | .error => "error"
  | .other => "other"

/-- Every kind, in the order of declaration. -/
def all : List Kind :=
  [.singleLineComment, .multiLineComment, .singleLineDocComment, .multiLineDocComment,
   .compilationUnit, .namespaceDeclaration, .fileScopedNamespace, .classDeclaration,
   .structDeclaration, .interfaceDeclaration, .recordDeclaration, .enumDeclaration,
   .delegateDeclaration, .methodDeclaration, .constructorDeclaration, .destructorDeclaration,
   .operatorDeclaration, .conversionOperator, .propertyDeclaration, .indexerDeclaration,
   .eventDeclaration, .eventFieldDeclaration, .fieldDeclaration, .accessorDeclaration,
   .enumMember, .globalStatement, .declarationList, .accessorList, .arrowExpressionClause,
   .parameterList, .modifier, .variableDeclarator, .switchSection, .caseLabel, .casePatternLabel,
   .defaultLabel, .elseClause, .catchClause, .finallyClause, .block, .ifStatement,
   .switchStatement, .whileStatement, .doStatement, .forStatement, .foreachStatement,
   .tryStatement, .gotoStatement, .labeledStatement, .returnStatement, .breakStatement,
   .continueStatement, .throwStatement, .yieldStatement, .usingStatement, .lockStatement,
   .checkedStatement, .unsafeStatement, .fixedStatement, .emptyStatement, .expressionStatement,
   .localDeclaration, .localFunction, .logicalAnd, .logicalOr, .coalesce, .binaryExpression,
   .conditionalExpression, .conditionalAccess, .invocation, .identifier, .memberAccess,
   .parenthesizedExpression, .lambdaExpression, .anonymousMethod, .token, .error, .other]

/-- The kind with the given written name. -/
def ofName? (name : String) : Option Kind :=
  all.find? (·.name == name)

theorem mem_all (kind : Kind) : kind ∈ all := by
  cases kind <;> decide

/-- The complaint about a name that no kind has. -/
def unknownMessage (name : String) : String :=
  Text.quote name ++ " is not a valid Kind"

end Kind

end CodeMetrics
