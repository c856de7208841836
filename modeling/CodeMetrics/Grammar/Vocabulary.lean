import CodeMetrics.Tree.Node

/-!
# The vocabulary of the grammar

Which kind a construct of the grammar is, by the name of its type.
-/

namespace CodeMetrics

namespace Grammar

/-- The kinds of the named constructs. -/
def kindTable : List (String × Kind) :=
  [("compilation_unit", .compilationUnit),
   ("namespace_declaration", .namespaceDeclaration),
   ("file_scoped_namespace_declaration", .fileScopedNamespace),
   ("class_declaration", .classDeclaration),
   ("struct_declaration", .structDeclaration),
   ("interface_declaration", .interfaceDeclaration),
   ("record_declaration", .recordDeclaration),
   ("record_struct_declaration", .recordDeclaration),
   ("enum_declaration", .enumDeclaration),
   ("delegate_declaration", .delegateDeclaration),
   ("method_declaration", .methodDeclaration),
   ("constructor_declaration", .constructorDeclaration),
   ("destructor_declaration", .destructorDeclaration),
   ("operator_declaration", .operatorDeclaration),
   ("conversion_operator_declaration", .conversionOperator),
   ("property_declaration", .propertyDeclaration),
   ("indexer_declaration", .indexerDeclaration),
   ("event_declaration", .eventDeclaration),
   ("event_field_declaration", .eventFieldDeclaration),
   ("field_declaration", .fieldDeclaration),
   ("accessor_declaration", .accessorDeclaration),
   ("enum_member_declaration", .enumMember),
   ("global_statement", .globalStatement),
   ("declaration_list", .declarationList),
   ("enum_member_declaration_list", .declarationList),
   ("accessor_list", .accessorList),
   ("arrow_expression_clause", .arrowExpressionClause),
   ("parameter_list", .parameterList),
   ("modifier", .modifier),
   ("variable_declarator", .variableDeclarator),
   ("switch_section", .switchSection),
   ("case_switch_label", .caseLabel),
   ("case_pattern_switch_label", .casePatternLabel),
   ("default_switch_label", .defaultLabel),
   ("else_clause", .elseClause),
   ("catch_clause", .catchClause),
   ("finally_clause", .finallyClause),
   ("block", .block),
   ("if_statement", .ifStatement),
   ("switch_statement", .switchStatement),
   ("while_statement", .whileStatement),
   ("do_statement", .doStatement),
   ("for_statement", .forStatement),
   ("for_each_statement", .foreachStatement),
   ("foreach_statement", .foreachStatement),
   ("try_statement", .tryStatement),
   ("goto_statement", .gotoStatement),
   ("labeled_statement", .labeledStatement),
   ("return_statement", .returnStatement),
   ("break_statement", .breakStatement),
   ("continue_statement", .continueStatement),
   ("throw_statement", .throwStatement),
   ("yield_statement", .yieldStatement),
   ("using_statement", .usingStatement),
   ("lock_statement", .lockStatement),
   ("checked_statement", .checkedStatement),
   ("unsafe_statement", .unsafeStatement),
   ("fixed_statement", .fixedStatement),
   ("empty_statement", .emptyStatement),
   ("expression_statement", .expressionStatement),
   ("local_declaration_statement", .localDeclaration),
   ("local_function_statement", .localFunction),
   ("conditional_expression", .conditionalExpression),
   ("conditional_access_expression", .conditionalAccess),
   ("invocation_expression", .invocation),
   ("identifier", .identifier),
   ("member_access_expression", .memberAccess),
   ("parenthesized_expression", .parenthesizedExpression),
   ("lambda_expression", .lambdaExpression),
   ("anonymous_method_expression", .anonymousMethod),
   ("ERROR", .error)]

/-- The kind of a named construct; `other` if the table has none. -/
def kindOfType (type : String) : Kind :=
  ((kindTable.find? fun entry => entry.1 == type).map Prod.snd).getD .other

/-- The kind of a binary expression, by its operator. -/
def kindOfOperator : Option String → Kind
  | some "&&" => .logicalAnd
  | some "||" => .logicalOr
  | some "??" => .coalesce
  | _ => .binaryExpression

/-- The kind of a comment, by its text. -/
def kindOfComment (text : String) : Kind :=
  let characters := text.toList
  if "///".toList.isPrefixOf characters then .singleLineDocComment
  else if "/**".toList.isPrefixOf characters && characters != "/**/".toList then
    .multiLineDocComment
  else if "/*".toList.isPrefixOf characters then .multiLineComment
  else .singleLineComment

/-- The types that make a case label a pattern label. -/
def patternTypes : List String :=
  ["when_clause", "declaration_pattern", "recursive_pattern", "var_pattern", "type_pattern",
   "relational_pattern", "and_pattern", "or_pattern", "negated_pattern", "parenthesized_pattern",
   "list_pattern", "discard"]

end Grammar

end CodeMetrics
