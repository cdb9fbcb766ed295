import SyntaxTally.Syntax.Python.Lexis

/-!
# Grammar of Python

The grammar of Python, by the kinds of node its trees are made of. Expressions stand in a ladder from
the loosest operator to the tightest; patterns (what may be assigned to) are read with the same
operators but make nodes of their own kinds.
-/
namespace SyntaxTally.Syntax.Python

inductive Symbol where
  | module | statement | simpleStatements | simpleStatement | compoundStatement | suite | block
  | importList | dottedName | assignment | right | targets | pattern | patternBody
  | expressions | starExpression | expression | expressionBody | aliased
  | disjunction | conjunction | negation | lambda | comparison | bitOr | bitXor | bitAnd | shift | sum | term
  | unary | power | awaited | suffixed | atom | paren | list | brace | entry | element
  | arguments | argument | subscripted | comprehension | forIn | ifClause | yield
  | strings | string | interpolation | layout
  | parameters | parameterList | parameter | lambdaParameter | typeParameter | type | typeBody
  | functionDefinition | classDefinition | elseClause
  | casePattern | casePatterns | simplePattern | onePattern | number
  deriving DecidableEq

/-- All symbols of the grammar. -/
def symbols : List Symbol :=
  [.module, .statement, .simpleStatements, .simpleStatement, .compoundStatement, .suite, .block, .importList,
    .dottedName, .assignment, .right, .targets, .pattern, .patternBody, .expressions, .starExpression,
    .expression, .expressionBody, .aliased, .disjunction, .conjunction, .negation, .lambda, .comparison,
    .bitOr, .bitXor, .bitAnd, .shift, .sum, .term, .unary, .power, .awaited, .suffixed, .atom, .paren, .list,
    .brace, .entry, .element, .arguments, .argument, .subscripted, .comprehension, .forIn, .ifClause, .yield,
    .strings, .string, .interpolation, .layout, .parameters, .parameterList, .parameter, .lambdaParameter,
    .typeParameter, .type, .typeBody, .functionDefinition, .classDefinition, .elseClause, .casePattern,
    .casePatterns, .simplePattern, .onePattern, .number]

namespace Grammar

abbrev R := Rule Symbol Terminal

def w (text : String) : R := .token (.word text)

def m (text : String) : R := .token (.mark text)

def r (name : Symbol) : R := .ref name

def n (kind : String) (body : List R) : R := .node kind true (.row body)

def f (name : String) (body : R) : R := .field name body

def identifier : R := .token (.name "identifier")

def leaf (kind : String) : R := .token (.leaf kind)

/-- Comma-separated items with an optional comma behind the last. -/
def commas (item : R) : R := .row [.separated (m ",") item, .opt (m ",")]

/-- The rest of a row of items behind the first: more items and an optional last comma. -/
def moreCommas (item : R) : R := .row [.many (.row [m ",", item]), .opt (m ",")]

/-- An arm that wraps the head into a node. -/
def arm (kind : String) (headField : Option String) (rest : List R) : Arm R :=
  ⟨some kind, headField, none, [], .row rest⟩

def expressionArm (kind : String) (headField : Option String) (rest : List R) : Arm R :=
  ⟨some kind, headField, some "expression", [], .row rest⟩

def primary (body : R) : R := .super "primary_expression" body

/-- One level of left-associative operators over the next tighter level. -/
def operatorLevel (next : Symbol) (operators : List String) : R :=
  .grow true (r next) (operators.map fun op =>
    ⟨some "binary_operator", some "left", some "primary_expression", [],
      .row [f "operator" (m op), f "right" (primary (r next))]⟩)

def comparisonOperator : R :=
  .first ((["<", "<=", "==", "!=", ">=", ">", "<>"].map m) ++
      [w "in", .node "not in" false (.row [w "not", w "in"]), .node "is not" false (.row [w "is", w "not"])])
    (w "is")

def augmentedOperator : R :=
  .first (["+=", "-=", "*=", "/=", "@=", "//=", "%=", "**=", ">>=", "<<=", "&=", "^="].map m) (m "|=")

/-- `*name`, and what else a starred parameter or target may be. -/
def starPattern (mark kind : String) (target : R) : R := n kind [m mark, target]

def starTarget : R := .only ["identifier", "subscript", "attribute"] (r .suffixed)

def typed (head : R) : R := .grow false head [arm "typed_parameter" none [m ":", f "type" (r .type)]]

/-- An expression list, where a lone expression stays as it is. -/
def listOf (item : R) (kind : String) : R :=
  .grow false item [arm kind none [m ",", .opt (.separated (m ",") item), .opt (m ",")]]

def importNames : R := .alt (.row [m "(", r .importList, m ")"]) (r .importList)

def caseArguments : R := .opt (r .casePatterns)

/-- A statement of one expression or assignment ends where the statement has to end. -/
def atEnd : R := .ahead true (.alt (m ";") (.token .newline))

end Grammar

open Grammar in
def rules : Symbol → Rule Symbol Terminal
  | .module => n "module" [.many (r .statement), .token .finish]
  | .statement => .alt (r .compoundStatement) (r .simpleStatements)
  | .simpleStatements =>
    .row [.separated (m ";") (r .simpleStatement), .opt (m ";"), .token .newline]
  | .simpleStatement =>
    .first [
      n "import_statement" [w "import", r .importList],
      n "future_import_statement" [w "from", w "__future__", w "import", importNames],
      n "import_from_statement" [
        w "from",
        f "module_name" (.alt
          (n "relative_import" [n "import_prefix" [.many1 (.token (.part '.'))], .opt (r .dottedName)])
          (r .dottedName)),
        w "import", .alt (n "wildcard_import" [m "*"]) importNames],
      n "assert_statement" [w "assert", .separated (m ",") (r .expression)],
      n "return_statement" [w "return", .opt (r .expressions)],
      n "delete_statement" [w "del", r .expressions],
      n "raise_statement" [w "raise", .opt (r .expressions), .opt (.row [w "from", f "cause" (r .expression)])],
      n "pass_statement" [w "pass"],
      n "break_statement" [w "break"],
      n "continue_statement" [w "continue"],
      n "global_statement" [w "global", .separated (m ",") identifier],
      n "nonlocal_statement" [w "nonlocal", .separated (m ",") identifier],
      n "type_alias_statement" [w "type", f "left" (r .type), m "=", f "right" (r .type)],
      .row [n "expression_statement" [.first [r .yield, r .assignment] (commas (r .starExpression))], atEnd],
      n "print_statement" [w "print", n "chevron" [m ">>", r .expression],
        .many (.row [m ",", f "argument" (r .expression)]), .opt (m ",")],
      n "print_statement" [w "print", commas (f "argument" (r .expression))]]
      (n "exec_statement" [w "exec", f "code" (.alt (r .string) identifier),
        .opt (.row [w "in", .separated (m ",") (r .expression)])])
  | .compoundStatement =>
    .first [
      n "if_statement" [
        w "if", f "condition" (r .expression), m ":", f "consequence" (r .suite),
        .many (f "alternative" (n "elif_clause"
          [w "elif", f "condition" (r .expression), m ":", f "consequence" (r .suite)])),
        .opt (f "alternative" (r .elseClause))],
      n "for_statement" [
        .opt (w "async"), w "for", f "left" (r .targets), w "in", f "right" (r .expressions), m ":",
        f "body" (r .suite), .opt (f "alternative" (r .elseClause))],
      n "while_statement" [
        w "while", f "condition" (r .expression), m ":", f "body" (r .suite),
        .opt (f "alternative" (r .elseClause))],
      n "try_statement" [
        w "try", m ":", f "body" (r .suite),
        .many (n "except_clause" [
          w "except",
          .opt (m "*"),
          .opt (.row [f "value" (r .aliased), .opt (.row [m ",", f "alias" (r .expression)])]),
          m ":", r .suite]),
        .opt (r .elseClause),
        .opt (n "finally_clause" [w "finally", m ":", r .suite])],
      n "with_statement" [
        .opt (w "async"), w "with",
        n "with_clause" [.alt
          (.row [m "(", commas (n "with_item" [f "value" (r .aliased)]), m ")", .ahead true (m ":")])
          (commas (n "with_item" [f "value" (r .aliased)]))],
        m ":", f "body" (r .suite)],
      r .functionDefinition,
      r .classDefinition,
      n "decorated_definition" [
        .many1 (n "decorator" [m "@", r .expression, .token .newline]),
        f "definition" (.alt (r .classDefinition) (r .functionDefinition))]]
      (n "match_statement" [
        w "match", commas (f "subject" (r .starExpression)), m ":",
        f "body" (.row [.token .newline, .token .indent,
          n "block" [
            .many1 (f "alternative" (n "case_clause" [
              w "case", commas (r .casePattern), .opt (f "guard" (r .ifClause)), m ":",
              f "consequence" (r .suite)])),
            .token .dedent]])])
  | .elseClause => n "else_clause" [w "else", m ":", f "body" (r .suite)]
  | .suite =>
    .first [.row [.token .newline, .token .indent, r .block], n "block" [r .simpleStatements]]
      (n "block" [.token .newline])
  | .block => n "block" [.many (r .statement), .token .dedent]
  | .functionDefinition => n "function_definition" [
      .opt (w "async"), w "def", f "name" identifier, .opt (f "type_parameters" (r .typeParameter)),
      f "parameters" (r .parameters), .opt (.row [m "->", f "return_type" (r .type)]), m ":", f "body" (r .suite)]
  | .classDefinition => n "class_definition" [
      w "class", f "name" identifier, .opt (f "type_parameters" (r .typeParameter)),
      .opt (f "superclasses" (r .arguments)), m ":", f "body" (r .suite)]
  -- Imports
  | .importList => commas (f "name" (.grow false (r .dottedName)
      [arm "aliased_import" (some "name") [w "as", f "alias" identifier]]))
  | .dottedName => n "dotted_name" [.separated (m ".") identifier]
  -- Assignments
  | .assignment =>
    .only ["assignment", "augmented_assignment"] (.grow false (r .targets) [
      arm "assignment" (some "left") [m "=", f "right" (r .right)],
      arm "assignment" (some "left")
        [m ":", f "type" (r .type), .opt (.row [m "=", f "right" (r .right)])],
      arm "augmented_assignment" (some "left")
        [f "operator" augmentedOperator, f "right" (r .right)]])
  | .right => .first [r .yield, r .assignment] (r .expressions)
  | .targets => listOf (r .pattern) "pattern_list"
  | .pattern => .super "pattern" (r .patternBody)
  | .patternBody =>
    .first [
      starPattern "*" "list_splat_pattern" starTarget,
      starTarget,
      n "tuple_pattern" [m "(", .opt (commas (r .pattern)), m ")"]]
      (n "list_pattern" [m "[", .opt (commas (r .pattern)), m "]"])
  -- Expressions
  | .expressions => listOf (r .starExpression) "expression_list"
  | .starExpression => .alt (n "list_splat" [m "*", r .expression]) (r .expression)
  | .expression => .super "expression" (r .expressionBody)
  | .expressionBody =>
    .alt (n "named_expression" [f "name" identifier, m ":=", f "value" (r .expression)])
      (.grow false (r .disjunction)
        [expressionArm "conditional_expression" none [w "if", r .expression, w "else", r .expression]])
  | .aliased => .grow false (r .expression)
      [expressionArm "as_pattern" none [w "as", f "alias" (n "as_pattern_target" [r .expression])]]
  | .disjunction => .grow true (r .conjunction) [expressionArm "boolean_operator" (some "left")
      [f "operator" (w "or"), f "right" (.super "expression" (r .conjunction))]]
  | .conjunction => .grow true (r .negation) [expressionArm "boolean_operator" (some "left")
      [f "operator" (w "and"), f "right" (.super "expression" (r .negation))]]
  | .negation =>
    .first [n "not_operator" [w "not", f "argument" (.super "expression" (r .negation))], r .lambda] (r .comparison)
  | .lambda => n "lambda" [
      w "lambda",
      .opt (f "parameters" (n "lambda_parameters" [commas (.super "parameter" (r .lambdaParameter))])),
      m ":", f "body" (r .expression)]
  | .comparison => .grow false (primary (r .bitOr)) [arm "comparison_operator" none
      [.many1 (.row [f "operators" comparisonOperator, primary (r .bitOr)])]]
  | .bitOr => operatorLevel .bitXor ["|"]
  | .bitXor => operatorLevel .bitAnd ["^"]
  | .bitAnd => operatorLevel .shift ["&"]
  | .shift => operatorLevel .sum ["<<", ">>"]
  | .sum => operatorLevel .term ["+", "-"]
  | .term => operatorLevel .unary ["*", "@", "/", "%", "//"]
  | .unary =>
    .alt (n "unary_operator" [
        f "operator" (.first [m "+", m "-"] (m "~")), f "argument" (primary (r .unary))])
      (r .power)
  | .power => .grow false (r .awaited) [⟨some "binary_operator", some "left", some "primary_expression", [],
      .row [f "operator" (m "**"), f "right" (primary (r .unary))]⟩]
  | .awaited => .alt (n "await" [w "await", primary (r .awaited)]) (r .suffixed)
  | .suffixed => .grow true (r .atom) [
      ⟨some "attribute", some "object", some "primary_expression", [],
        .row [m ".", f "attribute" identifier]⟩,
      ⟨some "subscript", some "value", some "primary_expression", [],
        .row [m "[", commas (f "subscript" (r .subscripted)), m "]"]⟩,
      ⟨some "call", some "function", some "primary_expression", [], f "arguments" (r .arguments)⟩]
  | .atom =>
    .first [
      identifier,
      r .strings,
      leaf "integer",
      leaf "float",
      .token (.wordAs ["True"] "true"),
      .token (.wordAs ["False"] "false"),
      .token (.wordAs ["None"] "none"),
      r .paren,
      r .list,
      r .brace]
      (.token (.markAs "..." "ellipsis"))
  | .paren =>
    .alt (n "tuple" [m "(", m ")"]) (.grow false (.row [m "(", r .element]) [
      arm "parenthesized_expression" none [m ")"],
      arm "generator_expression" (some "body") [r .comprehension, m ")"],
      arm "tuple" none [moreCommas (r .element), m ")"]])
  | .list =>
    .alt (n "list" [m "[", m "]"]) (.grow false (.row [m "[", r .element]) [
      arm "list_comprehension" (some "body") [r .comprehension, m "]"],
      arm "list" none [moreCommas (r .element), m "]"]])
  | .brace =>
    .alt (n "dictionary" [m "\x7b", m "\x7d"]) (.grow false (.row [m "\x7b", r .entry]) [
      ⟨some "dictionary_comprehension", some "body", none, ["pair"], .row [r .comprehension, m "\x7d"]⟩,
      ⟨some "dictionary", none, none, ["pair", "dictionary_splat"], .row [moreCommas (r .entry), m "\x7d"]⟩,
      arm "set_comprehension" (some "body") [r .comprehension, m "\x7d"],
      arm "set" none [moreCommas (r .element), m "\x7d"]])
  | .entry =>
    .first [n "dictionary_splat" [m "**", r .expression], n "list_splat" [m "*", r .expression]]
      (.grow false (r .expression) [arm "pair" (some "key") [m ":", f "value" (r .expression)]])
  | .element => .alt (r .yield) (r .starExpression)
  | .arguments =>
    .alt (n "argument_list" [m "(", m ")"]) (.grow false (.row [m "(", r .argument]) [
      arm "generator_expression" (some "body") [r .comprehension, m ")"],
      arm "argument_list" none [moreCommas (r .argument), m ")"]])
  | .argument =>
    .first [
      n "keyword_argument" [f "name" identifier, m "=", f "value" (r .expression)],
      n "dictionary_splat" [m "**", r .expression]]
      (r .starExpression)
  | .subscripted =>
    let tail : R := .row [m ":", .opt (r .expression), .opt (.row [m ":", .opt (r .expression)])]
    .alt (n "slice" [tail]) (.grow false (r .starExpression) [arm "slice" none [tail]])
  | .comprehension => .row [r .forIn, .many (.alt (r .forIn) (r .ifClause))]
  | .forIn => n "for_in_clause" [
      .opt (w "async"), w "for", f "left" (r .targets), w "in",
      f "right" (.separated (m ",") (r .expression)), .opt (m ",")]
  | .ifClause => n "if_clause" [w "if", r .expression]
  | .yield => n "yield" [w "yield", .alt (.row [w "from", r .expression]) (.opt (r .expressions))]
  -- Strings
  | .strings => .grow false (r .string) [arm "concatenated_string" none [.many1 (r .string)]]
  | .string => n "string" [
      leaf "string_start",
      .many (.alt (r .interpolation) (n "string_content"
        [.many1 (.first [.token .filler, leaf "escape_sequence"] (leaf "escape_interpolation"))])),
      leaf "string_end"]
  | .interpolation => n "interpolation" [
      m "\x7b", f "expression" (.alt (r .yield) (r .expressions)), .opt (m "="),
      .opt (f "type_conversion" (leaf "type_conversion")), .opt (f "format_specifier" (r .layout)), m "\x7d"]
  | .layout => n "format_specifier" [
      m ":",
      .many (.alt (.token .filler) (n "format_expression" [
        m "\x7b", f "expression" (.alt (r .yield) (r .expressions)), .opt (m "="),
        .opt (f "type_conversion" (leaf "type_conversion")), .opt (f "format_specifier" (r .layout)), m "\x7d"]))]
  -- Parameters and types
  | .parameters => n "parameters" [m "(", .opt (r .parameterList), m ")"]
  | .parameterList => commas (.super "parameter" (r .parameter))
  | .parameter =>
    .first [
      .grow false (.alt identifier (n "tuple_pattern" [m "(", .opt (commas (r .pattern)), m ")"])) [
        arm "typed_default_parameter" (some "name") [m ":", f "type" (r .type), m "=", f "value" (r .expression)],
        arm "typed_parameter" none [m ":", f "type" (r .type)],
        arm "default_parameter" (some "name") [m "=", f "value" (r .expression)]],
      typed (starPattern "*" "list_splat_pattern" identifier),
      n "keyword_separator" [m "*"],
      n "positional_separator" [m "/"]]
      (typed (starPattern "**" "dictionary_splat_pattern" identifier))
  | .lambdaParameter =>
    .first [
      .grow false (.alt identifier (n "tuple_pattern" [m "(", .opt (commas (r .pattern)), m ")"]))
        [arm "default_parameter" (some "name") [m "=", f "value" (r .expression)]],
      starPattern "*" "list_splat_pattern" identifier,
      n "keyword_separator" [m "*"],
      n "positional_separator" [m "/"]]
      (starPattern "**" "dictionary_splat_pattern" identifier)
  | .typeParameter => n "type_parameter" [
      m "[",
      commas (.grow false (.grow false (r .type) [arm "constrained_type" none [m ":", r .type]])
        [⟨some "type", none, none, ["constrained_type"], .nothing⟩]),
      m "]"]
  | .type => n "type" [r .typeBody]
  | .typeBody =>
    .first [
      n "splat_type" [.alt (m "*") (m "**"), identifier],
      .row [
        .grow false (n "generic_type" [identifier, r .typeParameter])
          [⟨some "union_type", none, none, [], .row [m "|", r .type]⟩,
            ⟨some "member_type", none, none, [], .row [m ".", identifier]⟩],
        .ahead true (.first ([",", ")", "]", "=", ":", ";", "|"].map m) (.token .newline))]]
      (r .expression)
  -- The cases of a match statement
  | .casePatterns => commas (r .casePattern)
  | .casePattern =>
    .grow false (.grow false (n "case_pattern" [.alt
        (n "keyword_pattern" [identifier, m "=", r .simplePattern])
        (r .simplePattern)])
      [arm "as_pattern" none [w "as", identifier]])
      [⟨some "case_pattern", none, none, ["as_pattern"], .nothing⟩]
  | .simplePattern => .grow false (r .onePattern) [arm "union_pattern" none [.many1 (.row [m "|", r .onePattern])]]
  | .onePattern =>
    .first [
      .row [w "_", .ahead false (m ".")],
      .grow false (r .dottedName) [arm "class_pattern" none [m "(", caseArguments, m ")"]],
      n "splat_pattern" [.alt (m "*") (m "**"), .alt (w "_") identifier],
      n "list_pattern" [m "[", caseArguments, m "]"],
      n "tuple_pattern" [m "(", caseArguments, m ")"],
      n "dict_pattern" [
        m "\x7b",
        .opt (commas (.alt (n "splat_pattern" [m "**", .alt (w "_") identifier])
          (.row [f "key" (r .simplePattern), m ":", f "value" (r .casePattern)]))),
        m "\x7d"],
      r .strings,
      .token (.wordAs ["True"] "true"),
      .token (.wordAs ["False"] "false"),
      .token (.wordAs ["None"] "none")]
      (.grow false (.row [.opt (m "-"), r .number])
        [arm "complex_pattern" none [.alt (m "+") (m "-"), r .number]])
  | .number => .alt (leaf "integer") (leaf "float")

/-- The tree of a text, or `none` if the text does not fit the grammar. -/
def tree? (source : List Char) : Option Tree := (lexemes source).tree? rules .module

end SyntaxTally.Syntax.Python
