import SyntaxTally.Syntax.Rust.Lexis

/-!
# Grammar of Rust

The grammar of Rust, by the kinds of node its trees are made of. Where a block has to follow an
expression (behind `if`, `while`, `for` and `match`), the expression must not end in a brace of its
own; the expression symbols carry that as a flag, `true` where braces may follow a path.
-/
namespace SyntaxTally.Syntax.Rust

inductive Level where
  | or | and | comparison | bitOr | bitXor | bitAnd | shift | sum | product
  deriving DecidableEq

inductive Symbol where
  | file | statement | item | declarations | block | label
  | attribute | innerAttribute | visibility | functionModifiers | externModifier
  | tokenTree | token | tokenTreePattern | tokenPattern | macroBody | macroToken | macroRule
  | macroInvocation | useClause | useList
  | parameters | parameter | closureParameter | whereClause | traitBounds | bound | typeParameters | typeArguments
  | type | tightType | pathType | structPath | lifetime | bracketed
  | fieldDeclarations | orderedFields | enumVariants
  | expression (braces : Bool) | range (braces : Bool) | level (l : Level) (braces : Bool)
  | cast (braces : Bool) | unary (braces : Bool) | suffixed (braces : Bool) | atom (braces : Bool)
  | condition (braces : Bool) | letCondition (braces : Bool)
  | literal | path | paren | array | closure (braces : Bool) | blockLike | arguments
  | fieldInitializers | elseClause | matchBlock | matchArm
  | pattern | onePattern | literalPattern | string
  deriving DecidableEq

/-- All symbols of the grammar. -/
def symbols : List Symbol :=
  [.file, .statement, .item, .declarations, .block, .label, .attribute, .innerAttribute, .visibility,
    .functionModifiers, .externModifier, .tokenTree, .token, .tokenTreePattern, .tokenPattern, .macroBody,
    .macroToken, .macroRule, .macroInvocation, .useClause, .useList, .parameters, .parameter,
    .closureParameter, .whereClause, .traitBounds, .bound, .typeParameters, .typeArguments, .type, .tightType,
    .pathType, .structPath, .lifetime, .bracketed, .fieldDeclarations, .orderedFields, .enumVariants,
    .expression true, .expression false, .range true, .range false, .level .or true, .level .or false,
    .level .and true, .level .and false, .level .comparison true, .level .comparison false, .level .bitOr true,
    .level .bitOr false, .level .bitXor true, .level .bitXor false, .level .bitAnd true, .level .bitAnd false,
    .level .shift true, .level .shift false, .level .sum true, .level .sum false, .level .product true,
    .level .product false, .cast true, .cast false, .unary true, .unary false, .suffixed true, .suffixed false,
    .atom true, .atom false, .condition true, .condition false, .letCondition true, .letCondition false,
    .literal, .path, .paren, .array, .closure true, .closure false, .blockLike, .arguments, .fieldInitializers,
    .elseClause, .matchBlock, .matchArm, .pattern, .onePattern, .literalPattern, .string]

namespace Grammar

abbrev R := Rule Symbol Terminal

def w (text : String) : R := .token (.word text)

def m (text : String) : R := .token (.mark text)

def p (c : Char) : R := .token (.part c)

def r (name : Symbol) : R := .ref name

def n (kind : String) (body : List R) : R := .node kind true (.row body)

def f (name : String) (body : R) : R := .field name body

def leaf (kind : String) : R := .token (.leaf kind)

def name (kind : String) : R := .token (.name kind)

def primitives : List String :=
  ["u8", "i8", "u16", "i16", "u32", "i32", "u64", "i64", "u128", "i128", "isize", "usize", "f32", "f64", "bool", "str",
    "char"]

def identifier : R := name "identifier"

/-- A type's name; the name of a primitive type makes a node of its own kind. -/
def typeName : R := .alt (.token (.wordAs primitives "primitive_type")) (name "type_identifier")

def self_ : R := .token (.wordAs ["self"] "self")

def super_ : R := .token (.wordAs ["super"] "super")

def crate_ : R := .token (.wordAs ["crate"] "crate")

def mutable : R := .token (.wordAs ["mut"] "mutable_specifier")

def commas (item : R) : R := .row [.separated (m ",") item, .opt (m ",")]

def moreCommas (item : R) : R := .row [.many (.row [m ",", item]), .opt (m ",")]

def inBraces (body : R) : R := .row [m "\x7b", body, m "\x7d"]

def arm (kind : String) (headField : Option String) (rest : List R) : Arm R := ⟨some kind, headField, none, [], .row rest⟩

def attributes : R := .many (r .attribute)

def visible : R := .opt (r .visibility)

def typeParametersField : R := .opt (f "type_parameters" (r .typeParameters))

def whereField : R := .opt (r .whereClause)

def binaryArms (next : R) (operators : List String) : List (Arm R) :=
  operators.map fun op => arm "binary_expression" (some "left") [f "operator" (m op), f "right" next]

/-- The words that stay keywords inside a macro. -/
def macroWords : List String :=
  ["as", "async", "await", "break", "const", "continue", "default", "enum", "fn", "for", "gen", "if", "impl", "let", "loop",
    "match", "mod", "pub", "return", "static", "struct", "trait", "type", "union", "unsafe", "use", "where", "while"]

/-- A token of a macro that is neither a bracket nor a variable of the macro. -/
def plainToken : R :=
  .first [
    r .literal,
    .token (.wordAs primitives "primitive_type"),
    .token (.wordOf ("_" :: macroWords)),
    mutable,
    self_,
    super_,
    crate_,
    .token (.anyWord "identifier")]
    (.token .anyMark)

/-- The three kinds of brackets around the same content. -/
def bracketed (kind : String) (body : R) : R :=
  .first [n kind [m "(", body, m ")"], n kind [m "[", body, m "]"]] (n kind [m "\x7b", body, m "\x7d"])

def repetition (kind : String) (body : R) : R :=
  n kind [m "$", m "(", .many body, m ")", .opt (.row [.ahead false repeats, plainToken]), repeats]
where
  repeats : R := .first [p '+', p '*'] (p '?')

def fragments : List String :=
  ["block", "expr", "expr_2021", "ident", "item", "lifetime", "literal", "meta", "pat", "pat_param", "path", "stmt", "tt",
    "ty", "vis"]

/-- Behind a block that stands as a statement, an expression goes on only with a call on its value. -/
def blockEnds : R := .ahead false (.alt (m ".") (m "?"))

def assignmentOperators : List String := ["+=", "-=", "*=", "/=", "%=", "&=", "|=", "^=", "<<=", ">>="]

end Grammar

open Grammar in
def rules : Symbol → Rule Symbol Terminal
  | .file => n "source_file" [.opt (leaf "shebang"), .many (r .statement), .token .finish]
  | .statement =>
    .first [
      r .item,
      .row [n "expression_statement" [r .blockLike], blockEnds],
      .only ["expression_statement"] (.grow false (r (.expression true)) [arm "expression_statement" none [m ";"]])]
      (.row [
        n "macro_invocation" [f "macro" (r .path), m "!", n "token_tree" [inBraces (.many (r .token))]],
        blockEnds])
  | .item =>
    .first [
      n "empty_statement" [m ";"],
      r .attribute,
      r .innerAttribute,
      n "let_declaration" [
        w "let", .opt mutable, f "pattern" (r .pattern), .opt (.row [m ":", f "type" (r .type)]),
        .opt (.row [m "=", f "value" (r (.expression true))]),
        .opt (.row [w "else", f "alternative" (r .block)]), m ";"],
      .only ["function_item", "function_signature_item"] (.grow false
        (.row [
          visible, .opt (r .functionModifiers), w "fn", f "name" (.alt identifier (leaf "metavariable")),
          typeParametersField, f "parameters" (r .parameters), .opt (.row [m "->", f "return_type" (r .type)]), whereField])
        [arm "function_item" none [f "body" (r .block)], arm "function_signature_item" none [m ";"]]),
      n "const_item" [
        visible, w "const", f "name" identifier, m ":", f "type" (r .type),
        .opt (.row [m "=", f "value" (r (.expression true))]), m ";"],
      n "static_item" [
        visible, w "static", .opt (w "ref"), .opt mutable, f "name" identifier, m ":", f "type" (r .type),
        .opt (.row [m "=", f "value" (r (.expression true))]), m ";"],
      n "mod_item" [visible, w "mod", f "name" identifier, .alt (m ";") (f "body" (r .declarations))],
      n "struct_item" [
        visible, w "struct", f "name" (name "type_identifier"), typeParametersField,
        .first [
          .row [whereField, f "body" (r .fieldDeclarations)],
          .row [f "body" (r .orderedFields), whereField, m ";"]]
          (m ";")],
      n "union_item" [
        visible, w "union", f "name" (name "type_identifier"), typeParametersField, whereField,
        f "body" (r .fieldDeclarations)],
      n "enum_item" [
        visible, w "enum", f "name" (name "type_identifier"), typeParametersField, whereField,
        f "body" (r .enumVariants)],
      n "type_item" [
        visible, w "type", f "name" (name "type_identifier"), typeParametersField, whereField, m "=", f "type" (r .type),
        whereField, m ";"],
      n "associated_type" [
        w "type", f "name" (name "type_identifier"), typeParametersField, .opt (f "bounds" (r .traitBounds)), whereField,
        m ";"],
      n "impl_item" [
        .opt (w "unsafe"), w "impl", typeParametersField,
        .opt (.row [.opt (m "!"), f "trait" (r .pathType), w "for"]), f "type" (r .type), whereField,
        .alt (m ";") (f "body" (r .declarations))],
      n "trait_item" [
        visible, .opt (w "unsafe"), w "trait", f "name" (name "type_identifier"), typeParametersField,
        .opt (f "bounds" (r .traitBounds)), whereField, f "body" (r .declarations)],
      n "use_declaration" [visible, w "use", f "argument" (r .useClause), m ";"],
      n "extern_crate_declaration" [
        visible, w "extern", crate_, f "name" (.alt self_ identifier), .opt (.row [w "as", f "alias" (name "identifier")]),
        m ";"],
      n "foreign_mod_item" [
        visible, .opt (w "unsafe"), r .externModifier, .alt (m ";") (f "body" (r .declarations))],
      n "macro_definition" [
        w "macro_rules!", f "name" identifier,
        .first [
          .row [m "(", r .macroBody, m ")", m ";"],
          .row [m "[", r .macroBody, m "]", m ";"]]
          (.row [m "\x7b", r .macroBody, m "\x7d"])]]
      .never
  | .declarations => n "declaration_list" [m "\x7b", .many (.alt (r .item) (r .macroInvocation)), m "\x7d"]
  | .label => n "label" [m "'", .token (.anyWord "identifier")]
  | .attribute => n "attribute_item" [m "#", m "[", attributeBody, m "]"]
  | .innerAttribute => n "inner_attribute_item" [m "#", m "!", m "[", attributeBody, m "]"]
  | .visibility => n "visibility_modifier" [
      .alt (.row [crate_, .ahead false (m "::")])
        (.row [
          w "pub",
          .opt (.row [m "(", .first [self_, super_, crate_] (.row [w "in", r .path]), m ")"])])]
  | .functionModifiers => n "function_modifiers" [.many1
      (.first [w "async", w "default", w "const", w "unsafe", w "gen", w "safe"] (r .externModifier))]
  | .externModifier => n "extern_modifier" [w "extern", .opt (r .string)]
  -- Macros
  | .tokenTree => bracketed "token_tree" (.many (r .token))
  | .token => .first [r .tokenTree, leaf "metavariable"] plainToken
  | .macroInvocation => n "macro_invocation" [f "macro" (r .path), m "!", r .tokenTree]
  | .macroBody => .row [.opt (.separated (m ";") (r .macroRule)), .opt (m ";")]
  | .macroRule => n "macro_rule" [f "left" (r .tokenTreePattern), m "=>", f "right" (bracketed "token_tree" (.many (r .macroToken)))]
  | .macroToken => .first [
      bracketed "token_tree" (.many (r .macroToken)), repetition "token_repetition" (r .macroToken), leaf "metavariable"]
      plainToken
  | .tokenTreePattern => bracketed "token_tree_pattern" (.many (r .tokenPattern))
  | .tokenPattern =>
    .first [
      r .tokenTreePattern,
      repetition "token_repetition_pattern" (r .tokenPattern),
      n "token_binding_pattern" [
        f "name" (leaf "metavariable"), m ":", f "type" (n "fragment_specifier" [.token (.wordOf fragments)])],
      leaf "metavariable"]
      plainToken
  -- Imports
  | .useClause =>
    .first [
      r .useList,
      n "use_wildcard" [.opt (m "::"), m "*"],
      n "scoped_use_list" [m "::", f "list" (r .useList)]]
      (.grow true (.first [self_, super_, crate_, n "scoped_identifier" [m "::", f "name" identifier]] identifier) [
        arm "scoped_use_list" (some "path") [m "::", f "list" (r .useList)],
        arm "use_wildcard" none [m "::", m "*"],
        arm "scoped_identifier" (some "path") [m "::", f "name" (.first [super_, self_, crate_] identifier)],
        arm "use_as_clause" (some "path") [w "as", f "alias" identifier]])
  | .useList => n "use_list" [inBraces (.opt (commas (r .useClause)))]
  -- Fields and variants
  | .fieldDeclarations => n "field_declaration_list" [inBraces (.opt (commas (.row [
      attributes,
      n "field_declaration" [visible, f "name" (name "field_identifier"), m ":", f "type" (r .type)]])))]
  | .orderedFields => n "ordered_field_declaration_list" [
      m "(", .opt (commas (.row [attributes, visible, f "type" (r .type)])), m ")"]
  | .enumVariants => n "enum_variant_list" [inBraces (.opt (commas (.row [
      attributes,
      n "enum_variant" [
        visible, f "name" identifier, .opt (f "body" (.alt (r .fieldDeclarations) (r .orderedFields))),
        .opt (.row [m "=", f "value" (r (.expression true))])]])))]
  -- Parameters
  | .parameters => n "parameters" [
      m "(",
      .opt (commas (.row [
        attributes,
        .first [
          n "self_parameter" [.opt (p '&'), .opt (r .lifetime), .opt mutable, self_, .ahead false (m ":")],
          n "variadic_parameter" [.opt mutable, .opt (.row [f "pattern" (r .onePattern), m ":"]), m "..."],
          r .parameter]
          (r .type)])),
      m ")"]
  | .parameter => n "parameter" [.opt mutable, f "pattern" (.alt self_ (r .onePattern)), m ":", f "type" (r .type)]
  | .closureParameter => .alt (r .parameter) (r .onePattern)
  | .whereClause => n "where_clause" [
      w "where",
      .opt (commas (n "where_predicate" [
        f "left" (.first [
          n "higher_ranked_trait_bound" [w "for", f "type_parameters" (r .typeParameters), f "type" (r .tightType)],
          r .lifetime]
          (r .tightType)),
        f "bounds" (r .traitBounds)]))]
  | .traitBounds => n "trait_bounds" [m ":", .opt (.separated (m "+") (r .bound)), .opt (m "+")]
  | .bound =>
    .first [
      n "higher_ranked_trait_bound" [w "for", f "type_parameters" (r .typeParameters), f "type" (r .tightType)],
      r .lifetime]
      (r .tightType)
  | .typeParameters => n "type_parameters" [
      p '<',
      .opt (commas (.row [
        attributes,
        .first [
          leaf "metavariable",
          n "lifetime_parameter" [f "name" (r .lifetime), .opt (f "bounds" (r .traitBounds))],
          n "const_parameter" [
            w "const", f "name" identifier, m ":", f "type" (r .type),
            .opt (.row [m "=", f "value" (.first [r .block, identifier] (r .literalPattern))])]]
          (n "type_parameter" [
            f "name" (name "type_identifier"), .opt (f "bounds" (r .traitBounds)),
            .opt (.row [m "=", f "default_type" (r .type)])])])),
      p '>']
  | .typeArguments => n "type_arguments" [
      p '<',
      .opt (commas (.row [
        .first [
          n "type_binding" [
            f "name" (name "type_identifier"), .opt (f "type_arguments" (r .typeArguments)), m "=", f "type" (r .type)],
          .row [r .lifetime, .ahead false (m "+")],
          r .literalPattern,
          r .block]
          (r .type),
        .opt (r .traitBounds)])),
      p '>']
  -- Types
  | .type => .grow true (.alt (r .tightType) (.row [r .lifetime, .ahead true (m "+")]))
      [arm "bounded_type" none [m "+", .alt (r .lifetime) (r .tightType)]]
  | .tightType =>
    .first [
      n "reference_type" [p '&', .opt (r .lifetime), .opt mutable, f "type" (r .tightType)],
      n "pointer_type" [m "*", .alt (w "const") mutable, f "type" (r .tightType)],
      n "unit_type" [m "(", m ")"],
      n "tuple_type" [m "(", commas (r .type), m ")"],
      n "array_type" [
        m "[", f "element" (r .type), .opt (.row [m ";", f "length" (r (.expression true))]), m "]"],
      n "never_type" [m "!"],
      n "abstract_type" [
        w "impl", .opt (.row [w "for", r .typeParameters]),
        f "trait" (.grow true (r .bound) [arm "bounded_type" none [m "+", r .bound]])],
      n "dynamic_type" [w "dyn", f "trait" (r .bound)],
      n "removed_trait_bound" [m "?", r .tightType],
      n "function_type" [
        .opt (n "for_lifetimes" [w "for", p '<', .opt (commas (r .lifetime)), p '>']),
        .opt (r .functionModifiers), w "fn", f "parameters" (r .parameters),
        .opt (.row [m "->", f "return_type" (r .tightType)])],
      r .macroInvocation,
      leaf "metavariable"]
      (r .pathType)
  | .pathType =>
    .grow true
      (.first [
        .row [typeName, .ahead false (m "::")],
        .row [
          .first [
            self_, super_, crate_, r .bracketed,
            n "scoped_identifier" [m "::", f "name" identifier]]
            identifier,
          .ahead true (m "::")]]
        (n "scoped_type_identifier" [m "::", f "name" (name "type_identifier")])) [
      arm "scoped_identifier" (some "path")
        [m "::", f "name" (.alt super_ identifier), .ahead true (m "::")],
      arm "scoped_type_identifier" (some "path") [m "::", f "name" (name "type_identifier")],
      arm "generic_type" (some "type") [.opt (m "::"), f "type_arguments" (r .typeArguments)],
      arm "function_type" (some "trait")
        [f "parameters" (r .parameters), .opt (.row [m "->", f "return_type" (r .tightType)])]]
  | .structPath =>
    .grow true
      (.first [
        .row [name "type_identifier", .ahead false (m "::")],
        .row [
          .first [
            self_, super_, crate_, r .bracketed,
            n "scoped_identifier" [m "::", f "name" identifier]]
            identifier,
          .ahead true (m "::")]]
        (n "scoped_type_identifier" [m "::", f "name" (name "type_identifier")])) [
      arm "scoped_identifier" (some "path")
        [m "::", f "name" (.alt super_ identifier), .ahead true (m "::")],
      arm "scoped_type_identifier" (some "path") [m "::", f "name" (name "type_identifier")],
      arm "generic_type_with_turbofish" (some "type") [m "::", f "type_arguments" (r .typeArguments)]]
  | .lifetime => n "lifetime" [m "'", .token (.anyWord "identifier")]
  | .bracketed => n "bracketed_type" [
      p '<',
      .grow false (r .type) [arm "qualified_type" (some "type") [w "as", f "alias" (r .type)]],
      p '>']
  -- Expressions
  | .expression b =>
    .grow true (r (.range b)) (
      arm "assignment_expression" (some "left") [m "=", f "right" (r (.expression b))] ::
      assignmentOperators.map fun op =>
        arm "compound_assignment_expr" (some "left") [f "operator" (m op), f "right" (r (.expression b))])
  | .range b =>
    let operand : R :=
      if b then r (.level .or b) else .row [.ahead false (m "\x7b"), r (.level .or b)]
    .alt (n "range_expression" [.alt (m "..=") (m ".."), .opt operand])
      (.grow true (r (.level .or b)) [
        arm "range_expression" none [.first [m "..=", m "..."] (m ".."), .opt operand]])
  | .level .or b => .grow true (r (.level .and b)) (binaryArms (r (.level .and b)) ["||"])
  | .level .and b => .grow true (r (.level .comparison b)) (binaryArms (r (.level .comparison b)) ["&&"])
  | .level .comparison b =>
    .grow true (r (.level .bitOr b)) (binaryArms (r (.level .bitOr b)) ["==", "!=", "<", "<=", ">", ">="])
  | .level .bitOr b => .grow true (r (.level .bitXor b)) (binaryArms (r (.level .bitXor b)) ["|"])
  | .level .bitXor b => .grow true (r (.level .bitAnd b)) (binaryArms (r (.level .bitAnd b)) ["^"])
  | .level .bitAnd b => .grow true (r (.level .shift b)) (binaryArms (r (.level .shift b)) ["&"])
  | .level .shift b => .grow true (r (.level .sum b)) (binaryArms (r (.level .sum b)) ["<<", ">>"])
  | .level .sum b => .grow true (r (.level .product b)) (binaryArms (r (.level .product b)) ["+", "-"])
  | .level .product b => .grow true (r (.cast b)) (binaryArms (r (.cast b)) ["*", "/", "%"])
  | .cast b => .grow true (r (.unary b))
      [arm "type_cast_expression" (some "value") [w "as", f "type" (r .tightType)]]
  | .unary b =>
    .first [
      n "unary_expression" [.first [m "-", m "*"] (m "!"), r (.unary b)],
      n "reference_expression" [
        p '&',
        .first [.row [w "raw", .alt (w "const") mutable]] (.opt mutable), f "value" (r (.unary b))]]
      (r (.suffixed b))
  | .suffixed b =>
    .grow true (r (.atom b)) [
      arm "try_expression" none [m "?"],
      arm "call_expression" (some "function") [f "arguments" (r .arguments)],
      arm "index_expression" none [m "[", r (.expression true), m "]"],
      arm "await_expression" none [m ".", w "await"],
      arm "field_expression" (some "value")
        [m ".", f "field" (.alt (name "field_identifier") (leaf "integer_literal"))],
      ⟨some "generic_function", some "function", none, ["identifier", "scoped_identifier", "field_expression"],
        .row [m "::", f "type_arguments" (r .typeArguments)]⟩]
  | .atom b =>
    .first [
      r .literal,
      r (.closure b),
      r .blockLike,
      r .macroInvocation,
      if b then n "struct_expression" [f "name" (r .structPath), f "body" (r .fieldInitializers)] else .never,
      r .path,
      self_,
      r .paren,
      r .array,
      n "return_expression" [w "return", .opt (r (.expression b))],
      n "yield_expression" [w "yield", .opt (r (.expression b))],
      n "break_expression" [w "break", .opt (r .label), .opt (r (.expression b))],
      n "continue_expression" [w "continue", .opt (r .label)]]
      (leaf "metavariable")
  | .literal =>
    .first [
      r .string,
      leaf "char_literal",
      n "boolean_literal" [.alt (w "true") (w "false")],
      leaf "integer_literal"]
      (leaf "float_literal")
  | .string =>
    .alt (n "string_literal" [m "\"", .many (.alt (leaf "string_content") (leaf "escape_sequence")), m "\""])
      (n "raw_string_literal" [.token .filler, leaf "string_content", .token .filler])
  | .path =>
    let generic : Arm R :=
      arm "generic_type" (some "type") [m "::", f "type_arguments" (r .typeArguments), .ahead true (m "::")]
    .grow true
      (.first [
        .row [.first [self_, super_, crate_] (r .bracketed), .ahead true (m "::")],
        n "scoped_identifier" [m "::", f "name" identifier]]
        identifier)
      [arm "scoped_identifier" (some "path") [m "::", f "name" (.alt super_ identifier)], generic]
  | .paren =>
    .alt (n "unit_expression" [m "(", m ")"])
      (.grow false (.row [m "(", attributes, r (.expression true)]) [
        arm "parenthesized_expression" none [m ")"],
        arm "tuple_expression" none [moreCommas (.row [attributes, r (.expression true)]), m ")"]])
  | .array => n "array_expression" [
      m "[", attributes,
      .opt (.row [
        r (.expression true),
        .alt (.row [m ";", f "length" (r (.expression true))])
          (moreCommas (.row [attributes, r (.expression true)]))]),
      m "]"]
  | .closure b => n "closure_expression" [
      .opt (w "static"), .opt (w "async"), .opt (w "move"),
      f "parameters" (n "closure_parameters" [p '|', .opt (commas (.row [attributes, r .closureParameter])), p '|']),
      .alt (.row [m "->", f "return_type" (r .type), f "body" (r .block)])
        (f "body" (.alt (r (.expression b)) (w "_")))]
  | .blockLike =>
    let labelled : R := .opt (.row [r .label, m ":"])
    .first [
      n "unsafe_block" [w "unsafe", r .block],
      n "async_block" [w "async", .opt (w "move"), r .block],
      n "gen_block" [w "gen", .opt (w "move"), r .block],
      n "try_block" [w "try", r .block],
      n "const_block" [w "const", f "body" (r .block)],
      n "if_expression" [
        w "if", f "condition" (r (.condition false)), f "consequence" (r .block),
        .opt (f "alternative" (r .elseClause))],
      n "match_expression" [w "match", f "value" (r (.expression false)), f "body" (r .matchBlock)],
      n "while_expression" [labelled, w "while", f "condition" (r (.condition false)), f "body" (r .block)],
      n "loop_expression" [labelled, w "loop", f "body" (r .block)],
      n "for_expression" [
        labelled, w "for", f "pattern" (r .pattern), w "in", f "value" (r (.expression false)), f "body" (r .block)]]
      (r .block)
  | .block => n "block" [
      .opt (.row [r .label, m ":"]), m "\x7b", .many (r .statement), .opt (r (.expression true)), m "\x7d"]
  | .elseClause => n "else_clause" [w "else", .alt (r .block) (r .blockLike)]
  | .condition b =>
    let link : R := .row [m "&&", .alt (r (.letCondition b)) (r (.level .comparison b))]
    .alt (.grow false (r (.letCondition b)) [arm "let_chain" none [.many1 link]])
      (.grow false (r (.expression b)) [arm "let_chain" none [.many1 link]])
  | .letCondition b => n "let_condition" [
      w "let", f "pattern" (r .pattern), m "=", f "value" (r (.level .comparison b))]
  | .matchBlock => n "match_block" [inBraces (.many (r .matchArm))]
  | .matchArm => n "match_arm" [
      .many (.alt (r .attribute) (r .innerAttribute)),
      f "pattern" (n "match_pattern" [
        r .pattern, .opt (.row [w "if", f "condition" (r (.condition true))])]),
      m "=>",
      .alt (.row [f "value" (r .blockLike), blockEnds, .opt (m ",")])
        (.row [f "value" (r (.expression true)), .opt (m ",")])]
  | .arguments => n "arguments" [m "(", .opt (commas (.row [attributes, r (.expression true)])), m ")"]
  | .fieldInitializers => n "field_initializer_list" [inBraces (.opt (commas (.first [
      n "base_field_initializer" [m "..", r (.expression true)],
      n "field_initializer" [
        attributes, f "field" (.alt (name "field_identifier") (leaf "integer_literal")), m ":",
        f "value" (r (.expression true))]]
      (n "shorthand_field_initializer" [attributes, identifier]))))]
  -- Patterns
  | .pattern =>
    .alt (n "or_pattern" [m "|", r .pattern])
      (.grow true (r .onePattern) [arm "or_pattern" none [m "|", r .onePattern]])
  | .literalPattern =>
    .alt (n "negative_literal" [m "-", .alt (leaf "integer_literal") (leaf "float_literal")]) (r .literal)
  | .onePattern =>
    let limit : R := .alt (r .literalPattern) (r .path)
    let rangeArm : Arm R := arm "range_pattern" none [.first [m "..=", m "..."] (m ".."), .opt limit]
    .first [
      .grow false (r .literalPattern) [rangeArm],
      n "range_pattern" [.alt (m "..=") (m ".."), limit],
      n "remaining_field_pattern" [m ".."],
      n "reference_pattern" [p '&', .opt mutable, r .onePattern],
      n "ref_pattern" [w "ref", r .onePattern],
      n "mut_pattern" [mutable, r .onePattern],
      w "_",
      n "tuple_pattern" [m "(", .opt (commas (r .pattern)), m ")"],
      n "slice_pattern" [m "[", .opt (commas (r .pattern)), m "]"],
      n "const_block" [w "const", f "body" (r .block)],
      n "captured_pattern" [identifier, m "@", r .onePattern],
      r .macroInvocation,
      n "struct_pattern" [
        f "type" (r .structPath),
        inBraces (.opt (commas (.row [attributes, .alt
          (n "remaining_field_pattern" [m ".."])
          (n "field_pattern" [
            .opt (w "ref"), .opt mutable,
            .alt
              (.row [
                f "name" (.alt (name "field_identifier") (leaf "integer_literal")), m ":",
                f "pattern" (r .pattern)])
              (f "name" (name "shorthand_field_identifier"))])])))],
      .grow false (r .path) [
        arm "tuple_struct_pattern" (some "type") [m "(", .opt (commas (r .pattern)), m ")"],
        rangeArm]]
      (leaf "metavariable")
where
  attributeBody : R := n "attribute" [
    .alt (w "unsafe") (r .path),
    .opt (.alt (.row [m "=", f "value" (r (.expression true))]) (f "arguments" (r .tokenTree)))]

/-- The tree of a text, or `none` if the text does not fit the grammar. -/
def tree? (source : List Char) : Option Tree := (lexemes source).tree? rules .file

end SyntaxTally.Syntax.Rust
