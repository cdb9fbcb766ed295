/-!
# Shipped queries

The queries that come with the program, one for each language, as their text.
-/
namespace SyntaxTally.Language.Shipped

/-- What is counted in Python sources. -/
def python : String :=
  String.join ([
    "; Highlight captures for tree-sitter-python.",
    "; Captures starting with \"_\" are helpers and never reported.",
    "",
    "(comment) @comment",
    "",
    "(string) @string",
    "",
    "(integer) @number",
    "(float) @number",
    "",
    "[",
    "  (true)",
    "  (false)",
    "] @boolean",
    "",
    "(none) @constant.builtin",
    "",
    "(function_definition",
    "  name: (identifier) @function)",
    "",
    "(class_definition",
    "  name: (identifier) @type)",
    "",
    "(decorator) @attribute",
    "",
    "(parameters",
    "  (identifier) @variable.parameter)",
    "",
    "(call",
    "  function: (identifier) @function.call)",
    "",
    "(call",
    "  function: (attribute",
    "    attribute: (identifier) @function.method.call))",
    "",
    "(call",
    "  function: (identifier) @_callee",
    "  (#any-of? @_callee \"print\" \"len\" \"range\" \"open\" \"isinstance\" \"super\")) @function.builtin",
    "",
    "(import_statement) @import",
    "(import_from_statement) @import",
    "",
    "[",
    "  \"def\"",
    "  \"class\"",
    "  \"return\"",
    "  \"if\"",
    "  \"elif\"",
    "  \"else\"",
    "  \"for\"",
    "  \"while\"",
    "  \"in\"",
    "  \"import\"",
    "  \"from\"",
    "  \"as\"",
    "  \"with\"",
    "  \"try\"",
    "  \"except\"",
    "  \"finally\"",
    "  \"raise\"",
    "  \"pass\"",
    "  \"lambda\"",
    "  \"not\"",
    "  \"and\"",
    "  \"or\"",
    "  \"is\"",
    "] @keyword"].map (· ++ "\n"))

/-- What is counted in Rust sources. -/
def rust : String :=
  String.join ([
    "; Highlight captures for tree-sitter-rust.",
    "; Captures starting with \"_\" are helpers and never reported.",
    "",
    "(line_comment) @comment",
    "(block_comment) @comment",
    "",
    "[",
    "  (string_literal)",
    "  (raw_string_literal)",
    "] @string",
    "",
    "(char_literal) @string.special",
    "",
    "[",
    "  (integer_literal)",
    "  (float_literal)",
    "] @number",
    "",
    "(boolean_literal) @boolean",
    "",
    "(function_item",
    "  name: (identifier) @function)",
    "",
    "(struct_item",
    "  name: (type_identifier) @type)",
    "",
    "(enum_item",
    "  name: (type_identifier) @type)",
    "",
    "(trait_item",
    "  name: (type_identifier) @type)",
    "",
    "(primitive_type) @type.builtin",
    "",
    "(parameter",
    "  pattern: (identifier) @variable.parameter)",
    "",
    "(call_expression",
    "  function: (identifier) @function.call)",
    "",
    "(call_expression",
    "  function: (field_expression",
    "    field: (field_identifier) @function.method.call))",
    "",
    "(macro_invocation",
    "  macro: (identifier) @function.macro)",
    "",
    "(attribute_item) @_attribute",
    "",
    "(use_declaration) @import",
    "",
    "[",
    "  \"fn\"",
    "  \"let\"",
    "  \"struct\"",
    "  \"enum\"",
    "  \"impl\"",
    "  \"trait\"",
    "  \"pub\"",
    "  \"use\"",
    "  \"mod\"",
    "  \"match\"",
    "  \"if\"",
    "  \"else\"",
    "  \"for\"",
    "  \"while\"",
    "  \"loop\"",
    "  \"return\"",
    "  \"const\"",
    "  \"static\"",
    "  \"as\"",
    "  \"in\"",
    "] @keyword"].map (· ++ "\n"))

end SyntaxTally.Language.Shipped
