import GoReach.Text.Identifier
import GoReach.Grammar.Rule

/-!
# The grammar of Go

Two liberties are taken with the language, so that fragments can be read as well as whole files:
statements may stand at file scope, and a file need not begin with a package clause.

Newlines end statements only where the grammar has a terminator; elsewhere they are blanks.  The
words `new` and `make` are not keywords of an expression: they appear as identifiers in the tree.
-/

namespace GoReach.Go

open GoReach.Text GoReach.Grammar

/-! ## Writing rules -/

abbrev R := Rule Part

/-- A keyword or an operator. -/
def tok (s : String) : R := .leaf (.terminal (.word s))

/-- A reference to a definition. -/
def ref (name : String) : R := .leaf (.ref name)

/-- A token given by a pattern. -/
def pattern (p : Pattern CharSet) : R := .leaf (.terminal { pattern := p })

/-- One of several words. -/
def oneOf (words : List String) : R := .choice (words.map tok)

def opt (r : R) : R := r.optional

def many (r : R) : R := r.repeated

def field (name : String) (r : R) : R := r.field name

/-- One or more, with commas between them. -/
def commaSep1 (r : R) : R := r ++ many (tok "," ++ r)

/-- Any number, with commas between them. -/
def commaSep (r : R) : R := opt (commaSep1 r)

/-! ## Tokens -/

namespace Literal

abbrev P := Pattern CharSet

def ch (c : Char) : P := .one (.single c)

def anyOf (s : String) : P := .one (.ofChars s.toList)

def digitOf (ranges : List (Char × Char)) : P :=
  .one (.ofRanges (ranges.map fun (a, b) => (a.toNat, b.toNat)))

def noneOf (s : String) : P := .one (CharSet.ofChars s.toList).complement

def hexDigit : P := digitOf [('0', '9'), ('a', 'f'), ('A', 'F')]
def octalDigit : P := digitOf [('0', '7')]
def decimalDigit : P := digitOf [('0', '9')]
def binaryDigit : P := digitOf [('0', '1')]

def lowLine : P := (ch '_').optional

/-- Digits with single low lines between them. -/
def digits (digit : P) : P := digit ++ .star (lowLine ++ digit)

def binary : P := ch '0' ++ anyOf "bB" ++ lowLine ++ digits binaryDigit
def octal : P := ch '0' ++ (anyOf "oO").optional ++ lowLine ++ digits octalDigit
def hex : P := ch '0' ++ anyOf "xX" ++ lowLine ++ digits hexDigit
def decimal : P :=
  .either (ch '0') (digitOf [('1', '9')] ++ (lowLine ++ digits decimalDigit).optional)

def int : P := .oneOf [binary, decimal, octal, hex]

def exponent (mark : String) : P := anyOf mark ++ (anyOf "+-").optional ++ digits decimalDigit

def decimalFloat : P :=
  let ds := digits decimalDigit
  let exp := exponent "eE"
  .oneOf [ds ++ ch '.' ++ ds.optional ++ exp.optional, ds ++ exp, ch '.' ++ ds ++ exp.optional]

def hexMantissa : P :=
  let ds := digits hexDigit
  .oneOf [lowLine ++ ds ++ ch '.' ++ ds.optional, lowLine ++ ds, ch '.' ++ ds]

def hexFloat : P := ch '0' ++ anyOf "xX" ++ hexMantissa ++ exponent "pP"

def float : P := .either decimalFloat hexFloat

def imaginary : P := .oneOf [digits decimalDigit, int, float] ++ ch 'i'

def rune : P :=
  let escape : P := .oneOf [
    ch 'x' ++ .times 2 hexDigit, .times 3 octalDigit,
    ch 'u' ++ .times 4 hexDigit, ch 'U' ++ .times 8 hexDigit, anyOf "abfnrtv\\'\""]
  ch '\'' ++ .either (noneOf "'\\") (ch '\\' ++ escape) ++ ch '\''

def rawString : P := ch '`' ++ .star (noneOf "`") ++ ch '`'

def escapeSequence : P :=
  ch '\\' ++ .oneOf [
    noneOf "xuU", .times 2 decimalDigit ++ decimalDigit.optional,
    ch 'x' ++ .times 2 hexDigit ++ .star hexDigit,
    ch 'u' ++ .times 4 hexDigit, ch 'U' ++ .times 8 hexDigit]

def lineComment : P := .text "//" ++ .star (noneOf "\n")

def blockComment : P :=
  let notStar : P := .star (noneOf "*")
  let stars : P := (ch '*').plus
  .text "/*" ++ notStar ++ stars ++ .star (noneOf "/*" ++ notStar ++ stars) ++ ch '/'

def identifier : P :=
  .one (CharSet.single '_' ++ identifierStart) ++
    .star (.one (CharSet.single '_' ++ identifierContinue))

end Literal

/-! ## Operators -/

def multiplicativeOperators : List String := ["*", "/", "%", "<<", ">>", "&", "&^"]
def additiveOperators : List String := ["+", "-", "|", "^"]
def comparativeOperators : List String := ["==", "!=", "<", "<=", ">", ">="]

def assignmentOperators : List String :=
  (multiplicativeOperators ++ additiveOperators).map (· ++ "=") ++ ["="]

/-- How tightly expressions bind. -/
def primary : Int := 7
def unary : Int := 6
def multiplicative : Int := 5
def additive : Int := 4
def comparative : Int := 3
def conjunctive : Int := 2
def disjunctive : Int := 1
def composite : Int := -1

/-! ## Parts that recur -/

/-- The end of a statement. -/
def terminator : R := oneOf ["\n", ";", "\x00"]

/-- Items with terminators between them, and perhaps one after the last. -/
def terminated (item : R) : R := opt (item ++ many (terminator ++ item) ++ opt terminator)

def result : R := field "result" (opt (.either (ref "parameter_list") (ref "_simple_type")))

def builtin : R := (oneOf ["new", "make"]).rename "identifier"

/-- A simple statement before the main part of a header. -/
def initializer : R := opt (field "initializer" (ref "_simple_statement") ++ tok ";")

def label : R := (ref "identifier").rename "label_name"

def node (name : String) (body : R) : Definition := { name, body }
def group (name : String) (body : R) : Definition := { name, role := .group, body }
def family (name : String) (members : List R) : Definition :=
  { name, role := .family, body := .choice members }
def inline (name : String) (body : R) : Definition := { name, role := .inline, body }

/-! ## Definitions -/

def fileDefinitions : List Definition := [
  node "source_file"
    (many (.either (ref "_statement" ++ terminator) (ref "_top_level_declaration" ++ terminator)) ++
      opt (ref "_top_level_declaration")),
  inline "_top_level_declaration"
    (.choice (["package_clause", "function_declaration", "method_declaration",
      "import_declaration"].map ref)),
  node "package_clause" (tok "package" ++ ref "_package_identifier"),
  node "import_declaration" (tok "import" ++ .either (ref "import_spec") (ref "import_spec_list")),
  node "import_spec"
    (opt (field "name"
        (.choice [ref "dot", ref "blank_identifier", ref "_package_identifier"])) ++
      field "path" (ref "_string_literal")),
  node "dot" (tok "."),
  node "blank_identifier" (tok "_"),
  node "import_spec_list" (tok "(" ++ terminated (ref "import_spec") ++ tok ")")]

def declarationDefinitions : List Definition := [
  group "_declaration"
    (.choice (["const_declaration", "type_declaration", "var_declaration"].map ref)),
  node "const_declaration"
    (tok "const" ++ .either (ref "const_spec")
      (tok "(" ++ many (ref "const_spec" ++ terminator) ++ tok ")")),
  node "const_spec" (.leaningLeft 0
    (field "name" (commaSep1 (ref "identifier")) ++
      opt (opt (field "type" (ref "_type")) ++ tok "=" ++ field "value" (ref "expression_list")))),
  node "var_declaration"
    (tok "var" ++ .either (ref "var_spec")
      (tok "(" ++ many (ref "var_spec" ++ terminator) ++ tok ")")),
  node "var_spec"
    (field "name" (commaSep1 (ref "identifier")) ++
      .either
        (field "type" (ref "_type") ++ opt (tok "=" ++ field "value" (ref "expression_list")))
        (tok "=" ++ field "value" (ref "expression_list"))),
  node "function_declaration" (.leaningRight 1
    (tok "func" ++ field "name" (ref "identifier") ++
      field "type_parameters" (opt (ref "type_parameter_list")) ++
      field "parameters" (ref "parameter_list") ++ result ++
      field "body" (opt (ref "block")))),
  node "method_declaration" (.leaningRight 1
    (tok "func" ++ field "receiver" (ref "parameter_list") ++
      field "name" (ref "_field_identifier") ++
      field "parameters" (ref "parameter_list") ++ result ++
      field "body" (opt (ref "block")))),
  node "type_parameter_list"
    (tok "[" ++ commaSep1 (ref "parameter_declaration") ++ opt (tok ",") ++ tok "]"),
  node "parameter_list"
    (tok "(" ++
      opt
        (commaSep (.either (ref "parameter_declaration") (ref "variadic_parameter_declaration")) ++
          opt (tok ",")) ++
      tok ")"),
  node "parameter_declaration" (.leaningLeft 0
    (commaSep (field "name" (ref "identifier")) ++ field "type" (ref "_type"))),
  node "variadic_parameter_declaration"
    (field "name" (opt (ref "identifier")) ++ tok "..." ++ field "type" (ref "_type")),
  node "type_alias"
    (field "name" (ref "_type_identifier") ++ tok "=" ++ field "type" (ref "_type")),
  node "type_declaration"
    (tok "type" ++ .choice [ref "type_spec", ref "type_alias",
      tok "(" ++ many (.either (ref "type_spec") (ref "type_alias") ++ terminator) ++ tok ")"]),
  node "type_spec"
    (field "name" (ref "_type_identifier") ++
      field "type_parameters" (opt (ref "type_parameter_list")) ++ field "type" (ref "_type")),
  node "field_name_list" (commaSep1 (ref "_field_identifier")),
  node "expression_list" (commaSep1 (ref "_expression"))]

def typeDefinitions : List Definition := [
  inline "_type" (.either (ref "_simple_type") (ref "parenthesized_type")),
  node "parenthesized_type" (tok "(" ++ ref "_type" ++ tok ")"),
  family "_simple_type"
    ((ref "_type_identifier").weighing (-1) ::
      ["generic_type", "qualified_type", "pointer_type", "struct_type", "interface_type",
        "array_type", "slice_type", "map_type", "channel_type", "function_type", "union_type",
        "negated_type"].map ref),
  node "generic_type"
    (field "type" (.choice
        (["_type_identifier", "qualified_type", "union_type", "negated_type"].map ref)) ++
      field "type_arguments" (ref "type_arguments")),
  node "type_arguments" (.weighing 2
    (tok "[" ++ commaSep1 (ref "_type") ++ opt (tok ",") ++ tok "]")),
  node "pointer_type" (.rank unary (tok "*" ++ ref "_type")),
  node "array_type" (.leaningRight 0
    (tok "[" ++ field "length" (ref "_expression") ++ tok "]" ++ field "element" (ref "_type"))),
  node "implicit_length_array_type"
    (tok "[" ++ tok "..." ++ tok "]" ++ field "element" (ref "_type")),
  node "slice_type" (.leaningRight 0 (tok "[" ++ tok "]" ++ field "element" (ref "_type"))),
  node "struct_type" (tok "struct" ++ ref "field_declaration_list"),
  node "union_type" (.leaningLeft 0 (ref "_type" ++ tok "|" ++ ref "_type")),
  node "negated_type" (.leaningLeft 0 (tok "~" ++ ref "_type")),
  node "field_declaration_list" (tok "\x7b" ++ terminated (ref "field_declaration") ++ tok "\x7d"),
  node "field_declaration"
    (.either
        (commaSep1 (field "name" (ref "_field_identifier")) ++ field "type" (ref "_type"))
        (opt (tok "*") ++
          field "type"
            (.choice (["_type_identifier", "qualified_type", "generic_type"].map ref))) ++
      field "tag" (opt (ref "_string_literal"))),
  node "interface_type"
    (tok "interface" ++ tok "\x7b" ++ terminated (ref "_interface_body") ++ tok "\x7d"),
  group "_interface_body"
    (.choice [ref "method_spec", ref "struct_elem", (ref "_simple_type").rename "constraint_elem"]),
  node "struct_elem" (ref "struct_term" ++ many (tok "|" ++ ref "struct_term")),
  node "struct_term" (.rank 1 (opt (oneOf ["~", "*"]) ++ ref "struct_type")),
  node "method_spec"
    (field "name" (ref "_field_identifier") ++ field "parameters" (ref "parameter_list") ++ result),
  node "map_type" (.leaningRight 0
    (tok "map" ++ tok "[" ++ field "key" (ref "_type") ++ tok "]" ++ field "value" (ref "_type"))),
  node "channel_type" (.leaningLeft 0 (.choice [
    tok "chan" ++ field "value" (ref "_type"),
    tok "chan" ++ tok "<-" ++ field "value" (ref "_type"),
    .rank unary (tok "<-" ++ tok "chan" ++ field "value" (ref "_type"))])),
  node "function_type" (.leaningRight 0
    (tok "func" ++ field "parameters" (ref "parameter_list") ++ result))]

def statementDefinitions : List Definition := [
  node "block" (tok "\x7b" ++ opt (ref "_statement_list") ++ tok "\x7d"),
  group "_statement_list"
    (let emptyLabel : R := (ref "empty_labeled_statement").rename "labeled_statement"
     .either
      (ref "_statement" ++ many (terminator ++ ref "_statement") ++
        opt (terminator ++ opt emptyLabel))
      emptyLabel),
  family "_statement" (["_declaration", "_simple_statement", "return_statement", "go_statement",
    "defer_statement", "if_statement", "for_statement", "expression_switch_statement",
    "type_switch_statement", "select_statement", "labeled_statement", "fallthrough_statement",
    "break_statement", "continue_statement", "goto_statement", "block", "empty_statement"].map ref),
  node "empty_statement" (tok ";"),
  family "_simple_statement" (["expression_statement", "send_statement", "inc_statement",
    "dec_statement", "assignment_statement", "short_var_declaration"].map ref),
  node "expression_statement" (ref "_expression"),
  node "send_statement"
    (field "channel" (ref "_expression") ++ tok "<-" ++ field "value" (ref "_expression")),
  node "receive_statement"
    (opt (field "left" (ref "expression_list") ++ oneOf ["=", ":="]) ++
      field "right" (ref "_expression")),
  node "inc_statement" (ref "_expression" ++ tok "++"),
  node "dec_statement" (ref "_expression" ++ tok "--"),
  node "assignment_statement"
    (field "left" (ref "expression_list") ++ field "operator" (oneOf assignmentOperators) ++
      field "right" (ref "expression_list")),
  node "short_var_declaration"
    (field "left" (ref "expression_list") ++ tok ":=" ++ field "right" (ref "expression_list")),
  node "labeled_statement" (field "label" label ++ tok ":" ++ ref "_statement"),
  node "empty_labeled_statement" (field "label" label ++ tok ":"),
  node "fallthrough_statement" (.leaningLeft 0 (tok "fallthrough")),
  node "break_statement" (tok "break" ++ opt label),
  node "continue_statement" (tok "continue" ++ opt label),
  node "goto_statement" (tok "goto" ++ label),
  node "return_statement" (tok "return" ++ opt (ref "expression_list")),
  node "go_statement" (tok "go" ++ ref "_expression"),
  node "defer_statement" (tok "defer" ++ ref "_expression"),
  node "if_statement"
    (tok "if" ++ initializer ++ field "condition" (ref "_expression") ++
      field "consequence" (ref "block") ++
      opt (tok "else" ++ field "alternative" (.either (ref "block") (ref "if_statement")))),
  node "for_statement"
    (tok "for" ++ opt (.choice [ref "_expression", ref "for_clause", ref "range_clause"]) ++
      field "body" (ref "block")),
  node "for_clause"
    (field "initializer" (opt (ref "_simple_statement")) ++ tok ";" ++
      field "condition" (opt (ref "_expression")) ++ tok ";" ++
      field "update" (opt (ref "_simple_statement"))),
  node "range_clause"
    (opt (field "left" (ref "expression_list") ++ oneOf ["=", ":="]) ++
      tok "range" ++ field "right" (ref "_expression")),
  node "expression_switch_statement"
    (tok "switch" ++ initializer ++ field "value" (opt (ref "_expression")) ++
      tok "\x7b" ++ many (.either (ref "expression_case") (ref "default_case")) ++ tok "\x7d"),
  node "expression_case"
    (tok "case" ++ field "value" (ref "expression_list") ++ tok ":" ++ opt (ref "_statement_list")),
  node "default_case" (tok "default" ++ tok ":" ++ opt (ref "_statement_list")),
  node "type_switch_statement"
    (tok "switch" ++ ref "_type_switch_header" ++
      tok "\x7b" ++ many (.either (ref "type_case") (ref "default_case")) ++ tok "\x7d"),
  group "_type_switch_header"
    (initializer ++ opt (field "alias" (ref "expression_list") ++ tok ":=") ++
      field "value" (ref "_expression") ++ tok "." ++ tok "(" ++ tok "type" ++ tok ")"),
  node "type_case"
    (tok "case" ++ field "type" (commaSep1 (ref "_type")) ++ tok ":" ++
      opt (ref "_statement_list")),
  node "select_statement"
    (tok "select" ++ tok "\x7b" ++ many (.either (ref "communication_case") (ref "default_case")) ++
      tok "\x7d"),
  node "communication_case"
    (tok "case" ++
      field "communication" (.either (ref "send_statement") (ref "receive_statement")) ++
      tok ":" ++ opt (ref "_statement_list"))]

/-- A binary operator of one level. -/
def binary (level : Int) (operators : List String) : R :=
  .leaningLeft level
    (field "left" (ref "_expression") ++ field "operator" (oneOf operators) ++
      field "right" (ref "_expression"))

def expressionDefinitions : List Definition := [
  family "_expression"
    (["unary_expression", "binary_expression", "selector_expression", "index_expression",
        "slice_expression", "call_expression", "type_assertion_expression",
        "type_conversion_expression", "identifier"].map ref ++
      builtin ::
      ["composite_literal", "func_literal", "_string_literal", "int_literal", "float_literal",
        "imaginary_literal", "rune_literal", "nil", "true", "false", "iota",
        "parenthesized_expression"].map ref),
  node "parenthesized_expression" (tok "(" ++ ref "_expression" ++ tok ")"),
  node "call_expression" (.rank primary (.either
    (field "function" builtin ++
      field "arguments" ((ref "special_argument_list").rename "argument_list"))
    (field "function" (ref "_expression") ++
      field "type_arguments" (opt (ref "type_arguments")) ++
      field "arguments" (ref "argument_list")))),
  node "variadic_argument" (.leaningRight 0 (ref "_expression" ++ tok "...")),
  node "special_argument_list"
    (tok "(" ++ ref "_type" ++ many (tok "," ++ ref "_expression") ++ opt (tok ",") ++ tok ")"),
  node "argument_list"
    (let argument : R := .either (ref "_expression") (ref "variadic_argument")
     tok "(" ++ opt (argument ++ many (tok "," ++ argument) ++ opt (tok ",")) ++ tok ")"),
  node "selector_expression" (.rank primary
    (field "operand" (ref "_expression") ++ tok "." ++ field "field" (ref "_field_identifier"))),
  node "index_expression" (.rank primary
    (field "operand" (ref "_expression") ++ tok "[" ++ field "index" (ref "_expression") ++
      tok "]")),
  node "slice_expression" (.rank primary
    (field "operand" (ref "_expression") ++ tok "[" ++
      .either
        (field "start" (opt (ref "_expression")) ++ tok ":" ++
          field "end" (opt (ref "_expression")))
        (field "start" (opt (ref "_expression")) ++ tok ":" ++
          field "end" (ref "_expression") ++ tok ":" ++
          field "capacity" (ref "_expression")) ++
      tok "]")),
  node "type_assertion_expression" (.rank primary
    (field "operand" (ref "_expression") ++ tok "." ++ tok "(" ++ field "type" (ref "_type") ++
      tok ")")),
  node "type_conversion_expression" (.weighing (-1)
    (field "type" (ref "_type") ++ tok "(" ++ field "operand" (ref "_expression") ++
      opt (tok ",") ++ tok ")")),
  node "composite_literal" (.rank composite
    (field "type" (.choice (["map_type", "slice_type", "array_type", "implicit_length_array_type",
        "struct_type", "_type_identifier", "generic_type", "qualified_type"].map ref)) ++
      field "body" (ref "literal_value"))),
  node "literal_value"
    (tok "\x7b" ++
      opt (commaSep (.either (ref "literal_element") (ref "keyed_element")) ++ opt (tok ",")) ++
      tok "\x7d"),
  node "literal_element" (.either (ref "_expression") (ref "literal_value")),
  node "keyed_element" (ref "literal_element" ++ tok ":" ++ ref "literal_element"),
  node "func_literal"
    (tok "func" ++ field "parameters" (ref "parameter_list") ++ result ++
      field "body" (ref "block")),
  node "unary_expression" (.rank unary
    (field "operator" (oneOf ["+", "-", "!", "^", "*", "&", "<-"]) ++
      field "operand" (ref "_expression"))),
  node "binary_expression" (.choice [
    binary multiplicative multiplicativeOperators,
    binary additive additiveOperators,
    binary comparative comparativeOperators,
    binary conjunctive ["&&"],
    binary disjunctive ["||"]]),
  node "qualified_type"
    (field "package" (ref "_package_identifier") ++ tok "." ++
      field "name" (ref "_type_identifier"))]

def tokenDefinitions : List Definition := [
  node "identifier" (pattern Literal.identifier),
  inline "_type_identifier" ((ref "identifier").rename "type_identifier"),
  inline "_field_identifier" ((ref "identifier").rename "field_identifier"),
  inline "_package_identifier" ((ref "identifier").rename "package_identifier"),
  inline "_string_literal" (.either (ref "raw_string_literal") (ref "interpreted_string_literal")),
  node "raw_string_literal" (pattern Literal.rawString),
  node "interpreted_string_literal"
    (tok "\"" ++
      many (.either (ref "_interpreted_string_literal_basic_content") (ref "escape_sequence")) ++
      .leaf (.terminal { Terminal.word "\"" with immediate := true })),
  group "_interpreted_string_literal_basic_content"
    (.leaf (.terminal
      { pattern := (Literal.noneOf "\"\n\\").plus, immediate := true, precedence := 1 })),
  node "escape_sequence"
    (.leaf (.terminal { pattern := Literal.escapeSequence, immediate := true })),
  node "int_literal" (pattern Literal.int),
  node "float_literal" (pattern Literal.float),
  node "imaginary_literal" (pattern Literal.imaginary),
  node "rune_literal" (pattern Literal.rune),
  node "nil" (tok "nil"),
  node "true" (tok "true"),
  node "false" (tok "false"),
  node "iota" (tok "iota"),
  node "comment" (pattern (.either Literal.lineComment Literal.blockComment))]

/-- The grammar of Go. -/
def grammar : Grammar where
  definitions := fileDefinitions ++ declarationDefinitions ++ typeDefinitions ++
    statementDefinitions ++ expressionDefinitions ++ tokenDefinitions
  extras := ["comment"]
  blanks := .ofChars [' ', '\t', '\r', '\n']
  word := "identifier"

end GoReach.Go
