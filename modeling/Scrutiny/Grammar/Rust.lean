import Scrutiny.Grammar.Lexical.Rust

/-!
# Rust

Rules for the types, patterns, expressions and declarations of Rust, and the grammar made of them.
-/

namespace Scrutiny.Grammar.Rust

/-!
## Rules of Rust

The names of the rules that refer to each other, and the tokens as patterns.

In front of a block, as after `if`, a brace opens the block and not the fields of a value;
`bare` marks the expressions that stand there.
-/

/-- The rules that refer to each other. -/
inductive Rule where
  /-- A statement of a block or of a file. -/
  | statement
  /-- A declaration, as it may stand in a file or in the body of a type. -/
  | declaration
  /-- Statements between braces. -/
  | block
  /-- An expression. -/
  | expression (bare : Bool)
  /-- An operand of an operator. -/
  | operand (bare : Bool)
  /-- An expression that ends with a block. -/
  | blockLike
  /-- A pattern. -/
  | pattern
  /-- A pattern without alternatives. -/
  | simplePattern
  /-- A type, with further bounds. -/
  | type
  /-- A type without further bounds. -/
  | simpleType
  /-- The arguments of a macro. -/
  | tokenTree

/-- Patterns over the rules of this grammar. -/
abbrev Piece := Pattern Rule

open Pattern

/-- A sign, unless one of the characters `without` follows it. -/
def sign (word : String) (without : String := "") : Piece :=
  .token (lexeme skip (signAt word.toList without.toList))

/-- A word with a meaning of its own. -/
def keyword (word : String) : Piece :=
  .token (lexeme skip (keywordAt isWordPart word.toList))

/-- One of several words. -/
def anyKeyword (words : List String) : Piece :=
  oneOf (words.map keyword)

/-- A word that is not among `reserved`. -/
def word (reserved : List String := []) : Piece :=
  .token (lexeme skip (nameAt reserved))

/-- A word, as the name that is defined. -/
def definedName : Piece := .part .name (.node .other word)

/-- A lifetime or a label. -/
def lifetime : Piece := .token (lexeme skip lifetimeAt)

/-- A number, a string, a character or a truth value. -/
def literal : Piece :=
  oneOf [
    .token (lexeme skip stringAt), .token (lexeme skip characterAt),
    .token (lexeme skip numberAt), keyword "true", keyword "false"]

/-- Items between commas, with an optional comma at the end. -/
def commaList (item : Piece) : Piece :=
  .seq (sepBy item (sign ",")) (opt (sign ","))

/-- Items between commas inside of brackets; there may be none. -/
def bracketed (opening : String) (item : Piece) (closing : String) : Piece :=
  inOrder [sign opening, opt (commaList item), sign closing]

/-- A type. -/
def type : Piece := .call .type

/-- An expression that may hold a value with its fields. -/
def expression : Piece := .call (.expression false)

/-- An expression in front of a block. -/
def bareExpression : Piece := .call (.expression true)

/-- A block. -/
def block : Piece := .call .block

/-- A pattern. -/
def pattern : Piece := .call .pattern

/-- What separates the parts of a path. -/
def pathSeparator : Piece := sign "::"

/-- An attribute. -/
def attributeItem : Piece :=
  let path := .seq (opt pathSeparator) (sepBy word pathSeparator)
  inOrder [
    sign "#", opt (sign "!"), sign "[", path,
    opt (oneOf [.seq (sign "=" "=>") expression, .call .tokenTree]), sign "]"]

/-- The attributes before an item of a list. -/
def attributes : Piece := .many attributeItem

/-- The arguments of a macro between brackets of one kind. -/
def tokenTree : Piece :=
  let token := Pattern.token (lexeme skip macroTokenAt)
  let items := Pattern.many (oneOf [.call .tokenTree, token])
  oneOf [
    inOrder [sign "(", items, sign ")"],
    inOrder [sign "[", items, sign "]"],
    inOrder [sign "\x7b", items, sign "\x7d"]]

/-!
## Types in Rust

Types, their parameters and bounds, and the parameters of functions.
-/

/-- A bound on a type. -/
def bound : Piece :=
  oneOf [
    lifetime,
    inOrder [keyword "for", bracketed "<" lifetime ">", .call .simpleType],
    .seq (opt (sign "?")) (.call .simpleType)]

/-- Bounds with plus signs between them. -/
def bounds : Piece := sepBy bound (sign "+")

/-- The parameters of a generic definition. -/
def typeParameters : Piece :=
  let parameter := oneOf [
    .seq lifetime (opt (.seq (sign ":") bounds)),
    inOrder [keyword "const", word, sign ":", type,
      opt (.seq (sign "=" "=>") (oneOf [block, .seq (opt (sign "-")) literal, word]))],
    inOrder [word, opt (.seq (sign ":" ":") bounds), opt (.seq (sign "=" "=>") type)]]
  inOrder [sign "<", commaList (.seq attributes parameter), sign ">"]

/-- The arguments that a generic type is applied to. -/
def typeArguments : Piece :=
  let argument := oneOf [
    lifetime,
    .seq (opt (sign "-")) literal,
    block,
    inOrder [word, opt (bracketed "<" type ">"), sign "=" "=>", type],
    .seq type (opt (.seq (sign ":" ":") bounds))]
  inOrder [sign "<", commaList argument, sign ">"]

/-- The parameter that stands for the value a method is called on. -/
def selfParameter : Piece :=
  inOrder [
    opt (.seq (sign "&") (opt lifetime)), opt (keyword "mut"), keyword "self",
    opt (.seq (sign ":" ":") type)]

/-- The parameters of a function. -/
def parameters : Piece :=
  let parameter := oneOf [
    selfParameter,
    sign "...",
    inOrder [pattern, sign ":" ":", oneOf [sign "...", type]],
    type]
  bracketed "(" (.seq attributes parameter) ")"

/-- The type of a result. -/
def resultType : Piece := opt (.seq (sign "->") type)

/-- The words before the word `fn`. -/
def functionModifiers : Piece :=
  let abi := .seq (keyword "extern") (opt (.token (lexeme skip stringAt)))
  .many (oneOf [anyKeyword ["async", "default", "const", "unsafe"], abi])

/-- One part of a path that names a type, with its arguments. -/
def typeSegment : Piece :=
  .seq word (opt (oneOf [
    .seq (opt pathSeparator) typeArguments,
    .seq (bracketed "(" type ")") resultType]))

/-- A path that names a type. -/
def typePath : Piece :=
  .seq (opt pathSeparator) (sepBy typeSegment pathSeparator)

/-- A type of a trait that is named in front of the path. -/
def qualifiedSelf : Piece :=
  inOrder [sign "<", type, opt (.seq (keyword "as") type), sign ">"]

/-- A type without further bounds. -/
def simpleType : Piece :=
  let lifetimes := opt (.seq (keyword "for") (bracketed "<" lifetime ">"))
  oneOf [
    inOrder [sign "&", opt lifetime, opt (keyword "mut"), .call .simpleType],
    inOrder [sign "*", anyKeyword ["const", "mut"], .call .simpleType],
    bracketed "(" type ")",
    inOrder [sign "[", type, opt (.seq (sign ";") expression), sign "]"],
    sign "!" "=",
    inOrder [lifetimes, functionModifiers, keyword "fn", parameters, resultType],
    .seq (anyKeyword ["impl", "dyn"]) bounds,
    inOrder [keyword "for", bracketed "<" lifetime ">", .call .simpleType],
    .seq qualifiedSelf (many1 (.seq pathSeparator typeSegment)),
    inOrder [opt pathSeparator, sepBy word pathSeparator, sign "!" "=", .call .tokenTree],
    typePath]

/-- A type with further bounds. -/
def boundedType : Piece :=
  .seq (oneOf [.seq lifetime (.ahead (sign "+")), .call .simpleType])
    (.many (.seq (sign "+" "=") (oneOf [lifetime, .call .simpleType])))

/-- Conditions on the parameters of a definition. -/
def whereClause : Piece :=
  let subject := oneOf [lifetime, type]
  let condition := inOrder [subject, sign ":" ":", bounds]
  opt (.seq (keyword "where") (opt (commaList condition)))

/-- The type that a block implements, with its shape told apart: a type applied to arguments, a
path with several parts, or any other type. -/
def implementedType : Piece :=
  let leading := .seq (opt pathSeparator) (.many (.seq typeSegment pathSeparator))
  let leading1 := .seq (opt pathSeparator) (many1 (.seq typeSegment pathSeparator))
  let ends := .absent (oneOf [sign "<", sign "(", sign "!", sign "+"])
  oneOf [
    .node .typeApplication (inOrder [
      .part .type (.node .other (.seq leading (word ["impl", "dyn"]))), typeArguments,
      .absent (oneOf [pathSeparator, sign "+"])]),
    .node .typePath (inOrder [leading1, definedName, ends]),
    .node .other type]

/-!
## Expressions and patterns in Rust

Operators are read without regard to precedence, because no answer depends on how an
expression is grouped.
-/

/-! ### Patterns -/

/-- A path that names a constant or a variant, with arguments of types. -/
def valuePath (reserved : List String) : Piece :=
  let next := .seq pathSeparator (oneOf [typeArguments, word])
  oneOf [
    .seq (word reserved) (.many next),
    many1 next,
    .seq qualifiedSelf (many1 next)]

/-- The end of a range. -/
def rangeEnd : Piece :=
  .seq (oneOf [sign "..=", sign "...", sign ".."])
    (opt (oneOf [.seq (opt (sign "-")) literal, valuePath ["if"]]))

/-- One field of a pattern. -/
def fieldPattern : Piece :=
  oneOf [
    sign "..",
    .seq attributes (oneOf [
      inOrder [oneOf [word, .token (lexeme skip integerAt)], sign ":" ":", pattern],
      inOrder [opt (keyword "ref"), opt (keyword "mut"), word]])]

/-- A pattern without alternatives. -/
def simplePattern : Piece :=
  let patterns (opening closing : String) := bracketed opening pattern closing
  oneOf [
    inOrder [opt (sign "-"), literal, opt rangeEnd],
    inOrder [sign "&", opt (keyword "mut"), .call .simplePattern],
    inOrder [keyword "ref", opt (keyword "mut"), .call .simplePattern],
    .seq (anyKeyword ["mut", "box"]) (.call .simplePattern),
    .seq (keyword "const") block,
    rangeEnd,
    patterns "(" ")",
    patterns "[" "]",
    inOrder [valuePath [], sign "!" "=", .call .tokenTree],
    .seq (valuePath []) (oneOf [
      patterns "(" ")",
      bracketed "\x7b" fieldPattern "\x7d",
      .seq (sign "@") (.call .simplePattern),
      rangeEnd,
      .empty])]

/-- A pattern with its alternatives. -/
def anyPattern : Piece :=
  .seq (opt (sign "|" "|")) (sepBy (.call .simplePattern) (sign "|" "|"))

/-! ### Expressions that end with a block -/

/-- A condition: an expression, or patterns that have to match. -/
def condition : Piece :=
  let match_ := inOrder [keyword "let", pattern, sign "=" "=", bareExpression]
  sepBy (oneOf [match_, bareExpression]) (sign "&&")

/-- What follows an expression that ends with a block if it is only a part of a larger one. -/
def continuation : Piece :=
  oneOf [sign "." ".", sign "?", sign "+", sign "/", sign "%", sign "^", sign "==", sign "!=",
    sign ">", sign "<=", sign "=" "=>", keyword "as"]

/-- An arm of a choice between patterns. -/
def matchArm : Piece :=
  inOrder [
    attributes, pattern, opt (.seq (keyword "if") condition), sign "=>",
    oneOf [
      inOrder [.call .blockLike, .absent continuation, opt (sign ",")],
      .seq expression (oneOf [sign ",", .ahead (sign "\x7d")])]]

/-- An expression that ends with a block. -/
def blockLike : Piece :=
  let label := opt (.seq lifetime (sign ":" ":"))
  let otherwise := Pattern.seq (keyword "else") (oneOf [block, .ahead (keyword "if")])
  .node .other (oneOf [
    .seq
      (.many (inOrder [keyword "if", condition, block, keyword "else", .ahead (keyword "if")]))
      (inOrder [keyword "if", condition, block, opt otherwise]),
    inOrder [keyword "match", bareExpression, sign "\x7b", .many matchArm, sign "\x7d"],
    inOrder [label, keyword "while", condition, block],
    inOrder [label, keyword "loop", block],
    inOrder [label, keyword "for", pattern, keyword "in", bareExpression, block],
    .seq (anyKeyword ["unsafe", "const", "try"]) block,
    inOrder [keyword "async", opt (keyword "move"), block],
    .seq label block])

/-! ### Operands -/

/-- Words that start an operand of another kind and so name nothing there. -/
def operandWords : List String :=
  ["if", "match", "while", "loop", "for", "unsafe", "async", "const", "break", "continue", "return",
    "yield", "move", "static", "true", "false", "let"]

/-- One field of a value. -/
def fieldValue : Piece :=
  oneOf [
    .seq (sign "..") (opt expression),
    .seq attributes (oneOf [
      inOrder [oneOf [word, .token (lexeme skip integerAt)], sign ":" ":", expression],
      word])]

/-- A function that is written as a value. -/
def closure (bare : Bool) : Piece :=
  let parameter := .seq attributes
    (.seq (.call .simplePattern) (opt (.seq (sign ":" ":") type)))
  inOrder [
    opt (keyword "static"), opt (keyword "async"), opt (keyword "move"),
    sign "|", opt (commaList parameter), sign "|",
    oneOf [
      inOrder [sign "->", type, block],
      .call (.expression bare)]]

/-- What an operand starts with. -/
def atom (bare : Bool) : Piece :=
  let fields := if bare then .absent .empty else bracketed "\x7b" fieldValue "\x7d"
  oneOf [
    literal,
    closure bare,
    .seq (valuePath operandWords) (oneOf [
      .seq (sign "!" "=") (.call .tokenTree),
      fields,
      .empty]),
    bracketed "(" (.seq attributes expression) ")",
    inOrder [sign "[", attributes, oneOf [
      inOrder [expression, sign ";", expression],
      opt (commaList (.seq attributes expression))], sign "]"],
    .call .blockLike]

/-- Members, calls and subscripts after an operand. -/
def trailer : Piece :=
  oneOf [
    .seq (sign "." ".") (oneOf [
      .seq word (opt (.seq pathSeparator typeArguments)),
      .token (lexeme skip integerAt)]),
    bracketed "(" (.seq attributes expression) ")",
    inOrder [sign "[", expression, sign "]"],
    sign "?"]

/-- An operand with the operators in front of it. -/
def operand (bare : Bool) : Piece :=
  let again := Pattern.call (.operand bare)
  let value := opt (.call (.expression bare))
  oneOf [
    .seq (oneOf [sign "-", sign "*", sign "!"]) again,
    inOrder [sign "&", oneOf [
      inOrder [keyword "raw", anyKeyword ["const", "mut"], again],
      .seq (opt (keyword "mut")) again]],
    .seq (anyKeyword ["return", "yield"]) value,
    inOrder [keyword "break", opt lifetime, value],
    .seq (keyword "continue") (opt lifetime),
    .seq (oneOf [sign "..=", sign ".." "."]) (if bare then
      opt (.seq (.absent (sign "\x7b")) again) else opt again),
    .seq (atom bare) (.many trailer)]

/-- The operators between two operands. -/
def binaryOperator : Piece :=
  oneOf [
    sign "&&", sign "||", sign "<<=", sign ">>=", sign "<<", sign ">>",
    sign "==", sign "!=", sign "<=", sign ">=",
    sign "+=", sign "-=", sign "*=", sign "/=", sign "%=", sign "^=", sign "&=", sign "|=",
    sign "+", sign "-" ">", sign "*", sign "/", sign "%", sign "^", sign "&", sign "|",
    sign "<", sign ">", sign "=" ">"]

/-- An expression with operators. -/
def wholeExpression (bare : Bool) : Piece :=
  let rest := if bare then .seq (.absent (sign "\x7b")) (.call (.operand bare))
    else .call (.operand bare)
  .seq (.call (.operand bare)) (.many (oneOf [
    .seq (keyword "as") (.call .simpleType),
    .seq (oneOf [sign "..=", sign "...", sign ".."]) (opt rest),
    .seq binaryOperator (.call (.operand bare))]))

/-!
## Declarations in Rust

Functions, types, traits, implementations, modules and the smaller items of a file.
-/

/-- Who may see an item. -/
def visibility : Piece :=
  let path := .seq (opt pathSeparator) (sepBy word pathSeparator)
  opt (.seq (keyword "pub") (opt (inOrder [sign "(", oneOf [
    .seq (keyword "in") path, anyKeyword ["self", "super", "crate"]], sign ")"])))

/-- Declarations between braces. -/
def declarations : Piece :=
  .part .body (.node .block (inOrder [sign "\x7b", .many (.call .declaration), sign "\x7d"]))

/-- A function with its body, or its signature alone. -/
def function : Piece :=
  let head (name : Piece) : Piece := inOrder [
    visibility, functionModifiers, keyword "fn", name, opt typeParameters, parameters, resultType,
    whereClause]
  oneOf [
    .node .functionDef (.seq (head definedName) (.part .body block)),
    .node .other (.seq (head word) (sign ";"))]

/-- Fields between braces. -/
def fields : Piece :=
  bracketed "\x7b" (inOrder [attributes, visibility, word, sign ":" ":", type]) "\x7d"

/-- Fields without names. -/
def orderedFields : Piece :=
  bracketed "(" (inOrder [attributes, visibility, type]) ")"

/-- One variant of an enumeration. -/
def variant : Piece :=
  inOrder [attributes, visibility, word, opt (oneOf [fields, orderedFields]),
    opt (.seq (sign "=" "=>") expression)]

/-- A type that is given by its fields or variants. -/
def record : Piece :=
  .node .record (.seq visibility (oneOf [
    inOrder [keyword "struct", definedName, opt typeParameters, oneOf [
      .seq whereClause fields,
      inOrder [orderedFields, whereClause, sign ";"],
      sign ";"]],
    inOrder [keyword "enum", definedName, opt typeParameters, whereClause,
      bracketed "\x7b" variant "\x7d"],
    inOrder [keyword "union", definedName, opt typeParameters, whereClause, fields]]))

/-- A trait. -/
def trait : Piece :=
  .node .traitDef (inOrder [
    visibility, opt (keyword "unsafe"), keyword "trait", definedName, opt typeParameters,
    opt (.seq (sign ":" ":") (opt bounds)), whereClause, declarations])

/-- An implementation block. -/
def implementation : Piece :=
  let target := Pattern.part .type implementedType
  .node .implBlock (inOrder [
    opt (keyword "unsafe"), keyword "impl", opt typeParameters,
    oneOf [inOrder [opt (sign "!"), typePath, keyword "for", target], target],
    whereClause, oneOf [declarations, sign ";"]])

/-- A module. -/
def submodule : Piece :=
  .node .moduleDef (inOrder [
    visibility, keyword "mod", definedName, oneOf [sign ";", declarations]])

/-- What is brought into scope: a path, a path with a new name, a list or everything. -/
def usedNames : Piece :=
  let item := Pattern.call .tokenTree
  let path := sepBy word pathSeparator
  oneOf [
    inOrder [opt (.seq (opt path) pathSeparator), oneOf [sign "*", .seq (.ahead (sign "\x7b")) item]],
    inOrder [opt pathSeparator, word, .many (.seq pathSeparator (oneOf [
      word, sign "*", .seq (.ahead (sign "\x7b")) item])), opt (.seq (keyword "as") word)]]

/-- The rules of a macro. -/
def macroRules : Piece :=
  let tree := Pattern.call .tokenTree
  let rule := inOrder [tree, sign "=>", tree]
  let rules_ := .seq (opt (sepBy rule (sign ";"))) (opt (sign ";"))
  inOrder [keyword "macro_rules", sign "!", word, oneOf [
    inOrder [sign "\x7b", rules_, sign "\x7d"],
    inOrder [sign "(", rules_, sign ")", sign ";"],
    inOrder [sign "[", rules_, sign "]", sign ";"]]]

/-- The value of a constant. -/
def constantValue : Piece := opt (.seq (sign "=" "=>") expression)

/-- A declaration that defines nothing to be listed. -/
def smallItem : Piece :=
  let typed := inOrder [word, sign ":" ":", type, constantValue, sign ";"]
  let typeName := inOrder [
    keyword "type", word, opt typeParameters, opt (.seq (sign ":" ":") bounds), whereClause,
    opt (.seq (sign "=" "=>") type), whereClause, sign ";"]
  let abi := .seq (keyword "extern") (opt (.token (lexeme skip stringAt)))
  oneOf [
    attributeItem,
    sign ";",
    inOrder [visibility, keyword "use", usedNames, sign ";"],
    inOrder [keyword "let", opt (keyword "mut"), pattern, opt (.seq (sign ":" ":") type),
      constantValue, opt (.seq (keyword "else") block), sign ";"],
    inOrder [visibility, keyword "const", typed],
    inOrder [visibility, keyword "static", opt (keyword "ref"), opt (keyword "mut"), typed],
    inOrder [visibility, typeName],
    inOrder [visibility, keyword "extern", keyword "crate", word, opt (.seq (keyword "as") word),
      sign ";"],
    inOrder [visibility, abi, oneOf [sign ";", declarations]],
    macroRules]

/-- A macro that stands where a declaration may stand. -/
def macroItem : Piece :=
  inOrder [valuePath operandWords, sign "!" "=", .call .tokenTree, .absent continuation]

/-- Words that start an item and so start no expression there. -/
def itemWords : List String :=
  ["fn", "struct", "enum", "trait", "impl", "mod", "use", "extern", "pub", "type", "let"]

/-- Items that a word tells apart. -/
def item : Piece :=
  oneOf [function, record, trait, implementation, submodule, .node .other smallItem]

/-!
## The grammar of Rust

A file is a list of statements, as the body of a function is; only the latter may end with
an expression.
-/

/-- The grammar. -/
def rules : Rule → Piece
  | .statement =>
    oneOf [
      item,
      .seq (.call .blockLike) (.absent continuation),
      .node .other (inOrder [
        .absent (anyKeyword itemWords), expression, oneOf [sign ";", .ahead (sign "\x7d")]]),
      .node .other macroItem]
  | .declaration => oneOf [item, .node .other macroItem]
  | .block => .node .block (inOrder [sign "\x7b", .many (.call .statement), sign "\x7d"])
  | .expression bare => wholeExpression bare
  | .operand bare => operand bare
  | .blockLike => blockLike
  | .pattern => anyPattern
  | .simplePattern => simplePattern
  | .type => boundedType
  | .simpleType => simpleType
  | .tokenTree => tokenTree

/-- A whole file. -/
def file : Piece :=
  .node .file (inOrder [
    opt (.token (lexeme (fun _ i => i) interpreterLineAt)),
    .many (.call .statement),
    .token (lexeme skip endAt)])

end Scrutiny.Grammar.Rust
