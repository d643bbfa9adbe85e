import Scrutiny.Grammar.Lexical.Script

/-!
# Rules and types of scripts

The names of the rules of JavaScript and TypeScript, and the rules for types.
-/

namespace Scrutiny.Grammar.Script

/-!
## Rules of scripts

The names of the rules that refer to each other, and the tokens as patterns.

An expression inside of brackets may go on after any line feed; `enclosed` tells so.
-/

/-- The rules that refer to each other. -/
inductive Rule where
  /-- A statement. -/
  | statement
  /-- Statements between braces; an operator may follow if `before` says so. -/
  | block (before : Before)
  /-- The body of a class. -/
  | classBody
  /-- An expression without commas. -/
  | expression (enclosed : Bool)
  /-- An operand of an operator. -/
  | operand (enclosed : Bool)
  /-- An expression that can be called or subscripted. -/
  | primary (enclosed : Bool)
  /-- What a value is bound to. -/
  | pattern
  /-- A pattern that takes a value apart. -/
  | destructuring
  /-- A text with expressions in it. -/
  | template
  /-- An element of markup. -/
  | element
  /-- A type. -/
  | type
  /-- A type without operators. -/
  | typeOperand

/-- Patterns over the rules of this grammar. -/
abbrev Piece := Pattern Rule

open Pattern

/-- A sign, unless one of the characters `without` follows it. -/
def sign (word : String) (without : String := "") : Piece :=
  .token (lexeme skip (signAt word.toList without.toList))

/-- A sign that stands right after the token before it. -/
def signHere (word : String) : Piece :=
  .token (lexeme (fun _ i => i) (signAt word.toList []))

/-- A word with a meaning of its own. -/
def keyword (word : String) : Piece :=
  .token (lexeme skip (keywordAt isWordPart word.toList))

/-- One of several words. -/
def anyKeyword (words : List String) : Piece :=
  oneOf (words.map keyword)

/-- A word that is not among `reserved`. -/
def word (reserved : List String := []) : Piece :=
  .token (lexeme skip (nameAt reserved))

/-- A word that is not among `reserved`, as a node. -/
def name (reserved : List String := []) : Piece :=
  .node .other (word reserved)

/-- The name of a private member. -/
def privateName : Piece := .token (lexeme skip privateNameAt)

/-- A string. -/
def string : Piece := .token (lexeme skip stringAt)

/-- A number. -/
def number : Piece := .token (lexeme skip numberAt)

/-- Holds where the test holds. -/
def check (test : Array Char → Cursor → Bool) : Piece :=
  .ahead (.token (guardAt test))

/-- Holds where the next token is on the same line. -/
def onLine : Piece := check sameLine

/-- Holds where the next token is on the same line, or inside of brackets. -/
def onLineUnless (enclosed : Bool) : Piece :=
  if enclosed then .empty else onLine

/-- The end of a statement that is not written. -/
def implied (dialect : Dialect) (before : Before) : Piece :=
  .token (impliedEnd dialect before)

/-- The end of a statement, written or not. -/
def finish (dialect : Dialect) : Piece :=
  oneOf [sign ";", implied dialect .operand, implied dialect .word]

/-- Items between commas, with an optional comma at the end. -/
def commaList (item : Piece) : Piece :=
  .seq (sepBy item (sign ",")) (opt (sign ","))

/-- Items between commas, any of which may be left out. -/
def sparseList (item : Piece) : Piece :=
  sepBy (opt item) (sign ",")

/-- A piece of the typed dialects. -/
def whenTyped (dialect : Dialect) (piece : Piece) : Piece :=
  if dialect.types then piece else .absent .empty

/-- An optional piece of the typed dialects. -/
def optTyped (dialect : Dialect) (piece : Piece) : Piece :=
  if dialect.types then opt piece else .empty

/-- An expression. -/
def expression (enclosed : Bool) : Piece := .call (.expression enclosed)

/-- Expressions between commas. -/
def expressions (enclosed : Bool) : Piece := sepBy (expression enclosed) (sign ",")

/-- A value that is assigned to what stands before it. -/
def initializer (enclosed : Bool) : Piece :=
  .seq (sign "=" "=>") (expression enclosed)

/-- The statements of a function. -/
def body (before : Before) : Piece := .part .body (.call (.block before))

/-- Words that start an operand and so name nothing there. -/
def operandWords : List String :=
  ["function", "class", "new", "typeof", "void", "delete", "await", "yield", "this", "super",
    "true", "false", "null", "import"]

/-- Words that start a statement and so start no expression there. -/
def statementWords (dialect : Dialect) : List String :=
  ["debugger", "var", "const", "if", "switch", "for", "while", "do", "try", "with", "break",
    "continue", "return", "throw"] ++ if dialect.types then ["enum", "interface", "abstract"] else []

/-- The name of a member: a word, a private name, a string, a number or a computed name. -/
def memberName : Piece :=
  .node .other (oneOf [word, privateName, string, number,
    inOrder [sign "[", expression true, sign "]"]])

/-- A word that says something about the member whose name follows on the same line. -/
def modifier (words : List String) : Piece :=
  inOrder [anyKeyword words, onLine,
    .ahead (oneOf [word, privateName, string, number, sign "[", sign "*"])]

/-- A decorator. -/
def decorator (arguments : Piece) : Piece :=
  .node .other (inOrder [sign "@", oneOf [
    inOrder [sign "(", expressions true, sign ")"],
    inOrder [word, .many (.seq (sign ".") (oneOf [word, privateName])), opt arguments]]])

/-!
## Types in scripts

Annotations, type parameters and the types themselves, as the typed dialects know them.
-/

/-- A type. -/
def type : Piece := .call .type

/-- The arguments that a generic type is applied to. -/
def typeArguments : Piece :=
  inOrder [sign "<", commaList type, sign ">"]

/-- The parameters of a generic definition. -/
def typeParameters : Piece :=
  let parameter := inOrder [opt (.seq (keyword "const") (.ahead word)), word,
    opt (.seq (oneOf [keyword "extends", sign ":"]) type), opt (.seq (sign "=" "=>") type)]
  inOrder [sign "<", commaList parameter, sign ">"]

/-- The type of what stands before it. -/
def typeClause : Piece := .seq (sign ":") type

/-- What a function tells about its argument. -/
def predicate : Piece :=
  oneOf [
    inOrder [keyword "asserts", onLine, word, opt (.seq (keyword "is") type)],
    inOrder [word, onLine, keyword "is", type]]

/-- The type of a result, or what it tells about an argument. -/
def resultType : Piece := oneOf [predicate, type]

/-- One parameter of a function; `arguments` are those of a decorator. -/
def parameter (dialect : Dialect) (arguments : Piece) : Piece :=
  if dialect.types then
    inOrder [
      .many (decorator arguments),
      .many (.seq (anyKeyword ["public", "private", "protected", "override", "readonly"])
        (.ahead (oneOf [word, sign "[", sign "\x7b"]))),
      oneOf [keyword "this", .call .pattern],
      opt (sign "?"), opt typeClause, opt (initializer true)]
  else .seq (.call .pattern) (opt (initializer true))

/-- The parameters of a function. -/
def parameters (dialect : Dialect) (arguments : Piece) : Piece :=
  inOrder [sign "(", opt (commaList (parameter dialect arguments)), sign ")"]

/-- The parameters of a function with the type of its result. -/
def signature (dialect : Dialect) (arguments : Piece) : Piece :=
  inOrder [optTyped dialect typeParameters, parameters dialect arguments,
    optTyped dialect (.seq (sign ":") resultType)]

/-- A function type. -/
def functionType (dialect : Dialect) (arguments : Piece) : Piece :=
  inOrder [
    oneOf [typeParameters, .seq (.ahead (sign "(")) (check (mayBeParameters dialect))],
    parameters dialect arguments, sign "=>", resultType]

/-- The words before the name of a member of a type. -/
def typeMemberWords : List String :=
  ["public", "private", "protected", "static", "override", "readonly", "async", "get", "set"]

/-- The type of the members whose names are of a given type, or are those of another type. -/
def indexSignature : Piece :=
  let optionality := inOrder [opt (oneOf [sign "-", sign "+"]), sign "?"]
  inOrder [
    opt (inOrder [opt (oneOf [sign "-", sign "+"]), keyword "readonly"]),
    sign "[", word,
    oneOf [typeClause, inOrder [keyword "in", type, opt (.seq (keyword "as") type)]],
    sign "]", opt optionality, typeClause]

/-- One member of an object type. -/
def typeMember (dialect : Dialect) (arguments : Piece) : Piece :=
  oneOf [
    indexSignature,
    inOrder [opt (keyword "abstract"), keyword "new", opt typeParameters,
      parameters dialect arguments, opt typeClause],
    signature dialect arguments,
    inOrder [.many (modifier typeMemberWords), opt (sign "*"), memberName, opt (sign "?"),
      oneOf [signature dialect arguments, opt typeClause]]]

/-- A type given by its members. -/
def objectType (dialect : Dialect) (arguments : Piece) : Piece :=
  inOrder [
    sign "\x7b",
    opt (oneOf [sign ",", sign ";"]),
    .many (.seq (typeMember dialect arguments)
      (oneOf [sign ",", sign ";", implied dialect .word])),
    sign "\x7d"]

/-- One element of a tuple type. -/
def tupleElement : Piece :=
  oneOf [
    inOrder [opt (sign "..."), word, opt (sign "?"), typeClause],
    inOrder [opt (sign "..."), type, opt (sign "?")]]

/-- A name with the modules that it is in. -/
def qualifiedName : Piece :=
  .seq word (.many (.seq (sign ".") word))

/-- What a module that is named by a string exports. -/
def importedType : Piece :=
  inOrder [keyword "import", sign "(", string, sign ")", .many (.seq (sign ".") word)]

/-- A type that can be subscripted. -/
def primaryType (dialect : Dialect) (arguments : Piece) : Piece :=
  oneOf [
    inOrder [sign "(", type, sign ")"],
    objectType dialect arguments,
    inOrder [sign "[", opt (commaList tupleElement), sign "]"],
    .call .template,
    string,
    .seq (opt (oneOf [sign "-", sign "+"])) number,
    .seq importedType (opt typeArguments),
    .seq qualifiedName (opt typeArguments)]

/-- A type without operators between types. -/
def typeOperand (dialect : Dialect) (arguments : Piece) : Piece :=
  oneOf [
    functionType dialect arguments,
    inOrder [opt (keyword "abstract"), keyword "new", opt typeParameters,
      parameters dialect arguments, sign "=>", type],
    .seq (anyKeyword ["keyof", "unique", "readonly"]) (.call .typeOperand),
    inOrder [keyword "infer", word,
      opt (inOrder [keyword "extends", .call .typeOperand, .absent (sign "?")])],
    inOrder [keyword "typeof", oneOf [importedType, qualifiedName], opt typeArguments,
      .many (inOrder [onLine, sign "[", opt type, sign "]"])],
    .seq (primaryType dialect arguments)
      (.many (inOrder [onLine, sign "[", opt type, sign "]"]))]

/-- Types with operators between them, and the choice between two types. -/
def typeExpression : Piece :=
  let operator := oneOf [sign "|" "|", sign "&" "&"]
  inOrder [
    opt operator, .call .typeOperand, .many (.seq operator (.call .typeOperand)),
    opt (inOrder [keyword "extends", type, sign "?", type, sign ":", type])]

end Scrutiny.Grammar.Script
