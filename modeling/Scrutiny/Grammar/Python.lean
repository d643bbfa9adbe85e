import Scrutiny.Grammar.Lexical.Python

/-!
# The grammar of Python

Statements, blocks and expressions.  Rules that occur both inside and outside of
brackets take a flag: inside brackets a line feed is a blank, outside it ends the
statement wherever a statement may end.

Operators are read without regard to precedence, because no answer depends on how an
expression is grouped.
-/

namespace Scrutiny.Grammar.Python

open Scrutiny.Text

/-- The rules that refer to each other. -/
inductive Rule where
  | statement
  | simpleStatements
  | suite
  | assignment
  | expression (brackets : Bool)
  | negation (brackets : Bool)
  | operand (brackets : Bool)
  | primary (brackets : Bool)
  | target (brackets : Bool)
  | targets (brackets : Bool)
  | expressions (brackets : Bool)
  | yielded (brackets : Bool)
  | casePattern
  | simplePattern
  | interpolation

/-- Patterns over the rules of this grammar. -/
abbrev Piece := Pattern Rule

open Pattern

/-- A sign where an operand or a statement may stand, on any line. -/
def sign (word : String) (without : String := "") : Piece :=
  .token (lexeme skipFree (signAt word.toList without.toList))

/-- A keyword on any line. -/
def keyword (word : String) : Piece :=
  .token (lexeme skipFree (keywordAt isWordContinue word.toList))

/-- The blanks before a token that follows an operand. -/
def skip (brackets : Bool) : Array Char → Nat → Nat :=
  if brackets then skipFree else skipLine

/-- A sign after an operand. -/
def signAfter (brackets : Bool) (word : String) (without : String := "") : Piece :=
  .token (lexeme (skip brackets) (signAt word.toList without.toList))

/-- A keyword after an operand. -/
def keywordAfter (brackets : Bool) (word : String) : Piece :=
  .token (lexeme (skip brackets) (keywordAt isWordContinue word.toList))

/-- An identifier on any line that is not one of the words `reserved`. -/
def identifier (reserved : List String := []) : Piece :=
  .node .other (.token (lexeme skipFree (identifierAt isWordStart isWordContinue reserved)))

/-- An identifier after a token that ends a line, such as a name after a dot. -/
def identifierAfter (brackets : Bool) : Piece :=
  .token (lexeme (skip brackets) (identifierAt isWordStart isWordContinue []))

/-- Holds where an operand may follow on a later line. -/
def held : Piece := .ahead (.token (guardAt mayContinue))

/-- Holds where the next token is on the same line, or inside brackets. -/
def onLine (brackets : Bool) : Piece :=
  if brackets then .empty else .ahead (.token (guardAt sameLine))

/-- Holds where the block goes on. -/
def sameBlock : Piece := .absent (.token dedent)

/-- An expression. -/
def expression (brackets : Bool) : Piece := .call (.expression brackets)

/-- A comma, as a separator after an operand. -/
def comma (brackets : Bool) : Piece := signAfter brackets ","

/-- Items between commas, with an optional comma at the end. -/
def commaList (brackets : Bool) (item : Piece) : Piece :=
  inOrder [item, .many (inOrder [comma brackets, onLine brackets, item]), opt (comma brackets)]

/-- Words that start a statement of their own and so start no expression there. -/
def statementWords : List String :=
  ["import", "from", "assert", "return", "del", "raise", "pass", "break", "continue", "global",
    "nonlocal", "if", "for", "while", "try", "with", "def", "class"]

/-- Any of the words that start a statement. -/
def statementWord : Piece :=
  oneOf (statementWords.map keyword)

/-- Words that start an operand and so name nothing there. -/
def operandWords : List String := ["lambda", "not"]

/-- The clauses of a comprehension. -/
def comprehension : Piece :=
  let iteration := inOrder [opt (keyword "async"), keyword "for", .call (.targets true),
    keyword "in", held, sepBy (expression true) (comma true), opt (comma true)]
  let condition := inOrder [keyword "if", held, expression true]
  .seq iteration (.many (oneOf [iteration, condition]))

/-- An element of a list, a tuple or a set. -/
def element : Piece :=
  oneOf [.call (.yielded true), inOrder [sign "*" "*=", held, expression true], expression true]

/-- Elements up to the closing bracket, or one element with a comprehension. -/
def elements (close : String) : Piece :=
  oneOf [
    sign close,
    inOrder [element, oneOf [
      .seq comprehension (sign close),
      inOrder [.many (.seq (comma true) element), opt (comma true), sign close]]]]

/-- The arguments of a call, the opening bracket read. -/
def arguments : Piece :=
  let named := inOrder [identifier operandWords, signAfter true "=" "=", held, expression true]
  let spread := oneOf [inOrder [sign "**", held, expression true],
    inOrder [sign "*" "*=", held, expression true]]
  let argument := oneOf [named, spread, .seq (expression true) (opt comprehension)]
  inOrder [opt (sepBy argument (comma true)), opt (comma true), sign ")"]

/-- The subscripts of an element, the opening bracket read. -/
def subscripts : Piece :=
  let bound := inOrder [signAfter true ":" "=", opt (expression true)]
  let slice := .seq bound (opt bound)
  let subscript := oneOf [.seq (expression true) (opt slice), slice]
  inOrder [commaList true subscript, sign "]"]

/-- The entries of a dictionary or the elements of a set, the opening brace read. -/
def braced : Piece :=
  let pair := inOrder [expression true, signAfter true ":" "=", held, expression true]
  let spread := inOrder [sign "**", held, expression true]
  let entry := oneOf [spread, pair]
  let entries := inOrder [.many (.seq (comma true) entry), opt (comma true), sign "\x7d"]
  oneOf [
    inOrder [opt (comma true), sign "\x7d"],
    .seq spread entries,
    inOrder [element, oneOf [
      inOrder [signAfter true ":" "=", held, expression true,
        oneOf [.seq comprehension (sign "\x7d"), entries]],
      .seq comprehension (sign "\x7d"),
      inOrder [.many (.seq (comma true) element), opt (comma true), sign "\x7d"]]]]

/-- The ways to delimit a formatted string. -/
def formattedQuotes : List Quotes :=
  ['"', '\''].flatMap fun mark => [false, true].flatMap fun triple => [false, true].map fun raw =>
    { mark, triple, raw, formatted := true }

/-- A formatted string: plain characters and expressions in turn. -/
def formattedString (quotes : Quotes) : Piece :=
  let immediate (find : Array Char → Nat → Option Nat) : Piece :=
    .token (lexeme (fun _ i => i) find)
  inOrder [
    .token (lexeme skipFree (openingAt quotes)),
    immediate (contentAt quotes),
    .many (.seq (.call .interpolation) (immediate (contentAt quotes))),
    immediate (closingAt quotes)]

/-- A string literal after the blanks that `before` steps over. -/
def stringLiteral (skip : Array Char → Nat → Nat) : Piece :=
  let startsString (formatted : Bool) (text : Array Char) (cursor : Cursor) : Bool :=
    match quotesAt text (skip text cursor.offset) with
    | some (quotes, _) => quotes.formatted == formatted
    | none => false
  .node .stringLiteral (oneOf [
    .seq (.ahead (.token (guardAt (startsString false)))) (.token (lexeme skip plainStringAt)),
    .seq (.ahead (.token (guardAt (startsString true)))) (oneOf (formattedQuotes.map formattedString))])

/-- One string literal, or several in a row. -/
def strings (brackets : Bool) : Piece :=
  chain (stringLiteral skipFree) (many1 (stringLiteral (skip brackets)))

/-- A number, and the three dots. -/
def literal : Piece :=
  .node .other (oneOf [.token (lexeme skipFree numberAt), sign "..."])

/-- An expression that can be called, subscripted or asked for an attribute. -/
def atom (brackets : Bool) (reserved : List String) : Piece :=
  oneOf [
    strings brackets,
    .seq (identifier reserved) (.mark true),
    literal,
    .node .other (.seq (sign "(") (elements ")")),
    .node .other (.seq (sign "[") (elements "]")),
    .node .other (.seq (sign "\x7b") braced)]

/-- Calls, subscripts and attributes after an expression. -/
def trailer (brackets : Bool) : Piece :=
  oneOf [
    inOrder [signAfter brackets "." ".", identifierAfter true, .mark true],
    inOrder [signAfter brackets "[", subscripts, .mark true],
    .seq (signAfter brackets "(") arguments]

/-- What a star may stand before outside of brackets: something with a name, an attribute or a
subscript in it. -/
def spread (brackets : Bool) : Piece :=
  let access := oneOf [
    .seq (signAfter brackets "." ".") (identifierAfter true),
    .seq (signAfter brackets "[") subscripts]
  let more := .many (trailer brackets)
  oneOf [
    .seq (identifier operandWords) more,
    inOrder [atom brackets operandWords, .many (.seq (signAfter brackets "(") arguments), access, more]]

/-- The operators between two operands; `in` and `not in` and `is not` among them. -/
def binaryOperator (brackets : Bool) : Piece :=
  oneOf [
    signAfter brackets "**" "=", signAfter brackets "*" "*=",
    signAfter brackets "//" "=", signAfter brackets "/" "/=",
    signAfter brackets "<<" "=", signAfter brackets ">>" "=",
    signAfter brackets "<=", signAfter brackets ">=", signAfter brackets "==",
    signAfter brackets "!=", signAfter brackets "<>",
    signAfter brackets "<" "<", signAfter brackets ">" ">",
    signAfter brackets "+" "=", signAfter brackets "-" "=>", signAfter brackets "@" "=",
    signAfter brackets "%" "=", signAfter brackets "|" "=", signAfter brackets "&" "=",
    signAfter brackets "^" "=",
    keywordAfter brackets "in",
    .seq (keywordAfter brackets "not") (keyword "in"),
    .seq (keywordAfter brackets "is") (opt (keyword "not"))]

/-- The parameters of a function; `typed` admits annotations. -/
def parameters (brackets typed : Bool) : Piece :=
  let annotation := if typed then opt (inOrder [signAfter brackets ":" "=", held,
    oneOf [.seq (sign "*" "*=") (expression brackets), expression brackets]]) else .empty
  let default := opt (inOrder [signAfter brackets "=" "=", held, expression brackets])
  let parameter := oneOf [
    inOrder [sign "**", identifier, opt (.many (trailer brackets)), annotation],
    inOrder [sign "*" "*=", opt (inOrder [onLine brackets, identifier, .many (trailer brackets)]),
      annotation],
    sign "/",
    inOrder [identifier operandWords, annotation, default],
    inOrder [sign "(", opt (.call (.targets true)), sign ")", default]]
  commaList brackets parameter

/-- The parameters of a generic definition. -/
def typeParameters : Piece :=
  let parameter := inOrder [
    oneOf [.seq (sign "**") identifier, .seq (sign "*" "*=") identifier, expression true],
    opt (inOrder [signAfter true ":" "=", expression true])]
  inOrder [signAfter true "[", commaList true parameter, sign "]"]

/-- A name made of words between dots. -/
def dottedName (reserved : List String := []) : Piece :=
  .seq (identifier reserved) (.many (.seq (signAfter false ".") (identifierAfter true)))

/-- The names of an import. -/
def importList (brackets : Bool) : Piece :=
  commaList brackets (.seq (dottedName) (opt (.seq (keywordAfter brackets "as") identifier)))

/-- Imports. -/
def importStatement : Piece :=
  oneOf [
    .seq (keyword "import") (importList false),
    inOrder [
      keyword "from",
      oneOf [.seq (many1 (sign ".")) (opt (dottedName ["import"])), dottedName],
      keywordAfter false "import",
      oneOf [sign "*", inOrder [sign "(", importList true, sign ")"], importList false]]]

/-- The signs of an assignment that also computes. -/
def augmentedSign : Piece :=
  oneOf (["+=", "-=", "*=", "/=", "@=", "//=", "%=", "**=", ">>=", "<<=", "&=", "^=", "|="].map
    (fun word => signAfter false word))

/-- One simple statement. -/
def simpleStatement : Piece :=
  let optionalExpressions := opt (.seq (onLine false) (.call (.expressions false)))
  -- Where a word has another use, a statement must end after it.
  let ends := .ahead (oneOf [.token lineEnd, signAfter false ";"])
  let wordStatement := oneOf [
    importStatement,
    .seq (keyword "assert") (sepBy (expression false) (comma false)),
    .seq (keyword "return") optionalExpressions,
    .seq (keyword "del") (.call (.expressions false)),
    inOrder [keyword "raise",
      opt (inOrder [onLine false, .absent (keyword "from"), .call (.expressions false)]),
      opt (.seq (keywordAfter false "from") (expression false))],
    keyword "pass",
    keyword "break",
    keyword "continue",
    .seq (keyword "global") (sepBy identifier (comma false)),
    .seq (keyword "nonlocal") (sepBy identifier (comma false)),
    inOrder [keyword "type", onLine false,
      oneOf [inOrder [identifier, typeParameters, signAfter false "=" "="],
        .seq (expression false) (signAfter false "=" "=")],
      expression false, ends]]
  let printed := oneOf [
    inOrder [keyword "print", onLine false,
      oneOf [
        inOrder [sign ">>", expression false, .many (.seq (comma false) (expression false)),
          opt (comma false)],
        commaList false (expression false)], ends],
    inOrder [keyword "exec", onLine false, oneOf [strings false, identifier],
      opt (.seq (keywordAfter false "in") (sepBy (expression false) (comma false))), ends]]
  oneOf [
    .node .other wordStatement,
    inOrder [.absent statementWord, .node .statement (oneOf [.call .assignment,
      .call (.yielded false), .call (.expressions false)]), ends],
    .node .other printed]

/-- The suite of a compound statement after its colon. -/
def suite : Piece := .seq (signAfter false ":" "=") (.call .suite)

/-- A clause that may follow the block of a compound statement. -/
def clause (word : String) : Piece := .seq sameBlock (keyword word)

/-- The clause for the remaining case. -/
def elseClause : Piece := opt (.seq (clause "else") suite)

/-- A function definition. -/
def functionDefinition : Piece :=
  .node .functionDef (inOrder [
    opt (keyword "async"), keyword "def", .part .name identifier, opt typeParameters,
    sign "(", opt (parameters true true), sign ")",
    opt (.seq (signAfter true "->") (expression false)),
    signAfter false ":" "=", .part .body (.call .suite)])

/-- A class definition. -/
def classDefinition : Piece :=
  .node .classDef (inOrder [
    keyword "class", .part .name identifier, opt typeParameters,
    opt (.seq (signAfter true "(") arguments),
    signAfter false ":" "=", .part .body (.call .suite)])

/-- A definition under its decorators. -/
def decoratedDefinition : Piece :=
  .node .decorated (inOrder [
    many1 (inOrder [sign "@", expression false, .token lineEnd]),
    .part .definition (oneOf [classDefinition, functionDefinition])])

/-- The clauses of a `try` statement. -/
def handlers : Piece :=
  let binding := opt (.seq (oneOf [keywordAfter false "as", comma false]) (expression false))
  let caught := .seq (clause "except")
    (.seq (opt (inOrder [onLine false, .absent (sign "*"), expression false, binding])) suite)
  let caughtGroup := inOrder [clause "except", sign "*", expression false, binding, suite]
  let lastClause := .seq (clause "finally") suite
  oneOf [
    inOrder [many1 caught, elseClause, opt lastClause],
    inOrder [many1 caughtGroup, elseClause, opt lastClause],
    lastClause]

/-- The items of a `with` statement. -/
def withItems : Piece :=
  let ends := .ahead (signAfter false ":" "=")
  oneOf [
    inOrder [sign "(", commaList true (expression true), sign ")", ends],
    commaList false (expression false)]

/-- A `match` statement. -/
def matchStatement : Piece :=
  let guard := opt (inOrder [keywordAfter false "if", held, expression false])
  let branch := inOrder [sameBlock, keyword "case", commaList false (.call .casePattern), guard, suite]
  inOrder [
    keyword "match", onLine false, commaList false (expression false),
    signAfter false ":" "=",
    oneOf [
      inOrder [.token indent, .many branch, .token dedent],
      .seq (.absent (.token indent)) (.token lineEnd)]]

/-- A compound statement. -/
def compoundStatement : Piece :=
  let async := opt (keyword "async")
  oneOf [
    functionDefinition,
    classDefinition,
    decoratedDefinition,
    .node .other (oneOf [
      inOrder [keyword "if", held, expression false, suite,
        .many (inOrder [clause "elif", held, expression false, suite]), elseClause],
      inOrder [async, keyword "for", .call (.targets false), keywordAfter false "in", held,
        .call (.expressions false), suite, elseClause],
      inOrder [keyword "while", held, expression false, suite, elseClause],
      inOrder [keyword "try", suite, handlers],
      inOrder [async, keyword "with", held, withItems, suite],
      matchStatement])]

/-- The number that a pattern may hold, with its sign. -/
def patternNumber : Piece :=
  let number := Pattern.token (lexeme skipFree numberAt)
  inOrder [opt (sign "-"), number, opt (.seq (oneOf [sign "+", sign "-"]) number)]

/-- The grammar. -/
def rules : Rule → Piece
  | .statement => oneOf [compoundStatement, .call .simpleStatements]
  | .simpleStatements =>
    inOrder [
      simpleStatement,
      .many (inOrder [signAfter false ";", onLine false, simpleStatement]),
      opt (signAfter false ";"),
      .token lineEnd]
  | .suite =>
    oneOf [
      .seq (.token indent) (.node .block
        (.seq (.many (.seq sameBlock (.call .statement))) (.token dedent))),
      .seq (.absent (.token indent)) (.node .block (.token lineEnd)),
      inOrder [onLine false, .node .block (.call .simpleStatements)]]
  | .assignment =>
    let value := oneOf [.call .assignment, .call (.yielded false), .call (.expressions false)]
    .node .other (inOrder [
      .call (.targets false),
      oneOf [
        inOrder [signAfter false "=" "=", held, value],
        inOrder [augmentedSign, held, value],
        inOrder [signAfter false ":" "=", held, expression false,
          opt (inOrder [signAfter false "=" "=", held, value])]]])
  | .expression b =>
    chain
      (chain (.call (.negation b))
        (inOrder [oneOf [keywordAfter b "and", keywordAfter b "or"], held, .call (.negation b)]))
      (oneOf [
        inOrder [keywordAfter b "if", held, expression b, keywordAfter b "else", held, expression b],
        inOrder [keywordAfter b "as", expression b]])
  | .negation b =>
    oneOf [
      .node .other (inOrder [keyword "not", held, .call (.negation b)]),
      .node .other (inOrder [keyword "lambda", opt (parameters true false), signAfter true ":" "=",
        held, expression b]),
      .node .other (inOrder [identifier operandWords, signAfter b ":=", held, expression b]),
      chain (.call (.operand b)) (inOrder [binaryOperator b, held, .call (.operand b)])]
  | .operand b =>
    oneOf [
      .node .other (inOrder [keyword "await", onLine b, .call (.operand b)]),
      .node .other (inOrder [oneOf [sign "-" "=>", sign "+" "=", sign "~"], held, .call (.operand b)]),
      .node .other (.seq (sign "*" "*=") (spread b)),
      .call (.primary b)]
  | .primary b => chain (atom b operandWords) (trailer b)
  | .target b =>
    oneOf [
      inOrder [.call (.primary b), .assignable],
      .node .other (inOrder [sign "*" "*=", .call (.primary b), .assignable]),
      .node .other (inOrder [sign "(", opt (.call (.targets true)), sign ")"]),
      .node .other (inOrder [sign "[", opt (.call (.targets true)), sign "]"])]
  | .targets b => commaList b (.call (.target b))
  | .expressions b => commaList b (expression b)
  | .yielded b =>
    .node .other (inOrder [keyword "yield", oneOf [
      .seq (keywordAfter b "from") (expression b),
      opt (.seq (onLine b) (.call (.expressions b)))]])
  | .casePattern =>
    .seq
      (oneOf [
        inOrder [identifier, signAfter true "=" "=", .call .simplePattern],
        sepBy (.call .simplePattern) (signAfter false "|")])
      (opt (.seq (keywordAfter true "as") identifier))
  | .simplePattern =>
    oneOf [
      strings true,
      patternNumber,
      .seq (oneOf [sign "**", sign "*"]) identifier,
      inOrder [sign "(", opt (commaList true (.call .casePattern)), sign ")"],
      inOrder [sign "[", opt (commaList true (.call .casePattern)), sign "]"],
      inOrder [sign "\x7b", opt (commaList true (oneOf [
        .seq (sign "**") identifier,
        inOrder [.call .simplePattern, signAfter true ":", .call .casePattern]])), sign "\x7d"],
      .seq (dottedName) (opt
        (inOrder [signAfter true "(", opt (commaList true (.call .casePattern)), sign ")"]))]
  | .interpolation =>
    inOrder [
      sign "\x7b",
      oneOf [.call (.yielded true), .call (.expressions true)],
      opt (signAfter true "=" "="),
      opt (.token (lexeme skipFree conversionAt)),
      opt (.seq (signAfter true ":") (.many (oneOf [
        .token (lexeme (fun _ i => i) formatTextAt), .call .interpolation]))),
      sign "\x7d"]

/-- A whole file. -/
def file : Piece :=
  .node .file (.seq (.many (.call .statement)) (.token (lexeme skipFree endAt)))

end Scrutiny.Grammar.Python
