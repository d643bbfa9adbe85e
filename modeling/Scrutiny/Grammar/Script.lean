import Scrutiny.Grammar.Script.Types

/-!
# Scripts

Rules for the expressions and statements of JavaScript and TypeScript, and the grammars made of them.
-/

namespace Scrutiny.Grammar.Script

open Pattern

/-!
## Expressions in scripts

Operators are read without regard to precedence, because no answer depends on how an
expression is grouped.  What matters is which functions and classes stand in it, and that
an assignment has something on its left that can be assigned to.
-/

/-- A value that is spread over its elements. -/
def spread : Piece := .seq (sign "...") (expression true)

/-- The arguments of a call. -/
def arguments : Piece :=
  inOrder [sign "(", sparseList (oneOf [spread, expression true]), sign ")"]

/-! ### Functions and classes as values -/

/-- The body of an arrow function.  Braces are read as statements if they can be. -/
def arrowBody (enclosed : Bool) : Piece :=
  oneOf [
    body .operand,
    .seq (oneOf [.absent (sign "\x7b"), check mayBeObject]) (expression enclosed)]

/-- An arrow function. -/
def arrowFunction (dialect : Dialect) (enclosed : Bool) : Piece :=
  let arrow := sign "=>"
  let single := inOrder [word operandWords, .ahead arrow]
  let several := oneOf [
    inOrder [.ahead (sign "("), check (mayBeParameters dialect), signature dialect arguments],
    whenTyped dialect (.seq (.ahead (sign "<")) (signature dialect arguments))]
  .node .closure (inOrder [
    oneOf [single, .seq (keyword "async") single, several, .seq (keyword "async") several],
    arrow, arrowBody enclosed])

/-- A function that is written as a value. -/
def functionExpression (dialect : Dialect) : Piece :=
  .node .closure (inOrder [
    opt (keyword "async"), keyword "function", opt (sign "*"), opt word,
    signature dialect arguments, body .operand])

/-- What a class builds upon. -/
def heritage (dialect : Dialect) : Piece :=
  let base := .seq (.call (.primary true)) (optTyped dialect typeArguments)
  .seq
    (opt (.seq (keyword "extends") (if dialect.types then sepBy base (sign ",") else base)))
    (optTyped dialect (.seq (keyword "implements") (sepBy type (sign ","))))

/-- A class from the word `class` on. -/
def classTail (dialect : Dialect) (named : Piece) : Piece :=
  inOrder [
    keyword "class", named, optTyped dialect typeParameters, .node .other (heritage dialect),
    .part .body (.call .classBody)]

/-- The name of a class. -/
def className : Piece := .part .name (name ["extends", "implements"])

/-- A class that is written as a value. -/
def classExpression (dialect : Dialect) : Piece :=
  .node .classDef (.seq (.many (decorator arguments)) (classTail dialect (opt className)))

/-- A function that is a member.  It may be preceded by `modifiers`. -/
def method (dialect : Dialect) (modifiers : List String) : Piece :=
  .node .method (inOrder [
    if dialect.types then .empty else .many (decorator arguments),
    .many (modifier modifiers), opt (sign "*"), .part .name memberName,
    optTyped dialect (sign "?"), signature dialect arguments, body .word])

/-! ### Literals -/

/-- One entry of an object. -/
def objectEntry (dialect : Dialect) : Piece :=
  oneOf [
    spread,
    method dialect ["static", "async", "get", "set"],
    inOrder [memberName, sign ":", expression true],
    word]

/-- An object. -/
def objectLiteral (dialect : Dialect) : Piece :=
  .node .other (inOrder [sign "\x7b", sparseList (objectEntry dialect), sign "\x7d"])

/-- An array. -/
def arrayLiteral : Piece :=
  .node .other (inOrder [sign "[", sparseList (oneOf [spread, expression true]), sign "]"])

/-- A template: plain characters and expressions in turn. -/
def templateString (item : Piece) : Piece :=
  let plain := Pattern.token (lexeme (fun _ i => i) templateTextAt)
  .node .other (inOrder [
    sign "\x60", plain, .many (inOrder [signHere "$\x7b", item, sign "\x7d", plain]),
    signHere "\x60"])

/-! ### Markup -/

/-- The name of an element, with the modules or the space that it is in. -/
def elementName : Piece :=
  let part := Pattern.token (lexeme skip markupNameAt)
  sepBy part (oneOf [sign ".", sign ":"])

/-- An expression in markup. -/
def markupExpression : Piece :=
  inOrder [sign "\x7b", opt (oneOf [spread, expressions true]), sign "\x7d"]

/-- An elementAttribute of an element. -/
def elementAttribute : Piece :=
  oneOf [
    markupExpression,
    inOrder [elementName, opt (.seq (sign "=") (oneOf [
      .token (lexeme skip markupStringAt), markupExpression, .call .element]))]]

/-- An element with what it holds, or a fragment without a name. -/
def element (dialect : Dialect) : Piece :=
  let here (find : Array Char → Nat → Option Nat) : Piece := .token (lexeme (fun _ i => i) find)
  let inside := .many (oneOf [
    here markupTextAt, here characterReferenceAt, markupExpression, .call .element])
  let closing := inOrder [sign "</", opt elementName, sign ">"]
  .node .other (inOrder [sign "<" "/", oneOf [
    inOrder [sign ">", inside, closing],
    inOrder [elementName, optTyped dialect typeArguments, .many elementAttribute, oneOf [
      sign "/>",
      inOrder [sign ">", inside, closing]]]]])

/-! ### Operands -/

/-- What an operand starts with. -/
def atom (dialect : Dialect) (enclosed : Bool) : Piece :=
  let typed := if dialect.types then opt typeClause else .empty
  oneOf [
    arrowFunction dialect enclosed,
    .seq (functionExpression dialect) (.mark false),
    .seq (word operandWords) (.mark true),
    anyKeyword ["this", "super", "null", "true", "false"],
    string,
    number,
    .call .template,
    inOrder [.node .other (inOrder [sign "(", expressions true, typed, sign ")"]), .mark true],
    arrayLiteral,
    objectLiteral dialect,
    classExpression dialect,
    .token (lexeme skip regexAt),
    inOrder [keyword "new", sign ".", keyword "target"],
    .node .other (.seq (keyword "new") (.call (.primary enclosed))),
    .seq (keyword "import") (.ahead (oneOf [sign "(", sign "."])),
    .seq privateName (.ahead (keyword "in")),
    if dialect.markup then .call .element else .absent .empty]

/-- Members, subscripts and calls after an operand. -/
def trailer (dialect : Dialect) : Piece :=
  let member := .seq (oneOf [word, privateName]) (.mark true)
  let subscript := inOrder [sign "[", expressions true, sign "]", .mark true]
  oneOf [
    .seq (sign "." ".") member,
    .seq (sign "?." "0123456789") (oneOf [
      member, subscript, arguments,
      whenTyped dialect (.seq typeArguments arguments), .call .template]),
    subscript,
    arguments,
    .call .template,
    whenTyped dialect (inOrder [typeArguments, oneOf [
      arguments, .call .template,
      .ahead (oneOf [sign ")", sign ",", sign ";", sign "]", sign "."])]]),
    whenTyped dialect (inOrder [onLine, sign "!" "=", .mark true])]

/-- An operand with the operators that stand in front of it or after it. -/
def operand (dialect : Dialect) (enclosed : Bool) : Piece :=
  let again := Pattern.call (.operand enclosed)
  oneOf [
    .node .other (.seq (oneOf [sign "++", sign "--", sign "!", sign "~", sign "+", sign "-",
      anyKeyword ["typeof", "void", "delete", "await"]]) again),
    .node .other (.seq (keyword "yield") (oneOf [
      .seq (sign "*") (expression enclosed),
      inOrder [onLineUnless enclosed, expression enclosed],
      .empty])),
    chain (.call (.primary enclosed))
      (.seq (onLineUnless enclosed) (oneOf [sign "++", sign "--"])),
    if dialect.types && !dialect.markup then .node .other (.seq typeArguments again)
    else .absent .empty]

/-- The operators between two operands. -/
def binaryOperator : Piece :=
  oneOf [
    sign "&&" "=", sign "||" "=", sign "??" "=",
    sign ">>>" "=", sign ">>" ">=", sign "<<" "=",
    sign "===", sign "!==", sign "==" "=", sign "!=" "=", sign "<=", sign ">=",
    sign "**" "=", sign "*" "*=", sign "/" "=", sign "%" "=",
    sign "+" "+=", sign "-" "-=", sign "&" "&=", sign "|" "|=", sign "^" "=",
    sign "<" "<=", sign ">" ">=", keyword "in", keyword "instanceof"]

/-- The signs of an assignment. -/
def assignmentSign : Piece :=
  oneOf (sign "=" "=>" ::
    ["+=", "-=", "*=", "/=", "%=", "^=", "&=", "|=", ">>=", ">>>=", "<<=", "**=", "&&=", "||=",
      "??="].map fun text => sign text)

/-- What can follow an operand: an assignment, an operator with its second operand, or the two
branches of a choice. -/
def operation (dialect : Dialect) (enclosed : Bool) : Piece :=
  oneOf [
    inOrder [.assignable, assignmentSign, expression enclosed],
    .seq binaryOperator (.call (.operand enclosed)),
    inOrder [sign "?" "?.", expression enclosed, sign ":", expression enclosed],
    whenTyped dialect (inOrder [onLineUnless enclosed, oneOf [
      .seq (keyword "as") (oneOf [keyword "const", type]),
      .seq (keyword "satisfies") type]])]

/-- An expression without commas. -/
def wholeExpression (dialect : Dialect) (enclosed : Bool) : Piece :=
  oneOf [
    .node .other (inOrder [
      .ahead (oneOf [sign "[", sign "\x7b"]), check mayBeTarget, .call .destructuring,
      initializer enclosed]),
    chain (.call (.operand enclosed)) (operation dialect enclosed)]

/-! ### Patterns -/

/-- A pattern: one that takes a value apart, the rest of the values, or a place that can be
assigned to. -/
def bindingPattern : Piece :=
  oneOf [
    .call .destructuring,
    .seq (sign "...") (.call .pattern),
    .seq (.call (.primary true)) .assignable]

/-- A pattern that takes an object or an array apart. -/
def destructuring : Piece :=
  let element := .seq (.call .pattern) (opt (initializer true))
  let entry := oneOf [
    .seq (sign "...") (.call .pattern),
    inOrder [memberName, sign ":", element],
    .seq word (opt (initializer true))]
  .node .other (oneOf [
    inOrder [sign "\x7b", sparseList entry, sign "\x7d"],
    inOrder [sign "[", sparseList element, sign "]"]])

/-!
## Statements in scripts

Declarations, exports and the statements that control the flow.  The range of a
declaration ends where the statement ends, with its semicolon if one is written.
-/

/-- A statement. -/
def statement : Piece := .call .statement

/-- A condition between parentheses. -/
def condition : Piece :=
  inOrder [sign "(", .node .other (expressions true), sign ")"]

/-! ### Declarations -/

/-- One variable with its value. -/
def binding (dialect : Dialect) : Piece :=
  .node .binding (inOrder [
    .part .name (oneOf [.call .destructuring, name]),
    optTyped dialect (.seq (opt (sign "!")) typeClause),
    opt (.seq (sign "=" "=>") (.part .value (expression false)))])

/-- A declaration of variables. -/
def bindings (dialect : Dialect) : Piece :=
  .node .bindings (inOrder [
    anyKeyword ["var", "let", "const"], sepBy (binding dialect) (sign ","), finish dialect])

/-- The start of a function that has a name. -/
def functionHead : Piece :=
  inOrder [opt (keyword "async"), keyword "function", opt (sign "*")]

/-- A function with its body. -/
def functionDeclaration (dialect : Dialect) (before : Before) : Piece :=
  .node .functionDef (inOrder [
    functionHead, .part .name name, signature dialect arguments, body before])

/-- A function without a body. -/
def functionSignature (dialect : Dialect) : Piece :=
  .node .other (inOrder [
    functionHead, name, signature dialect arguments,
    oneOf [sign ";", implied dialect .signature]])

/-- A class with its name. -/
def classDeclaration (dialect : Dialect) (before : Before) : Piece :=
  .node .classDef (inOrder [
    .many (decorator arguments),
    oneOf [
      inOrder [classTail dialect className, opt (implied dialect before)],
      whenTyped dialect (.seq (keyword "abstract") (classTail dialect className))]])

/-- An interface. -/
def interfaceDeclaration (dialect : Dialect) : Piece :=
  .node .interfaceDef (inOrder [
    keyword "interface", .part .name name, opt typeParameters,
    opt (.seq (keyword "extends") (sepBy type (sign ","))), objectType dialect arguments])

/-- An enumeration. -/
def enumDeclaration : Piece :=
  .node .enumDef (inOrder [
    opt (keyword "const"), keyword "enum", .part .name name, sign "\x7b",
    opt (commaList (.seq memberName (opt (initializer true)))), sign "\x7d"])

/-- A name for a type. -/
def typeAlias (dialect : Dialect) : Piece :=
  .node .other (inOrder [
    keyword "type", name, opt typeParameters, sign "=" "=>", type, finish dialect])

/-- A namespace, or a module that is described from outside. -/
def namespaceDeclaration : Piece :=
  let block := Pattern.call (.block .word)
  .node .other (.seq (anyKeyword ["namespace", "module"]) (oneOf [
    .seq string (opt block),
    .seq qualifiedName block]))

/-- Another name for a member of a namespace. -/
def importAlias (dialect : Dialect) : Piece :=
  .node .other (inOrder [
    keyword "import", name, sign "=" "=>", qualifiedName, finish dialect])

/-- The declarations that both dialects know. -/
def commonDeclaration (dialect : Dialect) (before : Before) : Piece :=
  oneOf [
    functionDeclaration dialect before,
    classDeclaration dialect before,
    bindings dialect]

/-- A declaration. -/
def declaration (dialect : Dialect) (before : Before) : Piece :=
  if dialect.types then
    let plain := oneOf [
      enumDeclaration,
      commonDeclaration dialect before,
      functionSignature dialect,
      interfaceDeclaration dialect,
      typeAlias dialect,
      namespaceDeclaration,
      importAlias dialect]
    oneOf [
      plain,
      .node .other (inOrder [keyword "declare", onLine, oneOf [
        plain,
        .seq (keyword "global") (.call (.block .word))]])]
  else commonDeclaration dialect before

/-! ### Members of a class -/

/-- A member that holds a value. -/
def property (dialect : Dialect) (modifiers : List String) : Piece :=
  .node .property (inOrder [
    .many (decorator arguments), .many (modifier modifiers), .part .name memberName,
    optTyped dialect (.seq (opt (oneOf [sign "?", sign "!"])) (opt typeClause)),
    opt (.seq (sign "=" "=>") (.part .value (expression false)))])

/-- A block that runs when the class is made. -/
def staticBlock : Piece :=
  .node .other (.seq (keyword "static") (.call (.block .word)))

/-- The words before a member that hold values or functions in the typed dialects. -/
def typedMemberWords : List String :=
  ["public", "private", "protected", "static", "override", "readonly", "async", "abstract",
    "declare", "accessor", "get", "set"]

/-- One member of a class with what ends it. -/
def classMember (dialect : Dialect) : Piece :=
  if dialect.types then
    let ends := oneOf [sign ",", finish dialect]
    oneOf [
      inOrder [.many (decorator arguments), method dialect typedMemberWords, opt (sign ";")],
      staticBlock,
      .seq (.node .other indexSignature) ends,
      .seq
        (.node .other (inOrder [.many (decorator arguments), .many (modifier typedMemberWords),
          opt (sign "*"), memberName, opt (sign "?"), signature dialect arguments]))
        (oneOf [sign ",", sign ";", implied dialect .signature]),
      .seq (property dialect typedMemberWords) ends,
      sign ";"]
  else
    oneOf [
      .seq (method dialect ["static", "async", "get", "set"]) (opt (sign ";")),
      staticBlock,
      .seq (property dialect ["static"]) (finish dialect),
      sign ";"]

/-! ### Imports and exports -/

/-- Names in braces, each with an optional new name. -/
def nameList (dialect : Dialect) : Piece :=
  let item := oneOf [word, string]
  let typeOnly := inOrder [anyKeyword ["type", "typeof"], .ahead item, .absent (keyword "as")]
  let entry := inOrder [item, opt (.seq (keyword "as") item)]
  inOrder [sign "\x7b",
    opt (commaList (oneOf [whenTyped dialect (.seq typeOnly entry), entry])), sign "\x7d"]

/-- The file that names are taken from. -/
def fromClause : Piece := .seq (keyword "from") string

/-- An import. -/
def importStatement (dialect : Dialect) : Piece :=
  let all := inOrder [sign "*", keyword "as", word]
  let several := oneOf [all, nameList dialect]
  let names := oneOf [several, .seq word (opt (.seq (sign ",") several))]
  let source := oneOf [
    .seq string .empty,
    .seq names fromClause,
    whenTyped dialect
      (inOrder [word, sign "=" "=>", keyword "require", sign "(", string, sign ")"])]
  let attributes := opt (.seq (anyKeyword ["with"]) (objectLiteral dialect))
  .node .other (oneOf [
    inOrder [keyword "import", source, attributes, finish dialect],
    whenTyped dialect (inOrder [keyword "import", anyKeyword ["type", "typeof"], source, attributes,
      finish dialect])])

/-- An export. -/
def exportStatement (dialect : Dialect) : Piece :=
  let start := keyword "export"
  let source := oneOf [
    inOrder [sign "*", opt (.seq (keyword "as") (oneOf [word, string])), fromClause],
    .seq (nameList dialect) (opt fromClause)]
  .node .exported (oneOf [
    inOrder [start, source, finish dialect],
    inOrder [.many (decorator arguments), start, oneOf [
      .part .declaration (declaration dialect .word),
      .seq (keyword "default") (oneOf [
        .part .declaration (declaration dialect .operand),
        .seq (.part .value (expression false)) (finish dialect)])]],
    whenTyped dialect (.seq start (.seq (oneOf [
      .seq (keyword "type") source,
      .seq (sign "=" "=>") (.node .other (expression false)),
      inOrder [keyword "as", keyword "namespace", word]]) (finish dialect)))])

/-! ### Control flow -/

/-- A loop over numbers or over elements. -/
def forStatement (dialect : Dialect) : Piece :=
  let head := oneOf [
    inOrder [anyKeyword ["var", "let", "const"], oneOf [.call .destructuring, word],
      optTyped dialect typeClause, opt (initializer true)],
    .call .pattern]
  let condition := oneOf [sign ";", .seq (expressions true) (sign ";")]
  oneOf [
    inOrder [keyword "for", opt (keyword "await"), sign "(", head, anyKeyword ["in", "of"],
      expressions true, sign ")", statement],
    inOrder [keyword "for", sign "(", oneOf [bindings dialect, condition], condition,
      opt (expressions true), sign ")", statement]]

/-- A choice between several cases. -/
def switchStatement : Piece :=
  let label := oneOf [inOrder [keyword "case", expressions true, sign ":"],
    .seq (keyword "default") (sign ":")]
  let branch := .seq label (.many (.seq (.absent label) statement))
  inOrder [keyword "switch", condition, sign "\x7b", .many branch, sign "\x7d"]

/-- A statement whose errors are caught. -/
def tryStatement (dialect : Dialect) : Piece :=
  let block := Pattern.call (.block .word)
  let caught := inOrder [sign "(", oneOf [.call .destructuring, word], optTyped dialect typeClause,
    sign ")"]
  inOrder [keyword "try", block, opt (inOrder [keyword "catch", opt caught, block]),
    opt (.seq (keyword "finally") block)]

/-- A statement that leaves a loop. -/
def jumpStatement (dialect : Dialect) : Piece :=
  let ends := oneOf [sign ";", implied dialect .word]
  .seq (anyKeyword ["break", "continue"]) (oneOf [ends, .seq word ends])

/-- The statements that a word tells apart. -/
def wordStatement (dialect : Dialect) : Piece :=
  let ends := oneOf [sign ";", implied dialect .word]
  oneOf [
    inOrder [keyword "if", condition, statement, opt (.seq (keyword "else") statement)],
    inOrder [keyword "return", oneOf [ends, .seq (expressions false) (finish dialect)]],
    forStatement dialect,
    inOrder [keyword "while", condition, statement],
    inOrder [keyword "do", statement, keyword "while", condition, opt (finish dialect)],
    tryStatement dialect,
    switchStatement,
    inOrder [keyword "throw", expressions false, finish dialect],
    jumpStatement dialect,
    .seq (keyword "debugger") ends,
    inOrder [keyword "with", condition, statement]]

/-- An expression as a statement.  Words that start a statement of another kind start none. -/
def expressionStatement (dialect : Dialect) : Piece :=
  inOrder [
    .absent (anyKeyword (statementWords dialect)),
    .absent (.seq functionHead word),
    .absent (.seq (keyword "class") (word ["extends"])),
    oneOf [.absent (sign "\x7b"), check mayBeObject],
    expressions false, finish dialect]

/-- A statement of any kind. -/
def anyStatement (dialect : Dialect) : Piece :=
  oneOf [
    .call (.block .word),
    declaration dialect .operand,
    exportStatement dialect,
    importStatement dialect,
    .node .other (oneOf [
      sign ";",
      wordStatement dialect,
      inOrder [word (operandWords ++ statementWords dialect), sign ":", statement],
      expressionStatement dialect])]

/-!
## The grammar of scripts

JavaScript, TypeScript and TypeScript with markup, as one grammar over what the dialect
admits.
-/

/-- JavaScript, which knows markup but no types. -/
def untyped : Dialect := { types := false, markup := true }

/-- TypeScript. -/
def typed : Dialect := { types := true, markup := false }

/-- TypeScript with markup. -/
def typedMarkup : Dialect := { types := true, markup := true }

/-- The grammar of a dialect. -/
def rules (dialect : Dialect) : Rule → Piece
  | .statement => anyStatement dialect
  | .block before =>
    .node .block (inOrder [
      sign "\x7b", .many statement, sign "\x7d", opt (implied dialect before)])
  | .classBody =>
    .node .block (inOrder [sign "\x7b", .many (classMember dialect), sign "\x7d"])
  | .expression enclosed => wholeExpression dialect enclosed
  | .operand enclosed => operand dialect enclosed
  | .primary enclosed => chain (atom dialect enclosed) (trailer dialect)
  | .pattern => bindingPattern
  | .destructuring => destructuring
  | .template => templateString (oneOf [expressions true, whenTyped dialect type])
  | .element => element dialect
  | .type => typeExpression
  | .typeOperand => typeOperand dialect arguments

/-- A whole file. -/
def file : Piece :=
  .node .file (inOrder [
    opt (.token (lexeme (fun _ i => i) interpreterLineAt)),
    .many statement,
    .token (lexeme skip endAt)])

end Scrutiny.Grammar.Script
