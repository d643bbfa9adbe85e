import Mathlib.Tactic.Common
import Scrutiny.Chunk.Chunker
import Scrutiny.Proofs.Grammar.Forward

/-!
# Tokens never go back

The scanners of all grammars go forward: what they step over and what they take ends where it starts
or later.  So the nodes in the tree of a source text lie in order.
-/

namespace Scrutiny.Grammar

variable {σ : Type} {text : Array Char} {i stop : Nat}

/-! ### Scanners of all languages -/

theorem le_skipWhile (text : Array Char) (p : Char → Bool) (i : Nat) :
  i ≤ skipWhile text p i
  := by
  fun_induction skipWhile text p i with grind

theorem le_signAt {sign without : List Char} (h : signAt sign without text i = some stop) :
  i ≤ stop
  := by
  grind [signAt]

theorem le_keywordAt {continues : Char → Bool} {word : List Char}
    (h : keywordAt continues word text i = some stop) :
  i ≤ stop
  := by
  grind [keywordAt]

theorem le_identifierAt {starts continues : Char → Bool} {reserved : List String}
    (h : identifierAt starts continues reserved text i = some stop) :
  i ≤ stop
  := by
  grind [identifierAt, le_skipWhile]

theorem le_endAt (h : endAt text i = some stop) :
  i ≤ stop
  := by
  grind [endAt]

theorem isForward_lexeme {skip : Array Char → Nat → Nat} {find : Array Char → Nat → Option Nat}
    (hskip : ∀ text i, i ≤ skip text i)
    (hfind : ∀ ⦃text i stop⦄, find text i = some stop → i ≤ stop) :
  (lexeme skip find : Scanner).IsForward
  := by
  intro text cursor found h
  unfold lexeme at h
  dsimp only at h
  split at h
  · rename_i hstop
    cases h
    use hskip text cursor.offset
    apply hfind hstop
  · cases h

theorem isForward_guardAt (test : Array Char → Cursor → Bool) :
  (guardAt test : Scanner).IsForward
  := by
  intro text cursor found h
  unfold guardAt at h
  split at h
  · cases h
    exact ⟨Nat.le_refl _, Nat.le_refl _⟩
  · cases h

namespace Pattern

@[simp]
theorem isForward_oneOf {items : List (Pattern σ)} :
  (oneOf items).IsForward ↔ ∀ item ∈ items, item.IsForward
  := by
  induction items with
  | nil => simp [oneOf, IsForward]
  | cons item rest ih =>
      cases rest with
      | nil => simp [oneOf]
      | cons next later => rw [List.forall_mem_cons, ← ih]; rfl

@[simp]
theorem isForward_inOrder {items : List (Pattern σ)} :
  (inOrder items).IsForward ↔ ∀ item ∈ items, item.IsForward
  := by
  induction items with
  | nil => simp [inOrder, IsForward]
  | cons item rest ih =>
      cases rest with
      | nil => simp [inOrder]
      | cons next later => rw [List.forall_mem_cons, ← ih]; rfl

@[simp]
theorem isForward_opt {item : Pattern σ} :
  (opt item).IsForward ↔ item.IsForward
  := and_iff_left trivial

@[simp]
theorem isForward_many1 {item : Pattern σ} :
  (many1 item).IsForward ↔ item.IsForward
  := and_self_iff

@[simp]
theorem isForward_chain {first next : Pattern σ} :
  (chain first next).IsForward ↔ first.IsForward ∧ next.IsForward
  := Iff.rfl

@[simp]
theorem isForward_sepBy {item separator : Pattern σ} :
  (sepBy item separator).IsForward ↔ item.IsForward ∧ separator.IsForward
  := by
  rw [sepBy, IsForward, IsForward, IsForward]
  tauto

end Pattern

/-! ### Python -/

namespace Python

open Pattern

theorem le_skipFree (text : Array Char) (i : Nat) :
  i ≤ skipFree text i
  := by
  fun_induction skipFree text i with grind

theorem le_skipLine (text : Array Char) (i : Nat) :
  i ≤ skipLine text i
  := by
  fun_induction skipLine text i with grind

theorem le_skip (brackets : Bool) (text : Array Char) (i : Nat) :
  i ≤ skip brackets text i
  := by
  cases brackets with
  | false => apply le_skipLine
  | true => apply le_skipFree

theorem le_afterComment (text : Array Char) (i : Nat) :
  i ≤ afterComment text i
  := by
  grind [afterComment, endOfLine, le_skipLine, le_skipWhile]

theorem isForward_lineEnd :
  lineEnd.IsForward
  := by
  intro text cursor found h
  grind [lineEnd, Cursor.upTo, le_afterComment]

theorem isForward_indent :
  indent.IsForward
  := by
  intro text cursor found h
  grind [indent, le_afterComment]

theorem le_dedentFrom {indents : List Nat} {found : Token}
    (h : dedentFrom text indents i = .ok found) :
  i ≤ found.start ∧ found.start ≤ found.after.offset
  := by
  fun_induction dedentFrom text indents i with grind

theorem isForward_dedent :
  dedent.IsForward
  := fun _ _ _ h => le_dedentFrom h

theorem le_digits (text : Array Char) (i : Nat) :
  i ≤ digits text i
  := le_skipWhile ..

theorem le_exponent (text : Array Char) (i : Nat) :
  i ≤ exponent text i
  := by
  grind [exponent, le_digits]

theorem le_optionalChar (text : Array Char) (p : Char → Bool) (i : Nat) :
  i ≤ optionalChar text p i
  := by
  grind [optionalChar]

theorem le_numberAt (h : numberAt text i = some stop) :
  i ≤ stop
  := by
  unfold numberAt at h
  dsimp only at h
  grind -ext [le_digits, le_exponent, le_optionalChar]

theorem le_quotesAt {quotes : Quotes} (h : quotesAt text i = some (quotes, stop)) :
  i ≤ stop
  := by
  grind [quotesAt, le_skipWhile]

theorem le_contentEnd {quotes : Quotes} {fresh : Bool}
    (h : contentEnd quotes text i fresh = some stop) :
  i ≤ stop
  := by
  fun_induction contentEnd quotes text i fresh with grind

theorem le_closingAt {quotes : Quotes} (h : closingAt quotes text i = some stop) :
  i ≤ stop
  := le_signAt h

theorem le_plainStringAt (h : plainStringAt text i = some stop) :
  i ≤ stop
  := by
  unfold plainStringAt at h
  split at h
  · cases h
  · rename_i hquotes
    split at h
    · cases h
    · obtain ⟨last, hlast, hclosing⟩ := Option.bind_eq_some_iff.mp h
      apply Nat.le_trans (le_quotesAt hquotes)
      apply Nat.le_trans (le_contentEnd hlast) (le_closingAt hclosing)

theorem le_openingAt {quotes : Quotes} (h : openingAt quotes text i = some stop) :
  i ≤ stop
  := by
  grind [openingAt, → le_quotesAt]

theorem le_conversionAt (h : conversionAt text i = some stop) :
  i ≤ stop
  := by
  grind [conversionAt]

theorem le_formatTextAt (h : formatTextAt text i = some stop) :
  i ≤ stop
  := by
  grind [formatTextAt]

/-- A token of Python after its blanks. -/
theorem isForward_token {brackets : Bool} {find : Array Char → Nat → Option Nat}
    (hfind : ∀ ⦃text i stop⦄, find text i = some stop → i ≤ stop) :
  (Pattern.token (lexeme (skip brackets) find) : Piece).IsForward
  := isForward_lexeme (le_skip brackets) hfind

@[simp]
theorem isForward_sign (word without : String) :
  (sign word without).IsForward
  := isForward_lexeme le_skipFree fun _ _ _ => le_signAt

@[simp]
theorem isForward_keyword (word : String) :
  (keyword word).IsForward
  := isForward_lexeme le_skipFree fun _ _ _ => le_keywordAt

@[simp]
theorem isForward_signAfter (brackets : Bool) (word without : String) :
  (signAfter brackets word without).IsForward
  := isForward_token fun _ _ _ => le_signAt

@[simp]
theorem isForward_keywordAfter (brackets : Bool) (word : String) :
  (keywordAfter brackets word).IsForward
  := isForward_token fun _ _ _ => le_keywordAt

@[simp]
theorem isForward_identifier (reserved : List String) :
  (identifier reserved).IsForward
  := isForward_lexeme le_skipFree fun _ _ _ => le_identifierAt

@[simp]
theorem isForward_identifierAfter (brackets : Bool) :
  (identifierAfter brackets).IsForward
  := isForward_token fun _ _ _ => le_identifierAt

@[simp]
theorem isForward_expression (brackets : Bool) :
  (expression brackets).IsForward
  := trivial

@[simp]
theorem isForward_held :
  held.IsForward
  := trivial

@[simp]
theorem isForward_onLine (brackets : Bool) :
  (onLine brackets).IsForward
  := by
  cases brackets <;> trivial

@[simp]
theorem isForward_commaList {brackets : Bool} {item : Piece} :
  (commaList brackets item).IsForward ↔ item.IsForward
  := by
  simp [commaList, comma, IsForward]

@[simp]
theorem isForward_formattedString (quotes : Quotes) :
  (formattedString quotes).IsForward
  := by
  have hcontent : ∀ ⦃text i stop⦄, contentAt quotes text i = some stop → i ≤ stop :=
    fun _ _ _ => le_contentEnd
  simp [formattedString, IsForward, isForward_lexeme le_skipFree fun _ _ _ => le_openingAt,
    isForward_lexeme (fun _ _ => Nat.le_refl _) hcontent,
    isForward_lexeme (fun _ _ => Nat.le_refl _) fun _ _ _ => le_closingAt]

theorem isForward_stringLiteral {skip : Array Char → Nat → Nat}
    (hskip : ∀ text i, i ≤ skip text i) :
  (stringLiteral skip).IsForward
  := by
  simp [stringLiteral, IsForward, isForward_lexeme hskip fun _ _ _ => le_plainStringAt]

@[simp]
theorem isForward_strings (brackets : Bool) :
  (strings brackets).IsForward
  := by
  simp [strings, isForward_stringLiteral le_skipFree, isForward_stringLiteral (le_skip brackets)]

theorem isForward_number :
  (lexeme skipFree numberAt : Scanner).IsForward
  := isForward_lexeme le_skipFree fun _ _ _ => le_numberAt

theorem isForward_conversion :
  (lexeme skipFree conversionAt : Scanner).IsForward
  := isForward_lexeme le_skipFree fun _ _ _ => le_conversionAt

theorem isForward_formatText :
  (lexeme (fun _ i => i) formatTextAt : Scanner).IsForward
  := isForward_lexeme (fun _ _ => Nat.le_refl _) fun _ _ _ => le_formatTextAt

@[simp]
theorem isForward_sameBlock :
  sameBlock.IsForward
  := trivial

@[simp]
theorem isForward_comprehension :
  comprehension.IsForward
  := by
  simp [comprehension, comma, IsForward]

@[simp]
theorem isForward_element :
  element.IsForward
  := by
  simp [element, IsForward]

@[simp]
theorem isForward_arguments :
  arguments.IsForward
  := by
  simp [arguments, comma, IsForward]

@[simp]
theorem isForward_subscripts :
  subscripts.IsForward
  := by
  simp [subscripts, IsForward]

@[simp]
theorem isForward_trailer (brackets : Bool) :
  (trailer brackets).IsForward
  := by
  simp [trailer, IsForward]

@[simp]
theorem isForward_parameters (brackets typed : Bool) :
  (parameters brackets typed).IsForward
  := by
  cases typed <;> simp [parameters, IsForward]

@[simp]
theorem isForward_atom (brackets : Bool) (reserved : List String) :
  (atom brackets reserved).IsForward
  := by
  simp [atom, literal, elements, braced, comma, IsForward, isForward_number]

@[simp]
theorem isForward_typeParameters :
  typeParameters.IsForward
  := by
  simp [typeParameters, IsForward]

@[simp]
theorem isForward_suite :
  suite.IsForward
  := by
  simp [suite, IsForward]

/-- No token of the grammar goes back. -/
theorem isForward_rules (rule : Rule) :
  (rules rule).IsForward
  := by
  cases rule with
  | statement =>
      simp [rules, compoundStatement, functionDefinition, classDefinition, decoratedDefinition,
        elseClause, clause, handlers, withItems, matchStatement, comma, IsForward,
        isForward_lineEnd, isForward_indent, isForward_dedent]
  | simpleStatements =>
      simp [rules, simpleStatement, importStatement, importList, dottedName, comma, IsForward,
        isForward_lineEnd]
  | suite => simp [rules, IsForward, isForward_lineEnd, isForward_indent, isForward_dedent]
  | assignment => simp [rules, augmentedSign, IsForward]
  | negation brackets => simp [rules, binaryOperator, IsForward]
  | operand brackets => simp [rules, spread, IsForward]
  | simplePattern => simp [rules, patternNumber, dottedName, IsForward, isForward_number]
  | interpolation => simp [rules, IsForward, isForward_conversion, isForward_formatText]
  | expression brackets | primary brackets | target brackets | targets brackets
  | expressions brackets | yielded brackets | casePattern => simp [rules, IsForward]

end Python

/-! ### Scripts -/

namespace Script

open Pattern

theorem le_skip (text : Array Char) (i : Nat) :
  i ≤ skip text i
  := by
  fun_induction skip text i with grind

theorem le_wordTail (text : Array Char) (i : Nat) :
  i ≤ wordTail text i
  := by
  fun_induction wordTail text i with grind

theorem le_wordEnd? (h : wordEnd? text i = some stop) :
  i ≤ stop
  := by
  grind [wordEnd?]

theorem le_nameAt {reserved : List String} (h : nameAt reserved text i = some stop) :
  i ≤ stop
  := by
  obtain ⟨last, hlast, h⟩ := Option.bind_eq_some_iff.mp h
  grind [→ le_wordEnd?]

theorem le_privateNameAt (h : privateNameAt text i = some stop) :
  i ≤ stop
  := by
  grind [privateNameAt, → le_wordEnd?]

theorem le_groupedDigits (text : Array Char) (isDigit : Char → Bool) (i : Nat) :
  i ≤ groupedDigits text isDigit i
  := by
  fun_induction groupedDigits text isDigit i with grind

theorem le_exponentEnd (text : Array Char) (i : Nat) :
  i ≤ exponentEnd text i
  := by
  grind [exponentEnd, le_groupedDigits]

theorem le_numberAt (h : numberAt text i = some stop) :
  i ≤ stop
  := by
  unfold numberAt at h
  dsimp only at h
  grind -ext [le_groupedDigits, le_exponentEnd]

theorem le_stringEnd? {mark : Char} (h : stringEnd? text mark i = some stop) :
  i ≤ stop
  := by
  fun_induction stringEnd? text mark i with grind

theorem le_stringAt (h : stringAt text i = some stop) :
  i ≤ stop
  := by
  grind [stringAt, → le_stringEnd?]

theorem le_templateTextAt (h : templateTextAt text i = some stop) :
  i ≤ stop
  := by
  fun_induction templateTextAt text i with grind

theorem le_regexEnd? {inClass : Bool} (h : regexEnd? text inClass i = some stop) :
  i ≤ stop
  := by
  fun_induction regexEnd? text inClass i with grind

theorem le_regexAt (h : regexAt text i = some stop) :
  i ≤ stop
  := by
  unfold regexAt at h
  split at h
  · obtain ⟨last, hlast, rfl⟩ := Option.map_eq_some_iff.mp h
    have hle := le_regexEnd? hlast
    have hle' := le_skipWhile text Char.isLower last
    omega
  · cases h

theorem le_interpreterLineAt (h : interpreterLineAt text i = some stop) :
  i ≤ stop
  := by
  grind [interpreterLineAt, endOfLine, le_skipWhile]

theorem le_markupNameAt (h : markupNameAt text i = some stop) :
  i ≤ stop
  := by
  obtain ⟨last, hlast, rfl⟩ := Option.map_eq_some_iff.mp h
  apply Nat.le_trans (le_wordEnd? hlast) (le_skipWhile ..)

theorem le_markupStringAt (h : markupStringAt text i = some stop) :
  i ≤ stop
  := by
  grind [markupStringAt, le_skipWhile]

theorem le_markupTextAt (h : markupTextAt text i = some stop) :
  i ≤ stop
  := by
  grind [markupTextAt]

theorem le_characterReferenceAt (h : characterReferenceAt text i = some stop) :
  i ≤ stop
  := by
  grind [characterReferenceAt]

theorem le_statementEnd? {dialect : Dialect} {before : Before}
    (h : statementEnd? dialect before text i = some stop) :
  i ≤ stop
  := by
  fun_induction statementEnd? dialect before text i with grind

theorem isForward_impliedEnd (dialect : Dialect) (before : Before) :
  (impliedEnd dialect before).IsForward
  := by
  intro text cursor found h
  grind [impliedEnd, Cursor.upTo, → le_statementEnd?]

/-- A token of a script after its blanks. -/
theorem isForward_token {find : Array Char → Nat → Option Nat}
    (hfind : ∀ ⦃text i stop⦄, find text i = some stop → i ≤ stop) :
  (lexeme skip find : Scanner).IsForward
  := isForward_lexeme le_skip hfind

/-- A token of a script right where it is looked for. -/
theorem isForward_tokenHere {find : Array Char → Nat → Option Nat}
    (hfind : ∀ ⦃text i stop⦄, find text i = some stop → i ≤ stop) :
  (lexeme (fun _ i => i) find : Scanner).IsForward
  := isForward_lexeme (fun _ _ => Nat.le_refl _) hfind

@[simp]
theorem isForward_sign (word without : String) :
  (sign word without).IsForward
  := isForward_token fun _ _ _ => le_signAt

@[simp]
theorem isForward_signHere (word : String) :
  (signHere word).IsForward
  := isForward_tokenHere fun _ _ _ => le_signAt

@[simp]
theorem isForward_keyword (word : String) :
  (keyword word).IsForward
  := isForward_token fun _ _ _ => le_keywordAt

@[simp]
theorem isForward_anyKeyword (words : List String) :
  (anyKeyword words).IsForward
  := by
  simp [anyKeyword]

@[simp]
theorem isForward_word (reserved : List String) :
  (word reserved).IsForward
  := isForward_token fun _ _ _ => le_nameAt

@[simp]
theorem isForward_name (reserved : List String) :
  (name reserved).IsForward
  := isForward_word reserved

@[simp]
theorem isForward_privateName :
  privateName.IsForward
  := isForward_token fun _ _ _ => le_privateNameAt

@[simp]
theorem isForward_string :
  string.IsForward
  := isForward_token fun _ _ _ => le_stringAt

@[simp]
theorem isForward_numberPiece :
  number.IsForward
  := isForward_token fun _ _ _ => le_numberAt

@[simp]
theorem isForward_check (test : Array Char → Cursor → Bool) :
  (check test).IsForward
  := trivial

@[simp]
theorem isForward_onLine :
  onLine.IsForward
  := trivial

@[simp]
theorem isForward_onLineUnless (enclosed : Bool) :
  (onLineUnless enclosed).IsForward
  := by
  cases enclosed <;> trivial

@[simp]
theorem isForward_implied (dialect : Dialect) (before : Before) :
  (implied dialect before).IsForward
  := isForward_impliedEnd dialect before

@[simp]
theorem isForward_finish (dialect : Dialect) :
  (finish dialect).IsForward
  := by
  simp [finish]

@[simp]
theorem isForward_commaList {item : Piece} :
  (commaList item).IsForward ↔ item.IsForward
  := by
  simp [commaList, IsForward]

@[simp]
theorem isForward_sparseList {item : Piece} :
  (sparseList item).IsForward ↔ item.IsForward
  := by
  simp [sparseList]

@[simp]
theorem isForward_whenTyped {dialect : Dialect} {piece : Piece} :
  (whenTyped dialect piece).IsForward ↔ (dialect.types → piece.IsForward)
  := by
  cases h : dialect.types <;> simp [whenTyped, h, IsForward]

@[simp]
theorem isForward_optTyped {dialect : Dialect} {piece : Piece} :
  (optTyped dialect piece).IsForward ↔ (dialect.types → piece.IsForward)
  := by
  cases h : dialect.types <;> simp [optTyped, h, IsForward]

@[simp]
theorem isForward_expression (enclosed : Bool) :
  (expression enclosed).IsForward
  := trivial

@[simp]
theorem isForward_expressions (enclosed : Bool) :
  (expressions enclosed).IsForward
  := by
  simp [expressions]

@[simp]
theorem isForward_initializer (enclosed : Bool) :
  (initializer enclosed).IsForward
  := by
  simp [initializer, IsForward]

@[simp]
theorem isForward_body (before : Before) :
  (body before).IsForward
  := trivial

@[simp]
theorem isForward_type :
  type.IsForward
  := trivial

@[simp]
theorem isForward_statementPiece :
  statement.IsForward
  := trivial

@[simp]
theorem isForward_memberName :
  memberName.IsForward
  := by
  simp [memberName, IsForward]

@[simp]
theorem isForward_modifier (words : List String) :
  (modifier words).IsForward
  := by
  simp [modifier, IsForward]

@[simp]
theorem isForward_decorator {arguments : Piece} :
  (decorator arguments).IsForward ↔ arguments.IsForward
  := by
  simp [decorator, IsForward]

@[simp]
theorem isForward_typeArguments :
  typeArguments.IsForward
  := by
  simp [typeArguments]

@[simp]
theorem isForward_typeParameters :
  typeParameters.IsForward
  := by
  simp [typeParameters, IsForward]

@[simp]
theorem isForward_typeClause :
  typeClause.IsForward
  := by
  simp [typeClause, IsForward]

@[simp]
theorem isForward_parameters {dialect : Dialect} {arguments : Piece} (h : arguments.IsForward) :
  (parameters dialect arguments).IsForward
  := by
  cases htypes : dialect.types <;> simp [parameters, parameter, htypes, h, IsForward]

@[simp]
theorem isForward_resultType :
  resultType.IsForward
  := by
  simp [resultType, predicate, IsForward]

@[simp]
theorem isForward_signature {dialect : Dialect} {arguments : Piece} (h : arguments.IsForward) :
  (signature dialect arguments).IsForward
  := by
  simp [signature, h, IsForward]

@[simp]
theorem isForward_indexSignature :
  indexSignature.IsForward
  := by
  simp [indexSignature, IsForward]

@[simp]
theorem isForward_objectType {dialect : Dialect} {arguments : Piece} (h : arguments.IsForward) :
  (objectType dialect arguments).IsForward
  := by
  simp [objectType, typeMember, h, IsForward]

@[simp]
theorem isForward_arguments :
  arguments.IsForward
  := by
  simp [arguments, spread, IsForward]

@[simp]
theorem isForward_method (dialect : Dialect) (modifiers : List String) :
  (method dialect modifiers).IsForward
  := by
  cases htypes : dialect.types <;> simp [method, htypes, IsForward]

@[simp]
theorem isForward_property (dialect : Dialect) (modifiers : List String) :
  (property dialect modifiers).IsForward
  := by
  simp [property, IsForward]

@[simp]
theorem isForward_objectLiteral (dialect : Dialect) :
  (objectLiteral dialect).IsForward
  := by
  simp [objectLiteral, objectEntry, spread, IsForward]

@[simp]
theorem isForward_classTail {dialect : Dialect} {named : Piece} :
  (classTail dialect named).IsForward ↔ named.IsForward
  := by
  cases htypes : dialect.types <;> simp [classTail, heritage, htypes, IsForward]

@[simp]
theorem isForward_className :
  className.IsForward
  := isForward_name _

theorem isForward_atom (dialect : Dialect) (enclosed : Bool) :
  (atom dialect enclosed).IsForward
  := by
  have hregex := isForward_lexeme le_skip @le_regexAt
  rcases dialect with ⟨_ | _, _ | _⟩ <;>
    simp [atom, arrowFunction, arrowBody, functionExpression, arrayLiteral, classExpression, spread,
      hregex, IsForward]

theorem isForward_trailer (dialect : Dialect) :
  (trailer dialect).IsForward
  := by
  simp [trailer, IsForward]

@[simp]
theorem isForward_bindings (dialect : Dialect) :
  (bindings dialect).IsForward
  := by
  simp [bindings, binding, IsForward]

@[simp]
theorem isForward_declaration (dialect : Dialect) (before : Before) :
  (declaration dialect before).IsForward
  := by
  rcases dialect with ⟨_ | _, markup⟩ <;>
    simp [declaration, commonDeclaration, functionDeclaration, classDeclaration, enumDeclaration,
      functionSignature, interfaceDeclaration, typeAlias, namespaceDeclaration, importAlias,
      functionHead, qualifiedName, IsForward]

@[simp]
theorem isForward_nameList (dialect : Dialect) :
  (nameList dialect).IsForward
  := by
  simp [nameList, IsForward]

@[simp]
theorem isForward_wordStatement (dialect : Dialect) :
  (wordStatement dialect).IsForward
  := by
  simp [wordStatement, condition, forStatement, tryStatement, switchStatement, jumpStatement,
    IsForward]

/-- No token of the grammar goes back. -/
theorem isForward_rules (dialect : Dialect) (rule : Rule) :
  (rules dialect rule).IsForward
  := by
  cases rule with
  | statement =>
      simp [rules, anyStatement, importStatement, exportStatement, fromClause, expressionStatement,
        functionHead, IsForward]
  | block before => simp [rules, IsForward]
  | classBody =>
      rcases dialect with ⟨_ | _, markup⟩ <;> simp [rules, classMember, staticBlock, IsForward]
  | expression enclosed =>
      simp [rules, wholeExpression, operation, binaryOperator, assignmentSign, IsForward]
  | operand enclosed => rcases dialect with ⟨_ | _, _ | _⟩ <;> simp [rules, operand, IsForward]
  | primary enclosed => simp [rules, isForward_atom, isForward_trailer]
  | pattern => simp [rules, bindingPattern, IsForward]
  | destructuring => simp [rules, destructuring, IsForward]
  | template => simp [rules, templateString, isForward_tokenHere @le_templateTextAt, IsForward]
  | element =>
      simp [rules, element, elementName, elementAttribute, markupExpression, spread,
        isForward_token @le_markupNameAt, isForward_token @le_markupStringAt,
        isForward_tokenHere @le_markupTextAt, isForward_tokenHere @le_characterReferenceAt, IsForward]
  | type => simp [rules, typeExpression, IsForward]
  | typeOperand =>
      simp [rules, typeOperand, functionType, primaryType, tupleElement, importedType,
        qualifiedName, IsForward]

end Script

/-! ### Rust -/

namespace Rust

open Pattern

theorem le_skip (text : Array Char) (i : Nat) :
  i ≤ skip text i
  := by
  fun_induction skip text i with grind

theorem le_interpreterLineAt (h : interpreterLineAt text i = some stop) :
  i ≤ stop
  := by
  grind [interpreterLineAt, endOfLine, le_skipWhile]

theorem le_wordEnd? (h : wordEnd? text i = some stop) :
  i ≤ stop
  := by
  grind [wordEnd?, le_skipWhile]

theorem le_nameAt {reserved : List String} (h : nameAt reserved text i = some stop) :
  i ≤ stop
  := by
  obtain ⟨last, hlast, h⟩ := Option.bind_eq_some_iff.mp h
  grind [→ le_wordEnd?]

theorem le_lifetimeAt (h : lifetimeAt text i = some stop) :
  i ≤ stop
  := by
  grind [lifetimeAt, Option.bind_eq_some_iff, → le_wordEnd?]

theorem le_stringEnd? (h : stringEnd? text i = some stop) :
  i ≤ stop
  := by
  fun_induction stringEnd? text i with grind

theorem le_rawStringEnd? {hashes : Nat} (h : rawStringEnd? text hashes i = some stop) :
  i ≤ stop
  := by
  fun_induction rawStringEnd? text hashes i with grind

theorem le_stringAt (h : stringAt text i = some stop) :
  i ≤ stop
  := by
  unfold stringAt at h
  dsimp only at h
  grind -ext [le_skipWhile, → le_stringEnd?, → le_rawStringEnd?]

theorem le_escapeEnd? (h : escapeEnd? text i = some stop) :
  i ≤ stop
  := by
  unfold escapeEnd? at h
  dsimp only at h
  grind -ext

theorem le_characterAt (h : characterAt text i = some stop) :
  i ≤ stop
  := by
  unfold characterAt at h
  dsimp only at h
  grind -ext [Option.bind_eq_some_iff, → le_escapeEnd?]

theorem le_digitsEnd (text : Array Char) (isDigit : Char → Bool) (i : Nat) :
  i ≤ digitsEnd text isDigit i
  := le_skipWhile ..

theorem le_numberTypeEnd (text : Array Char) (i : Nat) :
  i ≤ numberTypeEnd text i
  := by
  grind [numberTypeEnd]

theorem le_integerAt (h : integerAt text i = some stop) :
  i ≤ stop
  := by
  unfold integerAt at h
  dsimp only at h
  grind -ext [le_digitsEnd, le_numberTypeEnd]

theorem le_numberAt (h : numberAt text i = some stop) :
  i ≤ stop
  := by
  unfold numberAt at h
  dsimp only at h
  grind -ext [le_digitsEnd, le_numberTypeEnd, → le_integerAt]

theorem le_macroTokenAt (h : macroTokenAt text i = some stop) :
  i ≤ stop
  := by
  simp only [macroTokenAt, Option.or_eq_some_iff] at h
  rcases h with h | ⟨-, h | ⟨-, h | ⟨-, h | ⟨-, h⟩⟩⟩⟩
  · apply le_stringAt h
  · apply le_characterAt h
  · apply le_numberAt h
  · apply le_wordEnd? h
  · grind

theorem isForward_token {find : Array Char → Nat → Option Nat}
    (hfind : ∀ ⦃text i stop⦄, find text i = some stop → i ≤ stop) :
  (lexeme skip find : Scanner).IsForward
  := isForward_lexeme le_skip hfind

@[simp]
theorem isForward_sign (word without : String) :
  (sign word without).IsForward
  := isForward_token fun _ _ _ => le_signAt

@[simp]
theorem isForward_keyword (word : String) :
  (keyword word).IsForward
  := isForward_token fun _ _ _ => le_keywordAt

@[simp]
theorem isForward_anyKeyword (words : List String) :
  (anyKeyword words).IsForward
  := by
  simp [anyKeyword]

@[simp]
theorem isForward_word (reserved : List String) :
  (word reserved).IsForward
  := isForward_token fun _ _ _ => le_nameAt

@[simp]
theorem isForward_definedName :
  definedName.IsForward
  := isForward_word []

@[simp]
theorem isForward_lifetime :
  lifetime.IsForward
  := isForward_token @le_lifetimeAt

@[simp]
theorem isForward_stringPiece :
  (lexeme skip stringAt : Scanner).IsForward
  := isForward_token @le_stringAt

@[simp]
theorem isForward_integerPiece :
  (lexeme skip integerAt : Scanner).IsForward
  := isForward_token @le_integerAt

@[simp]
theorem isForward_literal :
  literal.IsForward
  := by
  simp [literal, isForward_token @le_characterAt, isForward_token @le_numberAt, IsForward]

@[simp]
theorem isForward_bracketed {opening closing : String} {item : Piece} :
  (bracketed opening item closing).IsForward ↔ item.IsForward
  := by
  simp [bracketed, commaList, IsForward]

@[simp]
theorem isForward_commaList {item : Piece} :
  (commaList item).IsForward ↔ item.IsForward
  := by
  simp [commaList, IsForward]

@[simp]
theorem isForward_type :
  type.IsForward
  := trivial

@[simp]
theorem isForward_expression :
  expression.IsForward
  := trivial

@[simp]
theorem isForward_bareExpression :
  bareExpression.IsForward
  := trivial

@[simp]
theorem isForward_block :
  block.IsForward
  := trivial

@[simp]
theorem isForward_pattern :
  pattern.IsForward
  := trivial

@[simp]
theorem isForward_pathSeparator :
  pathSeparator.IsForward
  := isForward_sign _ _

@[simp]
theorem isForward_attributeItem :
  attributeItem.IsForward
  := by
  simp [attributeItem, IsForward]

@[simp]
theorem isForward_attributes :
  attributes.IsForward
  := isForward_attributeItem

@[simp]
theorem isForward_bound :
  bound.IsForward
  := by
  simp [bound, IsForward]

@[simp]
theorem isForward_bounds :
  bounds.IsForward
  := by
  simp [bounds]

@[simp]
theorem isForward_typeParameters :
  typeParameters.IsForward
  := by
  simp [typeParameters, IsForward]

@[simp]
theorem isForward_typeArguments :
  typeArguments.IsForward
  := by
  simp [typeArguments, IsForward]

@[simp]
theorem isForward_parameters :
  parameters.IsForward
  := by
  simp [parameters, selfParameter, IsForward]

@[simp]
theorem isForward_resultType :
  resultType.IsForward
  := by
  simp [resultType, IsForward]

@[simp]
theorem isForward_functionModifiers :
  functionModifiers.IsForward
  := by
  simp [functionModifiers, IsForward]

@[simp]
theorem isForward_typeSegment :
  typeSegment.IsForward
  := by
  simp [typeSegment, IsForward]

@[simp]
theorem isForward_typePath :
  typePath.IsForward
  := by
  simp [typePath, IsForward]

@[simp]
theorem isForward_qualifiedSelf :
  qualifiedSelf.IsForward
  := by
  simp [qualifiedSelf, IsForward]

@[simp]
theorem isForward_whereClause :
  whereClause.IsForward
  := by
  simp [whereClause, IsForward]

@[simp]
theorem isForward_valuePath (reserved : List String) :
  (valuePath reserved).IsForward
  := by
  simp [valuePath, IsForward]

@[simp]
theorem isForward_condition :
  condition.IsForward
  := by
  simp [condition]

@[simp]
theorem isForward_visibility :
  visibility.IsForward
  := by
  simp [visibility, IsForward]

@[simp]
theorem isForward_declarations :
  declarations.IsForward
  := by
  simp [declarations, IsForward]

theorem isForward_item :
  item.IsForward
  := by
  simp [item, function, record, fields, orderedFields, variant, trait, implementation,
    implementedType, submodule, smallItem, usedNames, macroRules, constantValue, IsForward]

theorem isForward_macroItem :
  macroItem.IsForward
  := by
  simp [macroItem, IsForward]

theorem isForward_atom (bare : Bool) :
  (atom bare).IsForward
  := by
  cases bare <;> simp [atom, closure, fieldValue, IsForward]

/-- No token of the grammar goes back. -/
theorem isForward_rules (rule : Rule) :
  (rules rule).IsForward
  := by
  cases rule with
  | statement => simp [rules, isForward_item, isForward_macroItem, IsForward]
  | declaration => simp [rules, isForward_item, isForward_macroItem, IsForward]
  | block => simp [rules, IsForward]
  | expression bare => cases bare <;> simp [rules, wholeExpression, binaryOperator, IsForward]
  | operand bare => cases bare <;> simp [rules, operand, isForward_atom, trailer, IsForward]
  | blockLike => simp [rules, blockLike, matchArm, IsForward]
  | pattern => simp [rules, anyPattern, IsForward]
  | simplePattern => simp [rules, simplePattern, rangeEnd, fieldPattern, IsForward]
  | type => simp [rules, boundedType, IsForward]
  | simpleType => simp [rules, simpleType, IsForward]
  | tokenTree => simp [rules, tokenTree, isForward_token @le_macroTokenAt, IsForward]

end Rust

/-! ### The trees of source texts -/

theorem isForward_endAt {skip : Array Char → Nat → Nat} (hskip : ∀ text i, i ≤ skip text i) :
  (lexeme skip endAt : Scanner).IsForward
  := isForward_lexeme hskip @le_endAt

/-- The nodes in the tree of a source text lie in order. -/
theorem exists_liesIn_of_parse {language : Language} {tree : Tree}
    (h : parse language text = .ok tree) :
  ∃ high, tree.LiesIn 0 high
  := by
  have hscript (dialect : Script.Dialect)
      (h : Pattern.tree (Script.rules dialect) Script.file text = .ok tree) :
      ∃ high, tree.LiesIn 0 high := by
    apply Pattern.exists_liesIn_tree (Script.isForward_rules dialect) _ h
    simp [Script.file, Pattern.IsForward, isForward_endAt Script.le_skip,
      Script.isForward_tokenHere @Script.le_interpreterLineAt]
  cases language with
  | python =>
      apply Pattern.exists_liesIn_tree Python.isForward_rules _ h
      simp [Python.file, Pattern.IsForward, isForward_endAt Python.le_skipFree]
  | javascript => apply hscript _ h
  | typescript => apply hscript _ h
  | tsx => apply hscript _ h
  | rust =>
      apply Pattern.exists_liesIn_tree Rust.isForward_rules _ h
      simp [Rust.file, Pattern.IsForward, isForward_endAt Rust.le_skip,
        isForward_lexeme (fun _ _ => Nat.le_refl _) @Rust.le_interpreterLineAt]
  | unknown => cases h

theorem exists_liesIn_of_syntaxTree {text : List Char} {language : Language} {tree : Tree}
    (h : syntaxTree (Text.LineIndex.ofText text) language = .ok tree) :
  ∃ high, tree.LiesIn 0 high
  := exists_liesIn_of_parse (parse_of_syntaxTree h)

end Scrutiny.Grammar
