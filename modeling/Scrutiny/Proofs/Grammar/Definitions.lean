import Scrutiny.Chunk.Chunker
import Scrutiny.Proofs.Grammar.Reads

/-!
# Where definitions start

In each of the grammars a definition starts with a word or a sign: the word that tells what is
defined, one of the words that may stand before it, the sign of a decorator or the name of a member.
None of them starts with a blank.  So every definition in the tree of a text starts with a character
that is not blank, unless nothing was read of it.
-/

namespace Scrutiny.Grammar

open Text

variable {σ : Type} {text : Array Char} {i stop : Nat}

/-! ### Tokens -/

theorem isFullAt_iff {text : List Char} :
  isFullAt text i ↔ ∃ c, text[i]? = some c ∧ isBlank c = false
  := by
  rw [isFullAt, beq_iff_eq, Option.map_eq_some_iff]

/-- A character of a class that has no blanks in it is not blank. -/
theorem isFullAt_of_charAt {p : Char → Bool} (h : charAt text i p)
    (hp : ∀ c, p c = true → isBlank c = false) :
  isFullAt text.toList i
  := by
  rw [charAt] at h
  split at h
  · rename_i c hc
    apply isFullAt_iff.mpr
    use c, Array.getElem?_toList ▸ hc, hp c h
  · cases h

theorem isFullAt_of_wordAt {word : List Char} (h : wordAt text i word) (hword : isFullAt word 0) :
  isFullAt text.toList i
  := by
  cases word with
  | nil => cases hword
  | cons c rest =>
      obtain ⟨c', hc, hblank⟩ := isFullAt_iff.mp hword
      obtain rfl := Option.some.inj hc
      rw [wordAt, Bool.and_eq_true] at h
      apply isFullAt_of_charAt h.1
      intro c' hc'
      rw [eq_of_beq hc', hblank]

theorem isFull_lexeme {skip : Array Char → Nat → Nat} {find : Array Char → Nat → Option Nat}
    (h : ∀ ⦃text i stop⦄, find text i = some stop → isFullAt text.toList i) :
  (lexeme skip find : Scanner).IsFull
  := by
  intro text cursor found hfound
  unfold lexeme at hfound
  dsimp only at hfound
  split at hfound
  · rename_i hstop
    cases hfound
    apply h hstop
  · cases hfound

theorem isFullAt_of_keywordAt {continues : Char → Bool} {word : List Char} (hword : isFullAt word 0)
    (h : keywordAt continues word text i = some stop) :
  isFullAt text.toList i
  := by
  unfold keywordAt at h
  dsimp only at h
  split at h
  · rename_i hfound
    apply isFullAt_of_wordAt (Bool.and_eq_true_iff.mp hfound).1 hword
  · cases h

theorem isFullAt_of_signAt {sign without : List Char} (hsign : isFullAt sign 0)
    (h : signAt sign without text i = some stop) :
  isFullAt text.toList i
  := by
  unfold signAt at h
  dsimp only at h
  split at h
  · rename_i hfound
    apply isFullAt_of_wordAt (Bool.and_eq_true_iff.mp hfound).1 hsign
  · cases h

/-! ### Patterns -/

theorem Pattern.startsFull_oneOf {items : List (Pattern σ)} (h : ∀ item ∈ items, item.StartsFull) :
  (oneOf items).StartsFull
  := by
  induction items with
  | nil => trivial
  | cons item rest ih =>
      obtain ⟨hitem, hrest⟩ := List.forall_mem_cons.mp h
      cases rest with
      | nil => apply hitem
      | cons next later => exact ⟨hitem, ih hrest⟩

/-! ### Python -/

namespace Python

open Pattern

theorem startsFull_keyword {word : String} (h : isFullAt word.toList 0) :
  (keyword word).StartsFull
  := isFull_lexeme fun _ _ _ => isFullAt_of_keywordAt h

theorem startsFull_sign {word without : String} (h : isFullAt word.toList 0) :
  (sign word without).StartsFull
  := isFull_lexeme fun _ _ _ => isFullAt_of_signAt h

theorem begins_keyword (word : String) :
  (keyword word).begins
  := rfl

theorem begins_sign (word without : String) :
  (sign word without).begins
  := rfl

theorem startsFull_functionDefinition :
  functionDefinition.StartsFull
  := by
  simp (disch := decide) [functionDefinition, inOrder, opt, StartsFull, startsFull_keyword,
    begins_keyword]

theorem startsFull_classDefinition :
  classDefinition.StartsFull
  := by
  simp (disch := decide) [classDefinition, inOrder, StartsFull, startsFull_keyword, begins_keyword]

theorem startsFull_decoratedDefinition :
  decoratedDefinition.StartsFull
  := by
  simp (disch := decide) [decoratedDefinition, inOrder, many1, begins, StartsFull, startsFull_sign,
    begins_sign]

/-- Each definition in the grammar starts with a full token. -/
theorem isFull_rules (rule : Rule) :
  (rules rule).IsFull
  := by
  cases rule with
  | statement =>
      have hdefinitions : (rules .statement).definitions = [functionDefinition, classDefinition,
          decoratedDefinition, classDefinition, functionDefinition] := rfl
      simp [IsFull, hdefinitions, startsFull_functionDefinition, startsFull_classDefinition,
        startsFull_decoratedDefinition]
  | simpleStatements | suite | assignment | casePattern | simplePattern | interpolation =>
      apply isFull_of_definitions_eq_nil rfl
  | expression brackets | negation brackets | operand brackets | primary brackets | target brackets
  | targets brackets | expressions brackets | yielded brackets =>
      cases brackets <;> apply isFull_of_definitions_eq_nil rfl

end Python

/-! ### Scripts -/

namespace Script

open Pattern

variable {words : List String} {dialect : Dialect}

theorem startsFull_keyword {word : String} (h : isFullAt word.toList 0) :
  (keyword word).StartsFull
  := isFull_lexeme fun _ _ _ => isFullAt_of_keywordAt h

theorem startsFull_sign {word without : String} (h : isFullAt word.toList 0) :
  (sign word without).StartsFull
  := isFull_lexeme fun _ _ _ => isFullAt_of_signAt h

theorem begins_keyword (word : String) :
  (keyword word).begins
  := rfl

theorem begins_sign (word without : String) :
  (sign word without).begins
  := rfl

theorem startsFull_anyKeyword (h : ∀ word ∈ words, isFullAt word.toList 0) :
  (anyKeyword words).StartsFull
  := by
  apply startsFull_oneOf
  intro item hitem
  obtain ⟨word, hword, rfl⟩ := List.mem_map.mp hitem
  apply startsFull_keyword (h word hword)

theorem not_isBlank_of_isWordPart {c : Char} (h : isWordPart c) :
  isBlank c = false
  := by
  simp only [isWordPart, isSpace, Bool.and_eq_true, Bool.not_eq_true', Bool.or_eq_false_iff] at h
  apply h.1.2.1.1.1

/-- A word starts with a character of words, or with the escape of one. -/
theorem isFullAt_of_wordEnd? (h : wordEnd? text i = some stop) :
  isFullAt text.toList i
  := by
  unfold wordEnd? at h
  dsimp only at h
  split at h
  · cases h
  · split at h
    · rename_i hlt
      rw [wordTail] at hlt
      split at hlt
      · rename_i hsize
        split at hlt
        · rename_i hpart
          apply isFullAt_iff.mpr
          use text[i], by simp [hsize], not_isBlank_of_isWordPart hpart
        · split at hlt
          · rename_i hescape
            apply isFullAt_of_wordAt hescape (by decide)
          · cases Nat.lt_irrefl _ hlt
      · cases Nat.lt_irrefl _ hlt
    · cases h

theorem startsFull_word (reserved : List String) :
  (word reserved).StartsFull
  := by
  apply isFull_lexeme
  intro text i stop h
  obtain ⟨last, hlast, -⟩ := Option.bind_eq_some_iff.mp h
  apply isFullAt_of_wordEnd? hlast

theorem startsFull_privateName :
  privateName.StartsFull
  := by
  apply isFull_lexeme
  intro text i stop h
  unfold privateNameAt at h
  split at h
  · rename_i hmark
    apply isFullAt_of_charAt hmark
    intro c hc
    rw [eq_of_beq hc]
    decide
  · cases h

theorem startsFull_string :
  string.StartsFull
  := by
  apply isFull_lexeme
  intro text i stop h
  unfold stringAt at h
  split at h
  · rename_i c hc
    split at h
    · rename_i hmark
      apply isFullAt_iff.mpr
      use c, Array.getElem?_toList ▸ hc
      rcases (Bool.or_eq_true _ _).mp hmark with hmark | hmark
      · rw [eq_of_beq hmark]
        decide
      · rw [eq_of_beq hmark]
        decide
    · cases h
  · cases h

theorem not_isBlank_of_isDigit {c : Char} (h : c.isDigit) :
  isBlank c = false
  := by
  have hrange : 48 ≤ c.toNat ∧ c.toNat ≤ 57 := by
    simpa [Char.isDigit, UInt32.le_iff_toNat_le] using h
  simp only [isBlank, Bool.or_eq_false_iff, Bool.and_eq_false_iff, decide_eq_false_iff_not,
    beq_eq_false_iff_ne]
  omega

theorem startsFull_number :
  number.StartsFull
  := by
  apply isFull_lexeme
  intro text i stop h
  have hsign {sign : Char} (hmark : charAt text i (· == sign)) (hblank : isBlank sign = false) :
      isFullAt text.toList i := by
    apply isFullAt_of_charAt hmark
    intro c hc
    rw [eq_of_beq hc, hblank]
  unfold numberAt at h
  dsimp only at h
  split at h
  · rename_i hbase
    apply hsign (Bool.and_eq_true_iff.mp hbase).1 (by decide)
  · split at h
    · rename_i hbase
      apply hsign (Bool.and_eq_true_iff.mp hbase).1 (by decide)
    · split at h
      · rename_i hbase
        apply hsign (Bool.and_eq_true_iff.mp hbase).1 (by decide)
      · split at h
        · rename_i hdigit
          apply isFullAt_of_charAt hdigit
          apply not_isBlank_of_isDigit
        · split at h
          · rename_i hpoint
            apply hsign (Bool.and_eq_true_iff.mp hpoint).1 (by decide)
          · cases h

theorem startsFull_memberName :
  memberName.StartsFull
  := by
  apply startsFull_oneOf
  simp (disch := decide) [startsFull_word, startsFull_privateName, startsFull_string,
    startsFull_number, inOrder, StartsFull, startsFull_sign, begins_sign]

theorem startsFull_decorator (arguments : Piece) :
  (decorator arguments).StartsFull
  := by
  simp (disch := decide) [decorator, inOrder, StartsFull, startsFull_sign, begins_sign]

theorem startsFull_modifier (h : ∀ word ∈ words, isFullAt word.toList 0) :
  (modifier words).StartsFull
  := by
  simp [modifier, inOrder, onLine, check, StartsFull, startsFull_anyKeyword h]

theorem startsFull_whenTyped {piece : Piece} :
  (whenTyped dialect piece).StartsFull ↔ (dialect.types → piece.StartsFull)
  := by
  unfold whenTyped
  cases dialect.types with
  | false => simp [StartsFull]
  | true => simp

theorem startsFull_functionDeclaration (dialect : Dialect) (before : Before) :
  (functionDeclaration dialect before).StartsFull
  := by
  simp (disch := decide) [functionDeclaration, functionHead, inOrder, opt, StartsFull, begins,
    startsFull_keyword, startsFull_sign, begins_keyword]

theorem startsFull_classTail (dialect : Dialect) (named : Piece) :
  (classTail dialect named).StartsFull
  := by
  simp (disch := decide) [classTail, inOrder, StartsFull, startsFull_keyword, begins_keyword]

theorem begins_classTail (dialect : Dialect) (named : Piece) :
  (classTail dialect named).begins
  := rfl

theorem startsFull_classExpression (dialect : Dialect) :
  (classExpression dialect).StartsFull
  := by
  simp [classExpression, StartsFull, startsFull_decorator, startsFull_classTail]

theorem startsFull_classDeclaration (dialect : Dialect) (before : Before) :
  (classDeclaration dialect before).StartsFull
  := by
  simp (disch := decide) [classDeclaration, inOrder, oneOf, StartsFull, startsFull_decorator,
    startsFull_classTail, begins_classTail, startsFull_whenTyped, startsFull_keyword, begins_keyword]

theorem startsFull_interfaceDeclaration (dialect : Dialect) :
  (interfaceDeclaration dialect).StartsFull
  := by
  simp (disch := decide) [interfaceDeclaration, inOrder, StartsFull, startsFull_keyword,
    begins_keyword]

theorem startsFull_enumDeclaration :
  enumDeclaration.StartsFull
  := by
  simp (disch := decide) [enumDeclaration, inOrder, opt, StartsFull, startsFull_keyword,
    begins_keyword]

theorem startsFull_bindings (dialect : Dialect) :
  (bindings dialect).StartsFull
  := by
  have hbegins : (anyKeyword ["var", "let", "const"]).begins := rfl
  simp (disch := decide) [bindings, inOrder, StartsFull, startsFull_anyKeyword, hbegins]

theorem startsFull_method (dialect : Dialect) (h : ∀ word ∈ words, isFullAt word.toList 0) :
  (method dialect words).StartsFull
  := by
  have hdecorators : (if dialect.types then .empty else .many (decorator arguments) :
      Piece).StartsFull := by
    split
    · trivial
    · apply startsFull_decorator
  have hname : memberName.begins := rfl
  simp (disch := decide) [method, inOrder, opt, StartsFull, begins, hdecorators, startsFull_sign,
    startsFull_modifier h, startsFull_memberName, hname]

theorem startsFull_property (dialect : Dialect) (h : ∀ word ∈ words, isFullAt word.toList 0) :
  (property dialect words).StartsFull
  := by
  have hname : memberName.begins := rfl
  simp [property, inOrder, StartsFull, begins, startsFull_decorator, startsFull_modifier h,
    startsFull_memberName, hname]

theorem startsFull_exportStatement (dialect : Dialect) :
  (exportStatement dialect).StartsFull
  := by
  apply startsFull_oneOf
  simp (disch := decide) [inOrder, StartsFull, startsFull_decorator, startsFull_whenTyped,
    startsFull_keyword, begins_keyword]

/-- The words before a member of an object, and of a class that is not typed. -/
theorem isFullAt_memberWords :
  ∀ word ∈ ["static", "async", "get", "set"], isFullAt word.toList 0
  := by decide

theorem isFullAt_typedMemberWords :
  ∀ word ∈ typedMemberWords, isFullAt word.toList 0
  := by decide

theorem isFull_commonDeclaration (dialect : Dialect) (before : Before) :
  (commonDeclaration dialect before).IsFull
  := by
  have hdefinitions : (commonDeclaration dialect before).definitions
      = [functionDeclaration dialect before, classDeclaration dialect before, bindings dialect] := by
    rcases dialect with ⟨_ | _, markup⟩ <;> rfl
  simp [IsFull, hdefinitions, startsFull_functionDeclaration, startsFull_classDeclaration,
    startsFull_bindings]

/-- A declaration of a typed dialect may also stand behind the word `declare`. -/
theorem isFull_declaration (dialect : Dialect) (before : Before) :
  (declaration dialect before).IsFull
  := by
  rcases dialect with ⟨_ | _, markup⟩
  · apply isFull_commonDeclaration
  · have henum : enumDeclaration.IsFull :=
      isFull_node.mpr ⟨fun _ => startsFull_enumDeclaration, isFull_of_definitions_eq_nil rfl⟩
    have hinterface : (interfaceDeclaration ⟨true, markup⟩).IsFull :=
      isFull_node.mpr ⟨fun _ => startsFull_interfaceDeclaration _, isFull_of_definitions_eq_nil rfl⟩
    have hplain : (oneOf [enumDeclaration, commonDeclaration ⟨true, markup⟩ before,
        functionSignature ⟨true, markup⟩, interfaceDeclaration ⟨true, markup⟩,
        typeAlias ⟨true, markup⟩, namespaceDeclaration, importAlias ⟨true, markup⟩]).IsFull := by
      apply isFull_either.mpr ⟨henum, _⟩
      apply isFull_either.mpr ⟨isFull_commonDeclaration _ before, _⟩
      apply isFull_either.mpr ⟨isFull_of_definitions_eq_nil rfl, _⟩
      apply isFull_either.mpr ⟨hinterface, isFull_of_definitions_eq_nil rfl⟩
    apply isFull_either.mpr ⟨hplain, _⟩
    apply isFull_node_of_not rfl
    apply isFull_seq_right rfl
    apply isFull_seq_right rfl
    apply isFull_either.mpr ⟨hplain, isFull_of_definitions_eq_nil rfl⟩

theorem isFull_objectLiteral (dialect : Dialect) :
  (objectLiteral dialect).IsFull
  := by
  have hdefinitions : (objectLiteral dialect).definitions
      = [method dialect ["static", "async", "get", "set"],
        method dialect ["static", "async", "get", "set"]] := by
    rcases dialect with ⟨_ | _, markup⟩ <;> rfl
  simp [IsFull, hdefinitions, startsFull_method dialect isFullAt_memberWords]

theorem isFull_atom (dialect : Dialect) (enclosed : Bool) :
  (atom dialect enclosed).IsFull
  := by
  have hdefinitions : (atom dialect enclosed).definitions
      = [method dialect ["static", "async", "get", "set"],
        method dialect ["static", "async", "get", "set"], classExpression dialect] := by
    rcases dialect with ⟨_ | _, _ | _⟩ <;> cases enclosed <;> rfl
  simp [IsFull, hdefinitions, startsFull_method dialect isFullAt_memberWords,
    startsFull_classExpression]

theorem isFull_classMember (dialect : Dialect) :
  (classMember dialect).IsFull
  := by
  rcases dialect with ⟨_ | _, markup⟩
  · have hdefinitions : (classMember ⟨false, markup⟩).definitions
        = [method ⟨false, markup⟩ ["static", "async", "get", "set"],
          property ⟨false, markup⟩ ["static"]] := rfl
    have hproperty := @startsFull_property ["static"] ⟨false, markup⟩ (by decide)
    simp [IsFull, hdefinitions, startsFull_method _ isFullAt_memberWords, hproperty]
  · have hdefinitions : (classMember ⟨true, markup⟩).definitions
        = [method ⟨true, markup⟩ typedMemberWords, property ⟨true, markup⟩ typedMemberWords] := rfl
    simp [IsFull, hdefinitions, startsFull_method _ isFullAt_typedMemberWords,
      startsFull_property _ isFullAt_typedMemberWords]

theorem isFull_exportStatement (dialect : Dialect) :
  (exportStatement dialect).IsFull
  := by
  apply isFull_node.mpr
  use fun _ => startsFull_exportStatement dialect
  apply isFull_either.mpr
  constructor
  · rcases dialect with ⟨_ | _, markup⟩ <;> apply isFull_of_definitions_eq_nil rfl
  · apply isFull_either.mpr
    constructor
    · apply isFull_seq_right rfl
      apply isFull_seq_right rfl
      apply isFull_either.mpr ⟨isFull_declaration dialect .word, _⟩
      apply isFull_seq_right rfl
      apply isFull_either.mpr
      use isFull_declaration dialect .operand, isFull_of_definitions_eq_nil rfl
    · rcases dialect with ⟨_ | _, markup⟩ <;> apply isFull_of_definitions_eq_nil rfl

theorem isFull_importStatement (dialect : Dialect) :
  (importStatement dialect).IsFull
  := by
  have hattributes : (opt (seq (anyKeyword ["with"]) (objectLiteral dialect))).IsFull := by
    apply isFull_either.mpr ⟨_, isFull_of_definitions_eq_nil rfl⟩
    apply isFull_seq_right rfl (isFull_objectLiteral dialect)
  have hend := isFull_seq.mpr ⟨hattributes,
    isFull_of_definitions_eq_nil (rfl : (finish dialect).definitions = [])⟩
  apply isFull_node_of_not rfl
  rcases dialect with ⟨_ | _, markup⟩
  · apply isFull_either.mpr ⟨_, isFull_of_definitions_eq_nil rfl⟩
    apply isFull_seq_right rfl
    apply isFull_seq_right rfl hend
  · apply isFull_either.mpr
    constructor
    · apply isFull_seq_right rfl
      apply isFull_seq_right rfl hend
    · apply isFull_seq_right rfl
      apply isFull_seq_right rfl
      apply isFull_seq_right rfl hend

theorem isFull_wordStatement (dialect : Dialect) :
  (wordStatement dialect).IsFull
  := by
  have hdefinitions : (wordStatement dialect).definitions = [bindings dialect] := by
    rcases dialect with ⟨_ | _, markup⟩ <;> rfl
  simp [IsFull, hdefinitions, startsFull_bindings]

theorem isFull_anyStatement (dialect : Dialect) :
  (anyStatement dialect).IsFull
  := by
  apply isFull_either.mpr ⟨isFull_of_definitions_eq_nil rfl, _⟩
  apply isFull_either.mpr ⟨isFull_declaration dialect .operand, _⟩
  apply isFull_either.mpr ⟨isFull_exportStatement dialect, _⟩
  apply isFull_either.mpr ⟨isFull_importStatement dialect, _⟩
  apply isFull_either.mpr ⟨isFull_of_definitions_eq_nil rfl, _⟩
  apply isFull_either.mpr ⟨isFull_wordStatement dialect, _⟩
  rcases dialect with ⟨_ | _, markup⟩ <;> apply isFull_of_definitions_eq_nil rfl

/-- Each definition in the grammar of a dialect starts with a full token. -/
theorem isFull_rules (dialect : Dialect) (rule : Rule) :
  (rules dialect rule).IsFull
  := by
  cases rule with
  | statement => apply isFull_anyStatement
  | classBody =>
      apply isFull_seq_right rfl
      apply isFull_seq.mpr ⟨isFull_classMember dialect, isFull_of_definitions_eq_nil rfl⟩
  | primary enclosed =>
      apply isFull_seq.mpr ⟨isFull_atom dialect enclosed, _⟩
      rcases dialect with ⟨_ | _, markup⟩ <;> apply isFull_of_definitions_eq_nil rfl
  | expression enclosed | operand enclosed =>
      rcases dialect with ⟨_ | _, _ | _⟩ <;> cases enclosed <;>
        apply isFull_of_definitions_eq_nil rfl
  | block before | pattern | destructuring | template | element | type | typeOperand =>
      rcases dialect with ⟨_ | _, _ | _⟩ <;> apply isFull_of_definitions_eq_nil rfl

end Script

/-! ### Rust -/

namespace Rust

open Pattern

theorem startsFull_keyword {word : String} (h : isFullAt word.toList 0) :
  (keyword word).StartsFull
  := isFull_lexeme fun _ _ _ => isFullAt_of_keywordAt h

theorem begins_keyword (word : String) :
  (keyword word).begins
  := rfl

theorem startsFull_visibility :
  visibility.StartsFull
  := by
  simp (disch := decide) [visibility, opt, StartsFull, startsFull_keyword, begins_keyword]

theorem startsFull_functionModifiers :
  functionModifiers.StartsFull
  := by
  apply startsFull_oneOf
  simp (disch := decide) [anyKeyword, oneOf, StartsFull, startsFull_keyword, begins_keyword]

theorem isFull_function :
  function.IsFull
  := by
  apply isFull_either.mpr
  constructor
  · apply isFull_node.mpr ⟨_, isFull_of_definitions_eq_nil rfl⟩
    intro
    simp (disch := decide) [inOrder, StartsFull, begins, startsFull_visibility,
      startsFull_functionModifiers, startsFull_keyword, begins_keyword]
  · apply isFull_of_definitions_eq_nil rfl

theorem isFull_record :
  record.IsFull
  := by
  apply isFull_node.mpr ⟨_, isFull_of_definitions_eq_nil rfl⟩
  intro
  simp (disch := decide) [inOrder, oneOf, StartsFull, startsFull_visibility, startsFull_keyword,
    begins_keyword]

theorem isFull_trait :
  trait.IsFull
  := by
  apply isFull_node.mpr ⟨_, isFull_of_definitions_eq_nil rfl⟩
  intro
  simp (disch := decide) [inOrder, opt, StartsFull, begins, startsFull_visibility,
    startsFull_keyword, begins_keyword]

theorem isFull_item :
  item.IsFull
  := by
  apply isFull_either.mpr ⟨isFull_function, _⟩
  apply isFull_either.mpr ⟨isFull_record, _⟩
  apply isFull_either.mpr ⟨isFull_trait, isFull_of_definitions_eq_nil rfl⟩

/-- Each definition in the grammar starts with a full token. -/
theorem isFull_rules (rule : Rule) :
  (rules rule).IsFull
  := by
  cases rule with
  | statement | declaration =>
      apply isFull_either.mpr ⟨isFull_item, isFull_of_definitions_eq_nil rfl⟩
  | expression bare | operand bare => cases bare <;> apply isFull_of_definitions_eq_nil rfl
  | block | blockLike | pattern | simplePattern | type | simpleType | tokenTree =>
      apply isFull_of_definitions_eq_nil rfl

end Rust

/-! ### Trees -/

/-- Each definition in the tree of a text starts with a character that is not blank, unless it is
empty. -/
theorem isFull_of_parse {language : Language} {tree : Tree} (h : parse language text = .ok tree) :
  tree.IsFull text.toList
  := by
  cases language with
  | python =>
      apply Pattern.isFull_tree Python.isFull_rules (Pattern.isFull_of_definitions_eq_nil rfl) h
  | javascript | typescript | tsx =>
      apply Pattern.isFull_tree (Script.isFull_rules _) (Pattern.isFull_of_definitions_eq_nil rfl) h
  | rust => apply Pattern.isFull_tree Rust.isFull_rules (Pattern.isFull_of_definitions_eq_nil rfl) h
  | unknown => cases h

theorem isFull_of_syntaxTree {text : List Char} {language : Language} {tree : Tree}
    (h : syntaxTree (LineIndex.ofText text) language = .ok tree) :
  tree.IsFull text
  := isFull_of_parse (parse_of_syntaxTree h)

end Scrutiny.Grammar
