import Mathlib.Tactic.Common
import Scrutiny.Proofs.Grammar.Definitions

/-!
# Where blocks start

A node starts where the first token in it does.  If that token is read in a node of its own, both
nodes start at one place.  Which token comes first, and whether it is in a node, is told by the shape
of the pattern.

So a block of Python starts where its first statement does, a statement where the first value in it
does, and a string with its letters or its marks.
-/

namespace Scrutiny.Grammar

open Text

variable {σ : Type} {rules : σ → Pattern σ} {text : Array Char} {p q : Progress}
  {pattern : Pattern σ} {known : σ → Bool}

/-! ### The first node -/

/-- The first node that was made starts where the first token does. -/
def Progress.IsLed (p : Progress) : Prop :=
  ∃ first, p.made.getLast? = some first ∧ p.begun = some first.start

/-- No token was read, and no node was made. -/
def Progress.IsFresh (p : Progress) : Prop :=
  p.begun = none ∧ p.made = []

/-- A node is led by its first child: it starts where the child does, if there is one. -/
def Tree.IsLed (tree : Tree) : Prop :=
  ∀ first ∈ tree.children.head?, tree.start = first.start

/-- A node starts where its first token does. -/
theorem Progress.begun_eq_start_wrap (h : p.begun.isSome) (kind : Kind) :
  p.begun = some (p.wrap kind).start
  := by
  obtain ⟨start, hbegun⟩ := Option.isSome_iff_exists.mp h
  rw [Progress.wrap, hbegun]
  rfl

theorem Progress.IsLed.isSome_begun (h : p.IsLed) :
  p.begun.isSome
  := by
  obtain ⟨first, -, hbegun⟩ := h
  rw [hbegun]
  rfl

/-- After a node that is fresh comes what was read in it. -/
theorem Progress.IsFresh.leave_eq (h : p.IsFresh) (q : Progress) (made : List Tree) :
  p.leave q made = { q with made }
  := by rw [Progress.leave, h.1, h.2, Option.none_or, List.append_nil]

theorem Progress.IsLed.leave (h : p.IsLed) (made : List Tree) :
  (p.leave q made).IsLed
  := by
  obtain ⟨first, hfirst, hbegun⟩ := h
  use first
  constructor
  · rw [Progress.leave, List.getLast?_append, hfirst]
    rfl
  · rw [Progress.leave, hbegun]
    rfl

/-- What is read later comes after the first node. -/
theorem Progress.IsLed.of_reads (h : p.IsLed) (hreads : Reads rules text pattern p q) :
  q.IsLed
  := by
  induction hreads with
  | empty | many_end | ahead | absent | suffixes_end | mark | assignable => apply h
  | token hfound =>
      obtain ⟨first, hfirst, hbegun⟩ := h
      use first, hfirst
      dsimp only
      rw [hbegun]
      rfl
  | call _ ih | either_first _ ih | either_second reach _ ih => apply ih h
  | seq _ _ ihfirst ihsecond => apply ihsecond (ihfirst h)
  | many_next _ _ ihitem ihrest => apply ihrest (ihitem h)
  | node _ _ | part _ _ | group _ _ => apply h.leave
  | @suffixes_next _ _ m _ _ _ ihnext ihrest =>
      apply ihrest
      use m.wrap .other, rfl
      apply Progress.begun_eq_start_wrap (ihnext h).isSome_begun

/-- A node is led by its first child if what is in it is, or makes no nodes. -/
theorem Progress.isLed_wrap (h : p.IsLed ∨ p.made = []) (kind : Kind) :
  (p.wrap kind).IsLed
  := by
  intro first hfirst
  rw [Option.mem_def, Progress.wrap, List.head?_reverse] at hfirst
  rcases h with h | hmade
  · have hstart := Progress.begun_eq_start_wrap h.isSome_begun kind
    obtain ⟨found, hfound, hbegun⟩ := h
    obtain rfl := Option.some.inj (hfound.symm.trans hfirst)
    apply Option.some.inj (hstart.symm.trans hbegun)
  · rw [hmade] at hfirst
    cases hfirst

/-! ### The first token of a pattern -/

namespace Pattern

/-- Whether a pattern reads a token wherever it is read, if each rule does. -/
def takes : Pattern σ → Bool
  | .token _ | .call _ => true
  | .seq first second => first.takes || second.takes
  | .either first second => first.takes && second.takes
  | .node _ item | .part _ item | .group item => item.takes
  | _ => false

theorem isSome_begun_of_takes (hrules : ∀ rule, (rules rule).takes) (h : pattern.takes)
    (hreads : Reads rules text pattern p q) :
  q.begun.isSome
  := by
  induction hreads with
  | empty | many_end | many_next | ahead | absent | suffixes_end | suffixes_next | mark
  | assignable => cases h
  | token hfound => simp
  | call _ ih => apply ih (hrules _)
  | seq _ hsecond ihfirst ihsecond =>
      rcases (Bool.or_eq_true _ _).mp h with hfirst | hlater
      · obtain ⟨start, hbegun⟩ := Option.isSome_iff_exists.mp (ihfirst hfirst)
        rw [hsecond.begun_eq hbegun]
        rfl
      · apply ihsecond hlater
  | either_first _ ih => apply ih (Bool.and_eq_true_iff.mp h).1
  | either_second reach _ ih => apply ih (Bool.and_eq_true_iff.mp h).2
  | node _ ih | part _ ih | group _ ih =>
      rw [Progress.leave, Option.isSome_or, ih h, Bool.or_true]

theorem not_isFresh_of_takes (hrules : ∀ rule, (rules rule).takes) (h : pattern.takes)
    (hreads : Reads rules text pattern p q) :
  ¬ q.IsFresh
  := by
  rintro ⟨hbegun, -⟩
  have hsome := isSome_begun_of_takes hrules h hreads
  rw [hbegun] at hsome
  cases hsome

/-- Whether the first token that is read in a pattern is read in a node, if that is so in the rules
that are `known`. -/
def leads (known : σ → Bool) : Pattern σ → Bool
  | .token _ | .suffixes _ => false
  | .call rule => known rule
  | .seq first second => first.leads known && (first.takes || second.leads known)
  | .either first second => first.leads known && second.leads known
  | .many item | .part _ item | .group item => item.leads known
  | .node _ item => item.takes
  | .empty | .ahead _ | .absent _ | .mark _ | .assignable => true

/-- At the start of a node, the first token is read in a node, or none is read. -/
theorem isLed_of_leads (hrules : ∀ rule, (rules rule).takes)
    (hknown : ∀ rule, known rule → (rules rule).leads known) (h : pattern.leads known)
    (hreads : Reads rules text pattern p q) (hp : p.IsFresh) :
  q.IsLed ∨ q.IsFresh
  := by
  have henter (p : Progress) : p.enter.IsFresh := ⟨rfl, rfl⟩
  induction hreads with
  | empty | many_end | ahead | absent | mark | assignable => exact .inr hp
  | token | suffixes_end | suffixes_next => cases h
  | call _ ih => apply ih (hknown _ h) hp
  | seq hfirst hsecond ihfirst ihsecond =>
      obtain ⟨hlead, hnext⟩ := Bool.and_eq_true_iff.mp h
      rcases ihfirst hlead hp with hled | hfresh
      · exact .inl (hled.of_reads hsecond)
      · rcases (Bool.or_eq_true _ _).mp hnext with htakes | hlater
        · cases not_isFresh_of_takes hrules htakes hfirst hfresh
        · apply ihsecond hlater hfresh
  | either_first _ ih => apply ih (Bool.and_eq_true_iff.mp h).1 hp
  | either_second reach _ ih => apply ih (Bool.and_eq_true_iff.mp h).2 hp
  | many_next _ hrest ihitem ihrest =>
      rcases ihitem h hp with hled | hfresh
      · exact .inl (hled.of_reads hrest)
      · apply ihrest h hfresh
  | @node kind _ _ q hitem _ =>
      left
      rw [hp.leave_eq]
      use q.wrap kind, rfl
      apply Progress.begun_eq_start_wrap (isSome_begun_of_takes hrules h hitem)
  | @part role _ _ _ _ ih =>
      rw [hp.leave_eq]
      rcases ih h (henter _) with ⟨first, hfirst, hbegun⟩ | ⟨hbegun, hmade⟩
      · left
        refine ⟨first.withRole role, ?_, hbegun⟩
        rw [List.getLast?_map, hfirst]
        rfl
      · exact .inr ⟨hbegun, List.map_eq_nil_iff.mpr hmade⟩
  | group _ ih =>
      rw [hp.leave_eq]
      apply ih h (henter _)

/-- Whether a node around a pattern is led by its first child: the first token is read in a node, or
no token but the last one is read. -/
def opens (known : σ → Bool) : Pattern σ → Bool
  | .token _ => true
  | .seq first second => first.leads known && (first.takes || second.opens known)
  | item => item.leads known

theorem isLed_of_opens (hrules : ∀ rule, (rules rule).takes)
    (hknown : ∀ rule, known rule → (rules rule).leads known) (h : pattern.opens known)
    (hreads : Reads rules text pattern p q) (hp : p.IsFresh) :
  q.IsLed ∨ q.made = []
  := by
  induction pattern generalizing p with
  | token scan =>
      cases hreads
      exact .inr hp.2
  | seq first second _ ihsecond =>
      cases hreads with
      | seq hfirst hsecond =>
          obtain ⟨hlead, hnext⟩ := Bool.and_eq_true_iff.mp h
          rcases isLed_of_leads hrules hknown hlead hfirst hp with hled | hfresh
          · exact .inl (hled.of_reads hsecond)
          · rcases (Bool.or_eq_true _ _).mp hnext with htakes | hlater
            · cases not_isFresh_of_takes hrules htakes hfirst hfresh
            · apply ihsecond hlater hsecond hfresh
  | _ => apply (isLed_of_leads hrules hknown h hreads hp).imp_right And.right

end Pattern

/-! ### Blocks and strings of Python -/

namespace Python

open Pattern

/-- The rules whose first token is read in a node. -/
def isLeading : Rule → Bool
  | .statement | .simpleStatements | .assignment | .expression _ | .negation _ | .operand _
  | .primary _ | .expressions _ | .yielded _ => true
  | _ => false

/-- Each rule of the grammar reads a token. -/
theorem takes_rules (rule : Rule) :
  (Python.rules rule).takes
  := by
  cases rule with
  | statement | simpleStatements | suite | assignment | casePattern | simplePattern
  | interpolation => rfl
  | expression brackets | negation brackets | operand brackets | primary brackets | target brackets
  | targets brackets | expressions brackets | yielded brackets => cases brackets <;> rfl

theorem leads_rules (rule : Rule) (h : isLeading rule) :
  (Python.rules rule).leads isLeading
  := by
  cases rule with
  | statement | simpleStatements | assignment => rfl
  | expression brackets | negation brackets | operand brackets | primary brackets
  | expressions brackets | yielded brackets => cases brackets <;> rfl
  | _ => cases h

/-- Whether nodes of the kind are led by their first child. -/
def isLed (kind : Kind) : Bool :=
  kind == .block || kind == .statement

/-- Whether a node is led by its first child, wherever it is read. -/
def opensNode : Piece → Bool
  | .node _ item => item.opens isLeading
  | _ => false

theorem opensNode_rules (rule : Rule) :
  ((Python.rules rule).nodes isLed).all opensNode
  := by
  cases rule with
  | statement | simpleStatements | suite | assignment | casePattern | simplePattern
  | interpolation => rfl
  | expression brackets | negation brackets | operand brackets | primary brackets | target brackets
  | targets brackets | expressions brackets | yielded brackets => cases brackets <;> rfl

/-- Each block and each statement of a text starts where its first child does. -/
theorem each_isLed {tree : Tree} (h : Pattern.tree Python.rules file text = .ok tree) :
  tree.Each isLed Tree.IsLed
  := by
  refine Pattern.each_tree rfl (fun _ _ h => h) ?_ ?_ h
  · intro rule kind item hmem p q hreads
    have hopens := List.all_eq_true.mp (opensNode_rules rule) _ hmem
    apply Progress.isLed_wrap
    apply isLed_of_opens takes_rules leads_rules hopens hreads ⟨rfl, rfl⟩
  · intro kind item hmem
    cases hmem

theorem skipWhile_eq_self {p : Char → Bool} {i : Nat} (h : ¬ charAt text i p) :
  skipWhile text p i = i
  := by
  rw [skipWhile]
  split
  · rename_i hsize
    apply if_neg
    intro hp
    apply h
    rw [charAt, Array.getElem?_eq_getElem hsize]
    apply hp
  · rfl

theorem isFullAt_of_quotesAt {i : Nat} {found : Quotes × Nat} (h : quotesAt text i = some found) :
  isFullAt text.toList i
  := by
  have hletters : ['f', 'F', 'r', 'R', 'b', 'B', 'u', 'U'].all (isBlank · == false) := by decide
  unfold quotesAt at h
  dsimp only at h
  by_cases hletter : charAt text i (['f', 'F', 'r', 'R', 'b', 'B', 'u', 'U'].contains ·)
  · apply isFullAt_of_charAt hletter
    intro c hc
    apply eq_of_beq (List.all_eq_true.mp hletters c (List.contains_iff_mem.mp hc))
  · rw [skipWhile_eq_self hletter] at h
    split at h
    · cases h
    · rename_i mark hmark
      have hmarks : ['"', '\'', '\x60'].all (isBlank · == false) := by decide
      apply isFullAt_iff.mpr
      use mark, Array.getElem?_toList ▸ hmark
      apply eq_of_beq (List.all_eq_true.mp hmarks mark _)
      grind

/-- A string starts with its letters or its marks. -/
theorem startsFull_stringLiteral (skip : Array Char → Nat → Nat) :
  (stringLiteral skip).StartsFull
  := by
  have hplain : (lexeme skip plainStringAt : Scanner).IsFull := by
    apply isFull_lexeme
    intro text i stop h
    unfold plainStringAt at h
    split at h
    · cases h
    · rename_i hquotes
      apply isFullAt_of_quotesAt hquotes
  have hopening (quotes : Quotes) : (lexeme skipFree (openingAt quotes) : Scanner).IsFull := by
    apply isFull_lexeme
    intro text i stop h
    unfold openingAt at h
    split at h
    · cases h
    · rename_i hquotes
      apply isFullAt_of_quotesAt hquotes
  constructor
  · exact ⟨trivial, .inr hplain⟩
  · refine ⟨trivial, .inr (startsFull_oneOf ?_)⟩
    intro item hitem
    obtain ⟨quotes, -, rfl⟩ := List.mem_map.mp hitem
    exact ⟨hopening quotes, .inl rfl⟩

theorem exists_eq_of_mem_strings (brackets : Bool) :
  ∀ node ∈ (strings brackets).nodes (· == .stringLiteral), ∃ skip, node = stringLiteral skip
  := by
  have hnodes : (strings brackets).nodes (· == .stringLiteral)
      = [stringLiteral skipFree, stringLiteral (skip brackets), stringLiteral (skip brackets)] := rfl
  rw [hnodes]
  intro node hmem
  simp only [List.mem_cons, List.not_mem_nil, or_false] at hmem
  rcases hmem with rfl | rfl | rfl
  · use skipFree
  · use skip brackets
  · use skip brackets

/-- The strings of the grammar. -/
theorem exists_eq_stringLiteral (rule : Rule) :
  ∀ node ∈ (Python.rules rule).nodes (· == .stringLiteral), ∃ skip, node = stringLiteral skip
  := by
  cases rule with
  | statement | suite | assignment | casePattern | interpolation => apply List.forall_mem_nil
  | expression brackets | negation brackets | target brackets | targets brackets
  | expressions brackets | yielded brackets => cases brackets <;> apply List.forall_mem_nil
  | simpleStatements =>
      have hboth := And.intro (exists_eq_of_mem_strings false) (exists_eq_of_mem_strings false)
      exact List.forall_mem_append.mpr hboth
  | simplePattern => apply exists_eq_of_mem_strings true
  | operand brackets | primary brackets => cases brackets <;> apply exists_eq_of_mem_strings

/-- Each string of a text starts with a character that is not blank. -/
theorem each_isFullAt {tree : Tree} (h : Pattern.tree Python.rules file text = .ok tree) :
  tree.Each (· == .stringLiteral) fun string => isFullAt text.toList string.start
  := by
  refine Pattern.each_tree rfl (fun _ _ h => h) ?_ ?_ h
  · intro rule kind item hmem p q hreads
    obtain ⟨skip, heq⟩ := exists_eq_stringLiteral rule _ hmem
    obtain ⟨hstart, hbegins⟩ : item.StartsFull ∧ item.begins = true := by
      obtain ⟨-, rfl⟩ := Pattern.node.inj heq
      exact ⟨startsFull_stringLiteral skip, rfl⟩
    rcases hstart.of_reads hreads rfl with hbegun | ⟨-, hnot⟩
    · apply hbegun.isFullAt_wrap
    · cases hbegins.symm.trans hnot
  · intro kind item hmem
    cases hmem

end Python

end Scrutiny.Grammar
