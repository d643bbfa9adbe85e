import Mathlib.Tactic.Use
import Scrutiny.Chunk.Chunker

/-!
# Trees of a text

What makes a tree one of a text: the children of a node lie in it, one after the other, a definition
starts with a character that is not blank, and the body of a class or of a trait starts after the
class or the trait.
-/

namespace Scrutiny.Grammar

open Text

/-- Whether a span may be cut along a node of the kind. -/
def Kind.isDefinition : Kind → Bool
  | .functionDef | .method | .property | .classDef | .interfaceDef | .enumDef | .record | .traitDef
  | .decorated | .exported | .bindings => true
  | _ => false

/-- Whether a node of the kind is cut in front of its first member. -/
def Kind.isContainer (kind : Kind) : Bool :=
  kind == .classDef || kind == .traitDef

/-- Whether a character that is not blank stands at an offset. -/
def isFullAt (text : List Char) (offset : Nat) : Bool :=
  text[offset]?.map isBlank == some false

mutual

/-- Whether a node and all nodes in it are nodes of a text: they lie in each other, in order, a
definition starts with a character that is not blank, and the body of a class or of a trait starts
after it. -/
def Tree.isWellFormed (text : List Char) : Tree → Bool
  | ⟨kind, _, start, stop, children⟩ =>
    decide (start ≤ stop) && (!kind.isDefinition || decide (start < stop) && isFullAt text start)
      && (!kind.isContainer || (Definitions.partOf? children .body).all (start < ·.start))
      && areInOrder text start stop children

/-- Whether nodes of a text lie in the range from `start` to `stop`, one after the other. -/
def areInOrder (text : List Char) (start stop : Nat) : List Tree → Bool
  | [] => true
  | tree :: rest =>
    decide (start ≤ tree.start) && decide (tree.stop ≤ stop) && tree.isWellFormed text
      && areInOrder text tree.stop stop rest

end

/-- A node of one of two kinds is a definition if nodes of both kinds are. -/
theorem Kind.isDefinition_of_or {kind first second : Kind}
    (h : (kind == first || kind == second) = true) (hfirst : first.isDefinition)
    (hsecond : second.isDefinition) :
  kind.isDefinition
  := by
  rcases (Bool.or_eq_true _ _).mp h with h | h
  · rw [eq_of_beq h, hfirst]
  · rw [eq_of_beq h, hsecond]

/-- A class or a trait is a definition. -/
theorem Kind.isDefinition_of_isContainer {kind : Kind} (h : kind.isContainer) :
  kind.isDefinition
  := isDefinition_of_or h rfl rfl

variable {text : List Char} {tree : Tree} {trees : List Tree} {start stop : Nat}

/-- What a node of a text is. -/
structure Tree.IsNode (text : List Char) (tree : Tree) : Prop where
  /-- The node has a range. -/
  start_le_stop : tree.start ≤ tree.stop
  /-- A definition starts with a character that is not blank. -/
  isFullAt : tree.kind.isDefinition → tree.start < tree.stop ∧ isFullAt text tree.start
  /-- The body of a class or of a trait starts after it. -/
  start_lt_body : tree.kind.isContainer → ∀ body, Definitions.partOf? tree.children .body = some body →
    tree.start < body.start
  /-- The children lie in the node. -/
  areInOrder : areInOrder text tree.start tree.stop tree.children

theorem Tree.isWellFormed_iff :
  tree.isWellFormed text ↔ tree.IsNode text
  := by
  obtain ⟨kind, role, start, stop, children⟩ := tree
  rw [Tree.isWellFormed]
  simp only [Bool.and_eq_true, Bool.or_eq_true, Bool.not_eq_true', decide_eq_true_eq,
    Option.all_eq_true]
  constructor
  · rintro ⟨⟨⟨hle, hfull⟩, hbody⟩, horder⟩
    constructor
    · apply hle
    · intro hkind
      apply hfull.resolve_left
      rw [hkind]
      decide
    · intro hkind
      apply hbody.resolve_left
      rw [hkind]
      decide
    · apply horder
  · rintro ⟨hle, hfull, hbody, horder⟩
    refine ⟨⟨⟨hle, ?_⟩, ?_⟩, horder⟩
    · cases hkind : kind.isDefinition with
      | false => exact .inl rfl
      | true => exact .inr (hfull hkind)
    · cases hkind : kind.isContainer with
      | false => exact .inl rfl
      | true => exact .inr (hbody hkind)

theorem areInOrder_cons :
  areInOrder text start stop (tree :: trees)
    ↔ start ≤ tree.start ∧ tree.stop ≤ stop ∧ tree.IsNode text ∧ areInOrder text tree.stop stop trees
  := by
  rw [areInOrder]
  simp only [Bool.and_eq_true, decide_eq_true_eq, Tree.isWellFormed_iff, and_assoc]

/-- What lies in a range lies in any that starts before it. -/
theorem areInOrder_mono {first : Nat} (h : areInOrder text start stop trees) (hle : first ≤ start) :
  areInOrder text first stop trees
  := by
  cases trees with
  | nil => rfl
  | cons tree rest =>
      obtain ⟨hstart, hrest⟩ := areInOrder_cons.mp h
      apply areInOrder_cons.mpr
      use Nat.le_trans hle hstart

/-- Each of the nodes that lie in a range is a node of the text there. -/
theorem of_mem_of_areInOrder (h : areInOrder text start stop trees) (hmem : tree ∈ trees) :
  start ≤ tree.start ∧ tree.stop ≤ stop ∧ tree.IsNode text
  := by
  induction trees generalizing start with
  | nil => cases hmem
  | cons first rest ih =>
      obtain ⟨hstart, hstop, hnode, hrest⟩ := areInOrder_cons.mp h
      rcases List.mem_cons.mp hmem with rfl | hmem
      · use hstart, hstop
      · apply ih (areInOrder_mono hrest _) hmem
        apply Nat.le_trans hstart hnode.start_le_stop

/-! ### The nodes in a tree -/

/-- A node is in a tree. -/
inductive Tree.Holds : Tree → Tree → Prop
  /-- The tree is its own topmost node. -/
  | self (tree : Tree) : Holds tree tree
  /-- The nodes in a child are in the tree. -/
  | child {tree child inner : Tree} (hmem : child ∈ tree.children) (h : Holds child inner) :
    Holds tree inner

/-- The nodes in a tree of a text are nodes of the text. -/
theorem Tree.IsNode.of_holds {inner : Tree} (h : tree.IsNode text) (hholds : tree.Holds inner) :
  inner.IsNode text
  := by
  induction hholds with
  | self => apply h
  | child hmem _ ih => apply ih (of_mem_of_areInOrder h.areInOrder hmem).2.2

/-- What is in a node of a tree is in the tree. -/
theorem Tree.Holds.trans {inner last : Tree} (h : tree.Holds inner) (hlast : inner.Holds last) :
  tree.Holds last
  := by
  induction h with
  | self => apply hlast
  | child hmem _ ih => apply Tree.Holds.child hmem (ih hlast)

/-! ### The tree of a text -/

/-- The tree of a text is the one that its grammar reads. -/
theorem parse_of_syntaxTree {language : Language}
    (h : syntaxTree (LineIndex.ofText text) language = .ok tree) :
  parse language text.toArray = .ok tree
  := by
  unfold syntaxTree at h
  split at h
  · split at h
    · rename_i hparse
      cases h
      apply hparse
    · cases h
  · cases h

end Scrutiny.Grammar
