import Mathlib.Tactic.Use
import Scrutiny.Proofs.Grammar.Trees

/-!
# The spans of definitions

Each span that is cut from a tree is that of a definition in the tree: all of its range, or its header
up to its first member.  What holds of these two holds of all spans, with no need to follow the way
they were collected.
-/

namespace Scrutiny

namespace Definitions

open Grammar Text

variable {index : LineIndex} {start stop : Nat} {span : Span} {tree : Tree} {trees : List Tree}

/-- A span is that of a definition with the given range: all of it, or its header. -/
inductive IsCutAlong (index : LineIndex) (start stop : Nat) : Span → Prop
  /-- The span is the whole definition. -/
  | whole (name : String) (kind : ChunkKind) :
    IsCutAlong index start stop (wholeSpan index start stop name kind)
  /-- The span is what is in front of the first member. -/
  | header (memberStart : Nat) (name : String) :
    IsCutAlong index start stop (headerSpan index start memberStart name)

/-- A span is that of a definition in one of the trees. -/
def IsCutIn (index : LineIndex) (trees : List Tree) (span : Span) : Prop :=
  ∃ tree ∈ trees, ∃ inner, tree.Holds inner ∧ inner.kind.isDefinition
    ∧ IsCutAlong index inner.start inner.stop span

theorem IsCutIn.cons (h : IsCutIn index trees span) (tree : Tree) :
  IsCutIn index (tree :: trees) span
  := by
  obtain ⟨other, hmem, hcut⟩ := h
  use other, List.mem_cons_of_mem _ hmem

/-- What is cut in a child of a node is cut in the node. -/
theorem IsCutIn.child (h : IsCutIn index tree.children span) (hmem : tree ∈ trees) :
  IsCutIn index trees span
  := by
  obtain ⟨child, hchild, inner, hholds, hcut⟩ := h
  use tree, hmem, inner, .child hchild hholds

/-- What is cut along a definition is cut in it. -/
theorem isCutIn_of_isCutAlong (hkind : tree.kind.isDefinition)
    (h : IsCutAlong index tree.start tree.stop span) (hmem : tree ∈ trees) :
  IsCutIn index trees span
  := ⟨tree, hmem, tree, .self tree, hkind, h⟩

theorem isCutAlong_of_mem_memberSpan {scope : Option String}
    (h : span ∈ memberSpan index scope tree) :
  IsCutAlong index tree.start tree.stop span
  := by
  unfold memberSpan at h
  split at h
  · rw [List.mem_singleton.mp h]
    apply IsCutAlong.whole
  · cases h

theorem isCutAlong_containerSpan (name : String) (member? : Option Tree) :
  IsCutAlong index start stop (containerSpan index start stop name member?)
  := by
  cases member? with
  | none => apply IsCutAlong.whole
  | some member => apply IsCutAlong.header

theorem isCutIn_of_mem_methods {scope : String} (h : span ∈ methods index scope trees) :
  IsCutIn index trees span
  := by
  induction trees with
  | nil => cases h
  | cons tree rest ih =>
      obtain ⟨kind, role, first, last, inner⟩ := tree
      unfold methods at h
      split at h
      · obtain ⟨method, hmethod, h⟩ := List.mem_flatMap.mp h
        obtain ⟨hmem, hkind⟩ := List.mem_filter.mp hmethod
        have hcut : IsCutIn index inner span := by
          apply isCutIn_of_isCutAlong _ (isCutAlong_of_mem_memberSpan h) hmem
          rw [eq_of_beq hkind]
          rfl
        apply hcut.child List.mem_cons_self
      · apply (ih h).cons

mutual

/-- The spans of a node are cut along it if it is a definition, or along definitions in it. -/
theorem isCut_of_mem_spans {scope : Option String} {start stop : Nat} {span : Span} :
    (tree : Tree) → span ∈ spans index scope start stop tree →
    (tree.kind.isDefinition ∧ IsCutAlong index start stop span) ∨ IsCutIn index tree.children span
  | ⟨kind, role, first, last, children⟩, h => by
      have hwhole {name : String} {chunkKind : ChunkKind}
          (h : span ∈ [wholeSpan index start stop name chunkKind]) :
          IsCutAlong index start stop span := by
        rw [List.mem_singleton.mp h]
        apply IsCutAlong.whole
      unfold spans at h
      dsimp only at h
      split at h
      · exact .inl ⟨rfl, hwhole h⟩
      · exact .inl ⟨rfl, hwhole h⟩
      · exact .inl ⟨rfl, hwhole h⟩
      · exact .inl ⟨rfl, hwhole h⟩
      · rcases List.mem_cons.mp h with rfl | h
        · exact .inl ⟨rfl, isCutAlong_containerSpan _ _⟩
        · exact .inr (isCutIn_of_mem_classMembers children h)
      · rcases List.mem_cons.mp h with rfl | h
        · exact .inl ⟨rfl, isCutAlong_containerSpan _ _⟩
        · exact .inr (isCutIn_of_mem_methods h)
      · split at h
        · exact .inr (isCutIn_of_mem_methods h)
        · cases h
      · exact .inr (isCutIn_of_mem_bodySpans children h)
      · exact (isCut_of_mem_partSpans children h).imp_left fun h => ⟨rfl, h⟩
      · split at h
        · exact (isCut_of_mem_partSpans children h).imp_left fun h => ⟨rfl, h⟩
        · split at h
          · split at h
            · exact .inl ⟨rfl, hwhole h⟩
            · split at h
              · exact (isCut_of_mem_partSpans children h).imp_left fun h => ⟨rfl, h⟩
              · cases h
          · cases h
      · split at h
        · exact .inl ⟨rfl, hwhole h⟩
        · cases h
      · cases h

theorem isCut_of_mem_partSpans {scope : Option String} {role : Role} {start stop : Nat}
    {span : Span} :
    (trees : List Tree) → span ∈ partSpans index scope role start stop trees →
    IsCutAlong index start stop span ∨ IsCutIn index trees span
  | tree :: rest, h => by
      unfold partSpans at h
      split at h
      · rcases isCut_of_mem_spans tree h with ⟨-, hcut⟩ | hcut
        · exact .inl hcut
        · exact .inr (hcut.child List.mem_cons_self)
      · exact (isCut_of_mem_partSpans rest h).imp_right fun h => h.cons tree

theorem isCutIn_of_mem_bodySpans {scope : String} {span : Span} :
    (trees : List Tree) → span ∈ bodySpans index scope trees → IsCutIn index trees span
  | ⟨kind, role, first, last, inner⟩ :: rest, h => by
      unfold bodySpans at h
      split at h
      · apply (isCutIn_of_mem_siblingSpans inner h).child List.mem_cons_self
      · apply (isCutIn_of_mem_bodySpans rest h).cons

theorem isCutIn_of_mem_siblingSpans {scope : Option String} {span : Span} :
    (trees : List Tree) → span ∈ siblingSpans index scope trees → IsCutIn index trees span
  | tree :: rest, h => by
      unfold siblingSpans at h
      rcases List.mem_append.mp h with h | h
      · rcases isCut_of_mem_spans tree h with ⟨hkind, hcut⟩ | hcut
        · apply isCutIn_of_isCutAlong hkind hcut List.mem_cons_self
        · apply hcut.child List.mem_cons_self
      · apply (isCutIn_of_mem_siblingSpans rest h).cons

theorem isCutIn_of_mem_classMembers {scope : String} {span : Span} :
    (trees : List Tree) → span ∈ classMembers index scope trees → IsCutIn index trees span
  | ⟨kind, role, first, last, inner⟩ :: rest, h => by
      unfold classMembers at h
      split at h
      · apply (isCutIn_of_mem_memberSpans inner h).child List.mem_cons_self
      · apply (isCutIn_of_mem_classMembers rest h).cons

theorem isCutIn_of_mem_memberSpans {scope : String} {span : Span} :
    (trees : List Tree) → span ∈ memberSpans index scope trees → IsCutIn index trees span
  | tree :: rest, h => by
      unfold memberSpans at h
      rcases List.mem_append.mp h with h | h
      · split at h
        · rename_i hkind
          split at h
          · apply isCutIn_of_isCutAlong _ (isCutAlong_of_mem_memberSpan h) List.mem_cons_self
            apply Kind.isDefinition_of_or hkind rfl rfl
          · cases h
        · split at h
          · rcases isCut_of_mem_spans tree h with ⟨hkind, hcut⟩ | hcut
            · apply isCutIn_of_isCutAlong hkind hcut List.mem_cons_self
            · apply hcut.child List.mem_cons_self
          · cases h
      · apply (isCutIn_of_mem_memberSpans rest h).cons

end

/-- The spans of a file are cut along definitions in its tree. -/
theorem isCutAlong_of_mem_ofFile {file : Tree} (h : span ∈ ofFile index file) :
  ∃ inner, file.Holds inner ∧ inner.kind.isDefinition
    ∧ IsCutAlong index inner.start inner.stop span
  := by
  obtain ⟨child, hchild, inner, hholds, hcut⟩ := isCutIn_of_mem_siblingSpans file.children h
  use inner, .child hchild hholds

end Definitions

end Scrutiny
