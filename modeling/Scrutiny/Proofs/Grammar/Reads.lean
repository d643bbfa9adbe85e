import Mathlib.Tactic.Use
import Scrutiny.Grammar.Pattern
import Scrutiny.Proofs.Grammar.Trees

/-!
# What a pattern reads

Where reading a pattern can lead, as a relation without the depth that bounds it.  It forgets why
reading stopped or went back; what it keeps is which tokens were read and which nodes were made.

A node starts where the first token in it starts.  So a definition starts with a character that is
not blank if the first token that its pattern reads does, whichever of several tokens that is; and
which tokens may come first is told by the shape of the pattern.
-/

namespace Scrutiny.Grammar

variable {σ : Type} {rules : σ → Pattern σ} {text : Array Char} {p q : Progress}
  {pattern : Pattern σ}

/-! ### Reading as a relation -/

/-- Reading a pattern can lead from one place to another. -/
inductive Reads (rules : σ → Pattern σ) (text : Array Char) :
    Pattern σ → Progress → Progress → Prop
  /-- Nothing is read. -/
  | empty (p : Progress) : Reads rules text .empty p p
  /-- A token is read. -/
  | token {scan p found} (hfound : scan text p.cursor = .ok found) :
    Reads rules text (.token scan) p
      { p with cursor := found.after, begun := p.begun.or (some found.start), assignable := false }
  /-- What a rule stands for is read. -/
  | call {rule p q} (h : Reads rules text (rules rule) p q) : Reads rules text (.call rule) p q
  /-- Two patterns are read. -/
  | seq {first second p m q} (hfirst : Reads rules text first p m)
    (hsecond : Reads rules text second m q) : Reads rules text (.seq first second) p q
  /-- The first alternative is read. -/
  | either_first {first second p q} (h : Reads rules text first p q) :
    Reads rules text (.either first second) p q
  /-- The second alternative is read. -/
  | either_second {first second p q} (reach : Nat)
    (h : Reads rules text second { p with reach } q) :
    Reads rules text (.either first second) p q
  /-- Repetition ends. -/
  | many_end {item} (p : Progress) (reach : Nat) : Reads rules text (.many item) p { p with reach }
  /-- Repetition goes on. -/
  | many_next {item p m q} (hitem : Reads rules text item p m)
    (hrest : Reads rules text (.many item) m q) : Reads rules text (.many item) p q
  /-- A pattern that would match is not read. -/
  | ahead {item} (p : Progress) (reach : Nat) : Reads rules text (.ahead item) p { p with reach }
  /-- A pattern that would not match is not read. -/
  | absent {item} (p : Progress) : Reads rules text (.absent item) p p
  /-- A node is made. -/
  | node {kind item p q} (h : Reads rules text item p.enter q) :
    Reads rules text (.node kind item) p (p.leave q [q.wrap kind])
  /-- Nodes get a role. -/
  | part {role item p q} (h : Reads rules text item p.enter q) :
    Reads rules text (.part role item) p (p.leave q (q.made.map (·.withRole role)))
  /-- Nodes are read as a group. -/
  | group {item p q} (h : Reads rules text item p.enter q) :
    Reads rules text (.group item) p (p.leave q q.made)
  /-- No suffix is left. -/
  | suffixes_end {next} (p : Progress) (reach : Nat) :
    Reads rules text (.suffixes next) p { p with reach }
  /-- A suffix puts a node around what was read. -/
  | suffixes_next {next p m q} (hnext : Reads rules text next p m)
    (hrest : Reads rules text (.suffixes next) { m with made := [m.wrap .other] } q) :
    Reads rules text (.suffixes next) p q
  /-- It is noted whether something may be assigned to. -/
  | mark (p : Progress) (assignable : Bool) :
    Reads rules text (.mark assignable) p { p with assignable }
  /-- Something may be assigned to. -/
  | assignable (p : Progress) : Reads rules text .assignable p p

/-- What is read, at whatever depth, can be read. -/
theorem reads_of_read {fuel : Nat} {pattern : Pattern σ}
    (h : pattern.read rules text fuel p = .ok q) :
  Reads rules text pattern p q
  := by
  induction fuel generalizing pattern p q with
  | zero => cases h
  | succ fuel ih =>
      rw [Pattern.read.eq_def] at h
      dsimp only at h
      cases pattern with
      | empty =>
          cases h
          apply Reads.empty
      | token scan =>
          dsimp only at h
          split at h
          · cases h
          · rename_i hfound
            cases h
            apply Reads.token hfound
      | call rule => apply Reads.call (ih h)
      | seq first second =>
          dsimp only at h
          split at h
          · cases h
          · rename_i hfirst
            apply Reads.seq (ih hfirst) (ih h)
      | either first second =>
          dsimp only at h
          split at h
          · apply Reads.either_second _ (ih h)
          · rename_i hfirst
            cases h
            apply Reads.either_first (ih hfirst)
      | many item =>
          dsimp only at h
          split at h
          · cases h
            apply Reads.many_end
          · rename_i hitem
            split at h
            · apply Reads.many_next (ih hitem) (ih h)
            · cases h
              apply Reads.many_end p p.reach
      | ahead item =>
          dsimp only at h
          split at h
          · cases h
          · cases h
            apply Reads.ahead
      | absent item =>
          dsimp only at h
          split at h
          · cases h
            apply Reads.absent
          · cases h
      | node kind item =>
          dsimp only at h
          split at h
          · cases h
          · rename_i hitem
            cases h
            apply Reads.node (ih hitem)
      | part role item =>
          dsimp only at h
          split at h
          · cases h
          · rename_i hitem
            cases h
            apply Reads.part (ih hitem)
      | group item =>
          dsimp only at h
          split at h
          · cases h
          · rename_i hitem
            cases h
            apply Reads.group (ih hitem)
      | suffixes next =>
          dsimp only at h
          split at h
          · cases h
            apply Reads.suffixes_end
          · rename_i hnext
            apply Reads.suffixes_next (ih hnext) (ih h)
      | mark assignable =>
          cases h
          apply Reads.mark
      | assignable =>
          dsimp only at h
          split at h
          · cases h
            apply Reads.assignable
          · cases h

/-! ### The first token -/

/-- The first token of a node stays the first one. -/
theorem Reads.begun_eq (h : Reads rules text pattern p q) {start : Nat}
    (hbegun : p.begun = some start) :
  q.begun = some start
  := by
  induction h with
  | empty p => apply hbegun
  | token hfound =>
      dsimp only
      rw [hbegun]
      rfl
  | call _ ih => apply ih hbegun
  | seq _ _ ihfirst ihsecond => apply ihsecond (ihfirst hbegun)
  | either_first _ ih => apply ih hbegun
  | either_second reach _ ih => apply ih hbegun
  | many_end p reach => apply hbegun
  | many_next _ _ ihitem ihrest => apply ihrest (ihitem hbegun)
  | ahead p reach => apply hbegun
  | absent p => apply hbegun
  | node _ _ =>
      rw [Progress.leave, hbegun]
      rfl
  | part _ _ =>
      rw [Progress.leave, hbegun]
      rfl
  | group _ _ =>
      rw [Progress.leave, hbegun]
      rfl
  | suffixes_end p reach => apply hbegun
  | suffixes_next _ _ ihnext ihrest => apply ihrest (ihnext hbegun)
  | mark p assignable => apply hbegun
  | assignable p => apply hbegun

/-- A node has begun with a character that is not blank. -/
def Progress.HasBegun (text : Array Char) (p : Progress) : Prop :=
  ∃ start, p.begun = some start ∧ isFullAt text.toList start

theorem Progress.HasBegun.of_reads (h : p.HasBegun text)
    (hreads : Reads rules text pattern p q) :
  q.HasBegun text
  := by
  obtain ⟨start, hbegun, hfull⟩ := h
  use start, hreads.begun_eq hbegun

theorem Progress.HasBegun.of_reads_suffixes {made : List Tree} (h : p.HasBegun text)
    (hreads : Reads rules text pattern { p with made } q) :
  q.HasBegun text
  := by
  obtain ⟨start, hbegun, hfull⟩ := h
  use start, hreads.begun_eq hbegun

theorem Progress.HasBegun.isFullAt_wrap (h : p.HasBegun text) (kind : Kind) :
  isFullAt text.toList (p.wrap kind).start
  := by
  obtain ⟨start, hbegun, hfull⟩ := h
  rw [Progress.wrap, hbegun]
  apply hfull

/-- The tokens that a scanner finds start with characters that are not blank. -/
def Scanner.IsFull (scan : Scanner) : Prop :=
  ∀ ⦃text cursor found⦄, scan text cursor = .ok found → isFullAt text.toList found.start

namespace Pattern

/-- Whether a pattern reads a token wherever it is read. -/
def begins : Pattern σ → Bool
  | .token _ => true
  | .seq first second => first.begins || second.begins
  | .either first second => first.begins && second.begins
  | .node _ item | .part _ item | .group item => item.begins
  | _ => false

/-- The first token that a pattern reads starts with a character that is not blank: every token that
may come first does, up to one that must be read. -/
def StartsFull : Pattern σ → Prop
  | .token scan => scan.IsFull
  | .seq first second => first.StartsFull ∧ (first.begins = true ∨ second.StartsFull)
  | .either first second => first.StartsFull ∧ second.StartsFull
  | .many item | .suffixes item | .node _ item | .part _ item | .group item => item.StartsFull
  | .call _ => False
  | .empty | .ahead _ | .absent _ | .mark _ | .assignable => True

/-- What starts a node with a full token has begun, or has read no token. -/
theorem StartsFull.of_reads (h : pattern.StartsFull) (hreads : Reads rules text pattern p q)
    (hnone : p.begun = none) :
  q.HasBegun text ∨ (q.begun = none ∧ pattern.begins = false)
  := by
  induction hreads with
  | empty p => exact .inr ⟨hnone, rfl⟩
  | token hfound =>
      refine .inl ⟨_, ?_, h hfound⟩
      dsimp only
      rw [hnone]
      rfl
  | call _ _ => cases h
  | seq _ hsecond ihfirst ihsecond =>
      obtain ⟨hstart, hnext⟩ := h
      rcases ihfirst hstart hnone with hbegun | ⟨hstill, hbegins⟩
      · exact .inl (hbegun.of_reads hsecond)
      · have hnext := hnext.resolve_left (by rw [hbegins]; decide)
        rcases ihsecond hnext hstill with hbegun | ⟨hstill, hafter⟩
        · exact .inl hbegun
        · exact .inr ⟨hstill, by rw [begins, hbegins, hafter]; rfl⟩
  | either_first _ ih =>
      rcases ih h.1 hnone with hbegun | ⟨hstill, hbegins⟩
      · exact .inl hbegun
      · exact .inr ⟨hstill, by rw [begins, hbegins, Bool.false_and]⟩
  | either_second reach _ ih =>
      rcases ih h.2 hnone with hbegun | ⟨hstill, hbegins⟩
      · exact .inl hbegun
      · exact .inr ⟨hstill, by rw [begins, hbegins, Bool.and_false]⟩
  | many_end p reach => exact .inr ⟨hnone, rfl⟩
  | many_next _ hrest ihitem ihrest =>
      rcases ihitem h hnone with hbegun | ⟨hstill, -⟩
      · exact .inl (hbegun.of_reads hrest)
      · exact ihrest h hstill
  | ahead p reach => exact .inr ⟨hnone, rfl⟩
  | absent p => exact .inr ⟨hnone, rfl⟩
  | node _ ih | part _ ih | group _ ih =>
      -- The node around it starts where it does.
      rcases ih h rfl with ⟨start, hbegun, hfull⟩ | ⟨hstill, hbegins⟩
      · exact .inl ⟨start, by rw [Progress.leave, hnone, hbegun]; rfl, hfull⟩
      · exact .inr ⟨by rw [Progress.leave, hnone, hstill]; rfl, hbegins⟩
  | suffixes_end p reach => exact .inr ⟨hnone, rfl⟩
  | suffixes_next _ hrest ihnext ihrest =>
      rcases ihnext h hnone with hbegun | ⟨hstill, -⟩
      · exact .inl (hbegun.of_reads_suffixes hrest)
      · exact ihrest h hstill
  | mark p assignable => exact .inr ⟨hnone, rfl⟩
  | assignable p => exact .inr ⟨hnone, rfl⟩

/-! ### The nodes of a pattern -/

/-- The nodes of some kinds in a pattern. -/
def nodes (isOne : Kind → Bool) : Pattern σ → List (Pattern σ)
  | .node kind item =>
    if isOne kind then .node kind item :: item.nodes isOne else item.nodes isOne
  | .seq first second | .either first second => first.nodes isOne ++ second.nodes isOne
  | .many item | .suffixes item | .part _ item | .group item => item.nodes isOne
  | _ => []

theorem mem_nodes_node {isOne : Kind → Bool} {kind : Kind} {item node : Pattern σ} :
  node ∈ (Pattern.node kind item).nodes isOne
    ↔ (isOne kind ∧ node = .node kind item) ∨ node ∈ item.nodes isOne
  := by
  rw [nodes]
  split <;> simp_all

/-- What is made of the nodes of some kinds in a pattern, wherever they are read, has a property. -/
def Makes (rules : σ → Pattern σ) (text : Array Char) (isOne : Kind → Bool) (property : Tree → Prop)
    (pattern : Pattern σ) : Prop :=
  ∀ kind item, .node kind item ∈ pattern.nodes isOne →
    ∀ ⦃p q : Progress⦄, Reads rules text item p.enter q → property (q.wrap kind)

/-- Fewer nodes make nothing else. -/
theorem Makes.of_subset {isOne : Kind → Bool} {property : Tree → Prop} {other : Pattern σ}
    (h : pattern.Makes rules text isOne property) (hsub : other.nodes isOne ⊆ pattern.nodes isOne) :
  other.Makes rules text isOne property
  := fun _ _ hmem => h _ _ (hsub hmem)

/-! ### The definitions of a pattern -/

/-- The patterns of the definitions in a pattern. -/
def definitions : Pattern σ → List (Pattern σ)
  | .node kind item =>
    if kind.isDefinition then .node kind item :: item.definitions else item.definitions
  | .seq first second | .either first second => first.definitions ++ second.definitions
  | .many item | .suffixes item | .part _ item | .group item => item.definitions
  | _ => []

/-- Each definition in a pattern starts with a full token. -/
def IsFull (pattern : Pattern σ) : Prop :=
  ∀ definition ∈ pattern.definitions, definition.StartsFull

theorem isFull_of_definitions_eq_nil (h : pattern.definitions = []) :
  pattern.IsFull
  := by
  rw [IsFull, h]
  apply List.forall_mem_nil

theorem isFull_seq {first second : Pattern σ} :
  (seq first second).IsFull ↔ first.IsFull ∧ second.IsFull
  := List.forall_mem_append

/-- What no definition is in may stand in front. -/
theorem isFull_seq_right {first second : Pattern σ} (hfirst : first.definitions = [])
    (h : second.IsFull) :
  (seq first second).IsFull
  := isFull_seq.mpr ⟨isFull_of_definitions_eq_nil hfirst, h⟩

theorem isFull_either {first second : Pattern σ} :
  (either first second).IsFull ↔ first.IsFull ∧ second.IsFull
  := List.forall_mem_append

theorem isFull_node {kind : Kind} {item : Pattern σ} :
  (node kind item).IsFull ↔ (kind.isDefinition → item.StartsFull) ∧ item.IsFull
  := by
  rw [IsFull, definitions]
  cases kind.isDefinition with
  | false => simp [IsFull]
  | true => simp [IsFull, StartsFull]

theorem isFull_node_of_not {kind : Kind} {item : Pattern σ} (hkind : kind.isDefinition = false)
    (h : item.IsFull) :
  (node kind item).IsFull
  := by
  apply isFull_node.mpr
  rw [hkind]
  use nofun

end Pattern

/-- Each definition in a tree that is not empty starts with a character that is not blank. -/
def Tree.IsFull (text : List Char) (tree : Tree) : Prop :=
  ∀ inner, tree.Holds inner → inner.kind.isDefinition → inner.start < inner.stop →
    isFullAt text inner.start

/-- Each node of some kinds in a tree has a property. -/
def Tree.Each (isOne : Kind → Bool) (property : Tree → Prop) (tree : Tree) : Prop :=
  ∀ inner, tree.Holds inner → isOne inner.kind → property inner

section Nodes

variable {isOne : Kind → Bool} {property : Tree → Prop} {tree : Tree}

/-- Each node has a property if the topmost one has it and those in the children. -/
theorem Tree.each_iff :
  tree.Each isOne property
    ↔ (isOne tree.kind → property tree) ∧ ∀ child ∈ tree.children, child.Each isOne property
  := by
  constructor
  · intro h
    use h tree (.self tree)
    intro child hmem inner hinner
    apply h inner (.child hmem hinner)
  · rintro ⟨hself, hchildren⟩ inner hinner
    cases hinner with
    | self => apply hself
    | child hmem hinner => apply hchildren _ hmem inner hinner

/-- If what is made of the nodes in a grammar has a property, so do the nodes that are read. -/
theorem each_of_reads (hother : isOne .other = false)
    (hrole : ∀ tree role, property tree → property (tree.withRole role))
    (hrules : ∀ rule, (rules rule).Makes rules text isOne property)
    (h : Reads rules text pattern p q) (hpattern : pattern.Makes rules text isOne property)
    (hmade : ∀ tree ∈ p.made, tree.Each isOne property) :
  ∀ tree ∈ q.made, tree.Each isOne property
  := by
  induction h with
  | empty | token | many_end | ahead | absent | suffixes_end | mark | assignable => apply hmade
  | call _ ih => apply ih (hrules _) hmade
  | seq _ _ ihfirst ihsecond =>
      apply ihsecond (hpattern.of_subset (List.subset_append_right _ _))
      apply ihfirst (hpattern.of_subset (List.subset_append_left _ _)) hmade
  | either_first _ ih =>
      apply ih (hpattern.of_subset (List.subset_append_left _ _)) hmade
  | either_second reach _ ih =>
      apply ih (hpattern.of_subset (List.subset_append_right _ _)) hmade
  | many_next _ _ ihitem ihrest => apply ihrest hpattern (ihitem hpattern hmade)
  | node hitem ih =>
      apply List.forall_mem_append.mpr ⟨_, hmade⟩
      intro tree htree
      rw [List.mem_singleton.mp htree]
      refine Tree.each_iff.mpr ⟨?_, ?_⟩
      · intro hkind
        apply hpattern _ _ (Pattern.mem_nodes_node.mpr (.inl ⟨hkind, rfl⟩)) hitem
      · intro child hchild
        have hinner := hpattern.of_subset fun _ hmem => Pattern.mem_nodes_node.mpr (.inr hmem)
        apply ih hinner (by simp [Progress.enter]) child (List.mem_reverse.mp hchild)
  | part _ ih =>
      apply List.forall_mem_append.mpr ⟨_, hmade⟩
      intro tree htree
      obtain ⟨inner, hinner, rfl⟩ := List.mem_map.mp htree
      obtain ⟨hself, hchildren⟩ :=
        Tree.each_iff.mp (ih hpattern (by simp [Progress.enter]) inner hinner)
      exact Tree.each_iff.mpr ⟨fun hkind => hrole inner _ (hself hkind), hchildren⟩
  | group _ ih =>
      apply List.forall_mem_append.mpr ⟨ih hpattern (by simp [Progress.enter]), hmade⟩
  | suffixes_next _ _ ihnext ihrest =>
      apply ihrest hpattern
      intro tree htree
      rw [List.mem_singleton.mp htree]
      refine Tree.each_iff.mpr ⟨?_, ?_⟩
      · intro hkind
        cases hother.symm.trans hkind
      · intro child hchild
        apply ihnext hpattern hmade child (List.mem_reverse.mp hchild)

/-- The tree of a text is all that was made when the text was read. -/
theorem Pattern.exists_reads_of_tree {file : Pattern σ}
    (h : Pattern.tree rules file text = .ok tree) :
  ∃ p, Reads rules text file
      { cursor := { offset := 0, indents := [0] }, begun := none, made := [], assignable := false,
        reach := 0 } p
    ∧ p.made = [tree]
  := by
  unfold Pattern.tree at h
  dsimp only at h
  split at h
  · cases h
  · rename_i p hread
    split at h
    · rename_i hp
      cases h
      use p, reads_of_read hread, hp
    · cases h

/-- If what is made of the nodes in a grammar has a property, so do the nodes in the tree of a
text. -/
theorem Pattern.each_tree {file : Pattern σ} (hother : isOne .other = false)
    (hrole : ∀ tree role, property tree → property (tree.withRole role))
    (hrules : ∀ rule, (rules rule).Makes rules text isOne property)
    (hfile : file.Makes rules text isOne property) (h : Pattern.tree rules file text = .ok tree) :
  tree.Each isOne property
  := by
  obtain ⟨p, hreads, hp⟩ := Pattern.exists_reads_of_tree h
  apply each_of_reads hother hrole hrules hreads hfile (by simp)
  rw [hp]
  apply List.mem_cons_self

end Nodes

/-- The definitions of a pattern are nodes of it. -/
theorem Pattern.nodes_isDefinition (pattern : Pattern σ) :
  pattern.nodes Kind.isDefinition = pattern.definitions
  := by
  induction pattern with
  | node kind item ih => rw [nodes, definitions, ih]
  | seq first second ihfirst ihsecond | either first second ihfirst ihsecond =>
      rw [nodes, definitions, ihfirst, ihsecond]
  | many item ih | suffixes item ih | part role item ih | group item ih =>
      rw [nodes, definitions, ih]
  | _ => rfl

/-- A definition that starts with a full token is made full, unless nothing is read. -/
theorem Pattern.IsFull.makes (h : pattern.IsFull) :
  pattern.Makes rules text Kind.isDefinition
    fun tree => tree.start < tree.stop → isFullAt text.toList tree.start
  := by
  intro kind item hmem p q hreads hlt
  rw [nodes_isDefinition] at hmem
  have hstart : item.StartsFull := h (.node kind item) hmem
  rcases hstart.of_reads hreads rfl with hbegun | ⟨hnone, -⟩
  · apply hbegun.isFullAt_wrap
  · rw [Progress.wrap, hnone] at hlt
    cases Nat.lt_irrefl _ hlt

/-- If each definition of a grammar starts with a full token, so does each one in the tree of a
text. -/
theorem Pattern.isFull_tree {file : Pattern σ} {tree : Tree} (hrules : ∀ rule, (rules rule).IsFull)
    (hfile : file.IsFull) (h : Pattern.tree rules file text = .ok tree) :
  tree.IsFull text.toList
  := Pattern.each_tree rfl (fun _ _ h => h) (fun rule => (hrules rule).makes) hfile.makes h

end Scrutiny.Grammar
