import Mathlib.Tactic.Use
import Scrutiny.Chunk.Chunker
import Scrutiny.Proofs.Chunk.Coverage
import Scrutiny.Proofs.Chunk.Spans
import Scrutiny.Proofs.Grammar.Trees

/-!
# The definitions of a syntax tree

The spans of the definitions in a tree lie one after the other, so that none of them is left out
when chunks are made.  The tree has to be one of the text: the children of a node lie in it, one
after the other, a definition starts with a character that is not blank, and the body of a class
or of a trait starts after the class or the trait.  Then the spans of a node lie in its range, and
a class is cut in front of its first member, with something in front of the cut.
-/

namespace Scrutiny

open Text

namespace Definitions

open Grammar

variable {text : List Char} {trees : List Tree} {start stop first middle : Nat}
  {scope : Option String}

/-! ### Spans in a range -/

/-- Spans that are not empty lie in the range from `start` to `stop`, one after the other. -/
structure LieWithin (start stop : Nat) (spans : List Span) : Prop where
  /-- Each span lies in the range. -/
  within : ∀ span ∈ spans, start ≤ span.start ∧ span.start < span.stop ∧ span.stop ≤ stop
  /-- Each span ends before the next one starts. -/
  apart : spans.Pairwise fun a b => a.stop ≤ b.start

theorem lieWithin_nil (start stop : Nat) :
  LieWithin start stop []
  := by
  constructor <;> simp

theorem lieWithin_singleton {span : Span} (hstart : start ≤ span.start)
    (hlt : span.start < span.stop) (hstop : span.stop ≤ stop) :
  LieWithin start stop [span]
  := by
  constructor
  · intro other hother
    rw [List.mem_singleton.mp hother]
    use hstart, hlt
  · apply List.pairwise_singleton

theorem lieWithin_wholeSpan {index : LineIndex} (hlt : start < stop) (name : String)
    (kind : ChunkKind) :
  LieWithin start stop [wholeSpan index start stop name kind]
  := lieWithin_singleton (Nat.le_refl start) hlt (Nat.le_refl stop)

theorem LieWithin.append {spans others : List Span} (h : LieWithin start middle spans)
    (hothers : LieWithin middle stop others) (hstart : start ≤ middle) (hstop : middle ≤ stop) :
  LieWithin start stop (spans ++ others)
  := by
  constructor
  · intro span hspan
    rcases List.mem_append.mp hspan with hspan | hspan
    · have := h.within span hspan
      omega
    · have := hothers.within span hspan
      omega
  · apply List.pairwise_append.mpr
    use h.apart, hothers.apart
    intro a ha b hb
    have := h.within a ha
    have := hothers.within b hb
    omega

theorem LieWithin.mono {first last : Nat} {spans : List Span} (h : LieWithin start stop spans)
    (hfirst : first ≤ start) (hlast : stop ≤ last) :
  LieWithin first last spans
  := by
  constructor
  · intro span hspan
    have := h.within span hspan
    omega
  · apply h.apart

/-! ### The header of a class -/

/-- A text that starts with a character that is not blank is not empty when it is trimmed. -/
theorem trimEnd_cons_ne_nil {c : Char} (hc : isBlank c = false) (rest : List Char) :
  trimEnd (c :: rest) ≠ []
  := by
  intro hnil
  rw [trimEnd, List.reverse_eq_nil_iff, List.dropWhile_eq_nil_iff] at hnil
  have hblank := hnil c (List.mem_reverse.mpr List.mem_cons_self)
  rw [hc] at hblank
  cases hblank

/-- The header of a class is not empty and ends before its first member. -/
theorem headerSpan_stop {memberStart : Nat} (hfull : isFullAt text start)
    (hlt : start < memberStart) (name : String) :
  start < (headerSpan (LineIndex.ofText text) start memberStart name).stop
    ∧ (headerSpan (LineIndex.ofText text) start memberStart name).stop ≤ memberStart
  := by
  obtain ⟨c, hget, hc⟩ := Option.map_eq_some_iff.mp (eq_of_beq hfull)
  unfold headerSpan
  dsimp only
  -- The cut is behind the start of the class and not behind the member.
  have hcut : ∃ cut, start < cut ∧ cut ≤ memberStart
      ∧ (if start < (LineIndex.ofText text).lineStart ((LineIndex.ofText text).lineOf memberStart)
        then (LineIndex.ofText text).lineStart ((LineIndex.ofText text).lineOf memberStart)
        else memberStart) = cut := by
    split
    · rename_i hline
      refine ⟨_, hline, ?_, rfl⟩
      apply (LineIndex.lineStart_le_iff (LineIndex.lineOf_lt_lineCount text memberStart)).mpr
      apply Nat.le_refl
    · use memberStart, hlt, Nat.le_refl memberStart
  obtain ⟨cut, hstart, hmember, heq⟩ := hcut
  rw [heq, LineIndex.slice_ofText]
  have hslice : ∃ rest, (text.take cut).drop start = c :: rest := by
    have htake : (text.take cut)[start]? = some c := by
      rw [List.getElem?_take_of_lt hstart, hget]
    obtain ⟨hbound, hget⟩ := List.getElem?_eq_some_iff.mp htake
    use (text.take cut).drop (start + 1)
    rw [List.drop_eq_getElem_cons hbound, hget]
  obtain ⟨rest, hrest⟩ := hslice
  have hfront := (Assembly.trimEnd_isPrefixOf ((text.take cut).drop start)).length_le
  rw [List.length_drop, List.length_take] at hfront
  have hne : 0 < (trimEnd ((text.take cut).drop start)).length := by
    rw [hrest]
    apply List.length_pos_of_ne_nil
    apply trimEnd_cons_ne_nil hc
  omega

/-! ### Members -/

/-- The nodes in the body of a definition. -/
def membersOf (children : List Tree) : List Tree :=
  ((partOf? children .body).map (·.children)).getD []

theorem membersOf_cons (tree : Tree) (rest : List Tree) :
  membersOf (tree :: rest) = if tree.role == some .body then tree.children else membersOf rest
  := by
  rw [membersOf, partOf?, List.find?_cons]
  cases tree.role == some .body <;> rfl

theorem methods_eq (index : LineIndex) (name : String) (children : List Tree) :
  methods index name children
    = ((membersOf children).filter (·.kind == .functionDef)).flatMap (memberSpan index (some name))
  := by
  induction children with
  | nil => rfl
  | cons tree rest ih =>
      obtain ⟨kind, role, first, last, inner⟩ := tree
      rw [methods, membersOf_cons, ih]
      cases role == some .body <;> rfl

/-- The members of a definition lie in the definition, one after the other. -/
theorem areInOrder_membersOf {children : List Tree} (h : areInOrder text start stop children) :
  ∃ first last, start ≤ first ∧ last ≤ stop ∧ areInOrder text first last (membersOf children)
  := by
  rw [membersOf]
  cases hbody : partOf? children .body with
  | none => exact ⟨start, stop, Nat.le_refl start, Nat.le_refl stop, rfl⟩
  | some body =>
      obtain ⟨hstart, hstop, hnode⟩ := of_mem_of_areInOrder h (List.mem_of_find?_eq_some hbody)
      use body.start, body.stop, hstart, hstop
      apply hnode.areInOrder

/-- The first member of a class or of a trait. -/
def firstMember? (container : Tree) : Option Tree :=
  if container.kind == .classDef then (membersOf container.children).find? isMember
  else (membersOf container.children).find? (·.kind == .functionDef)

theorem lieWithin_memberSpan {index : LineIndex} (tree : Tree) (hlt : tree.start < tree.stop) :
  LieWithin tree.start tree.stop (memberSpan index scope tree)
  := by
  unfold memberSpan
  split
  · apply lieWithin_wholeSpan hlt
  · apply lieWithin_nil

/-- The spans of nodes with a property lie one after the other, after the start of the first one. -/
theorem lieWithin_flatMap_memberSpan {index : LineIndex} {p : Tree → Bool}
    (hp : ∀ tree, p tree → tree.kind.isDefinition) (h : areInOrder text start stop trees)
    (hfirst : ∀ tree, trees.find? p = some tree → first ≤ tree.start) :
  LieWithin first stop ((trees.filter p).flatMap (memberSpan index scope))
  := by
  induction trees generalizing start first with
  | nil => apply lieWithin_nil
  | cons tree rest ih =>
      obtain ⟨hstart, hstop, hnode, hrest⟩ := areInOrder_cons.mp h
      cases hmember : p tree with
      | false =>
          rw [List.filter_cons_of_neg (by simp [hmember])]
          rw [List.find?_cons_of_neg (by simp [hmember])] at hfirst
          apply ih hrest hfirst
      | true =>
          rw [List.filter_cons_of_pos hmember, List.flatMap_cons]
          have hfirst := hfirst tree (List.find?_cons_of_pos hmember)
          have hspan : LieWithin tree.start tree.stop (memberSpan index scope tree) :=
            lieWithin_memberSpan tree (hnode.isFullAt (hp tree hmember)).1
          have hothers : ∀ other, rest.find? p = some other → tree.stop ≤ other.start :=
            fun other hother => (of_mem_of_areInOrder hrest (List.mem_of_find?_eq_some hother)).1
          apply (hspan.mono hfirst (Nat.le_refl _)).append (ih hrest hothers) _ hstop
          apply Nat.le_trans hfirst hnode.start_le_stop

/-- The methods of a trait or of an implementation block lie one after the other, after the start of
the first one. -/
theorem lieWithin_methods {index : LineIndex} {name : String} {children : List Tree}
    (h : areInOrder text start stop children)
    (hfirst : ∀ tree, (membersOf children).find? (·.kind == .functionDef) = some tree →
      first ≤ tree.start) :
  LieWithin first stop (methods index name children)
  := by
  obtain ⟨begin, last, -, hlast, horder⟩ := areInOrder_membersOf h
  rw [methods_eq]
  have hdefinition (tree : Tree) (hkind : (tree.kind == .functionDef) = true) :
      tree.kind.isDefinition := by
    rw [eq_of_beq hkind]
    rfl
  apply (lieWithin_flatMap_memberSpan hdefinition horder hfirst).mono (Nat.le_refl _) hlast

/-- A class with its members lies in its range if the members lie one after the other, after the start
of the first of them. -/
theorem lieWithin_container {member? : Option Tree} {members : List Span}
    (hmember : ∀ member, member? = some member → start < member.start ∧ member.start ≤ stop)
    (hmembers : ∀ first, (∀ member, member? = some member → first ≤ member.start) →
      LieWithin first stop members)
    (hlt : start < stop) (hfull : isFullAt text start) (name : String) :
  LieWithin start stop (containerSpan (LineIndex.ofText text) start stop name member? :: members)
  := by
  cases member? with
  | none =>
      have hwhole : LieWithin start stop [wholeSpan (LineIndex.ofText text) start stop name .type] :=
        lieWithin_wholeSpan hlt name .type
      apply hwhole.append (hmembers stop (by simp)) (Nat.le_of_lt hlt) (Nat.le_refl stop)
  | some member =>
      obtain ⟨hafter, hbefore⟩ := hmember member rfl
      obtain ⟨hpos, hle⟩ := headerSpan_stop hfull hafter name
      have hheader := lieWithin_singleton (Nat.le_refl start) hpos hle
      have hrest := hmembers member.start fun other hother => by
        rw [Option.some.inj hother]
      apply hheader.append hrest (Nat.le_of_lt hafter) hbefore

/-! ### Spans of nodes -/

/-- A range of a text has a node in it, and starts with a character that is not blank if the node is
a definition. -/
structure IsAround (text : List Char) (start stop : Nat) (tree : Tree) : Prop where
  /-- The node is one of the text. -/
  isNode : tree.IsNode text
  /-- The node starts in the range. -/
  start_le : start ≤ tree.start
  /-- The node ends in the range. -/
  le_stop : tree.stop ≤ stop
  /-- The range of a definition starts with a character that is not blank. -/
  isFullAt : tree.kind.isDefinition → start < stop ∧ isFullAt text start

/-- The first member of a class starts after the class. -/
theorem IsAround.start_lt_member {tree member : Tree} {p : Tree → Bool}
    (h : IsAround text start stop tree) (hkind : tree.kind.isContainer)
    (hmember : (membersOf tree.children).find? p = some member) :
  start < member.start ∧ member.start ≤ stop
  := by
  have hmem := List.mem_of_find?_eq_some hmember
  rw [membersOf] at hmem
  cases hbody : partOf? tree.children .body with
  | none =>
      rw [hbody] at hmem
      cases hmem
  | some body =>
      rw [hbody] at hmem
      obtain ⟨-, hlast, hnode⟩ :=
        of_mem_of_areInOrder h.isNode.areInOrder (List.mem_of_find?_eq_some hbody)
      have hafter := h.isNode.start_lt_body hkind body hbody
      obtain ⟨hfirst, hend, hinner⟩ := of_mem_of_areInOrder hnode.areInOrder hmem
      have := h.start_le
      have := h.le_stop
      have := hinner.start_le_stop
      omega

mutual

theorem lieWithin_spans (scope : Option String) (start stop : Nat) :
    (tree : Tree) → IsAround text start stop tree →
    LieWithin start stop (spans (LineIndex.ofText text) scope start stop tree)
  | ⟨kind, role, first, last, children⟩, h => by
      have horder := h.isNode.areInOrder
      have hstart := h.start_le
      have hstop := h.le_stop
      dsimp only at horder hstart hstop
      unfold spans
      dsimp only
      split
      · apply lieWithin_wholeSpan (h.isFullAt rfl).1
      · apply lieWithin_wholeSpan (h.isFullAt rfl).1
      · apply lieWithin_wholeSpan (h.isFullAt rfl).1
      · apply lieWithin_wholeSpan (h.isFullAt rfl).1
      · apply lieWithin_container (fun member => h.start_lt_member rfl) _ (h.isFullAt rfl).1
          (h.isFullAt rfl).2
        intro first hfirst
        apply (lieWithin_classMembers _ children horder hfirst).mono (Nat.le_refl _) hstop
      · apply lieWithin_container (fun member => h.start_lt_member rfl) _ (h.isFullAt rfl).1
          (h.isFullAt rfl).2
        intro first hfirst
        apply (lieWithin_methods horder hfirst).mono (Nat.le_refl _) hstop
      · split
        · apply (lieWithin_methods horder _).mono hstart hstop
          intro tree htree
          obtain ⟨begin, last, hbegin, -, hmembers⟩ := areInOrder_membersOf horder
          apply Nat.le_trans hbegin
          apply (of_mem_of_areInOrder hmembers (List.mem_of_find?_eq_some htree)).1
        · apply lieWithin_nil
      · apply (lieWithin_bodySpans _ children horder).mono hstart hstop
      · apply lieWithin_partSpans _ _ children horder hstart hstop (h.isFullAt rfl)
      · split
        · apply lieWithin_partSpans _ _ children horder hstart hstop (h.isFullAt rfl)
        · split
          · split
            · apply lieWithin_wholeSpan (h.isFullAt rfl).1
            · split
              · apply lieWithin_partSpans _ _ children horder hstart hstop (h.isFullAt rfl)
              · apply lieWithin_nil
          · apply lieWithin_nil
      · split
        · apply lieWithin_wholeSpan (h.isFullAt rfl).1
        · apply lieWithin_nil
      · apply lieWithin_nil

theorem lieWithin_partSpans (scope : Option String) (role : Role) {start stop first last : Nat} :
    (trees : List Tree) → areInOrder text first last trees → start ≤ first → last ≤ stop →
    start < stop ∧ isFullAt text start →
    LieWithin start stop (partSpans (LineIndex.ofText text) scope role start stop trees)
  | [], _, _, _, _ => lieWithin_nil _ _
  | tree :: rest, h, hfirst, hlast, hfull => by
      obtain ⟨hstart, hend, hnode, hrest⟩ := areInOrder_cons.mp h
      unfold partSpans
      split
      · apply lieWithin_spans
        constructor
        · apply hnode
        · omega
        · omega
        · intro
          apply hfull
      · apply lieWithin_partSpans _ _ rest hrest _ hlast hfull
        have := hnode.start_le_stop
        omega

theorem lieWithin_bodySpans (scope : String) {start stop : Nat} :
    (trees : List Tree) → areInOrder text start stop trees →
    LieWithin start stop (bodySpans (LineIndex.ofText text) scope trees)
  | [], _ => lieWithin_nil _ _
  | ⟨kind, role, first, last, inner⟩ :: rest, h => by
      obtain ⟨hstart, hend, hnode, hrest⟩ := areInOrder_cons.mp h
      have hlt := hnode.start_le_stop
      dsimp only at hstart hend hlt
      unfold bodySpans
      split
      · apply (lieWithin_siblingSpans _ inner hnode.areInOrder).mono hstart hend
      · apply (lieWithin_bodySpans _ rest hrest).mono _ (Nat.le_refl _)
        dsimp only
        omega

theorem lieWithin_siblingSpans (scope : Option String) {start stop : Nat} :
    (trees : List Tree) → areInOrder text start stop trees →
    LieWithin start stop (siblingSpans (LineIndex.ofText text) scope trees)
  | [], _ => lieWithin_nil _ _
  | tree :: rest, h => by
      obtain ⟨hstart, hend, hnode, hrest⟩ := areInOrder_cons.mp h
      have hlt := hnode.start_le_stop
      have haround : IsAround text tree.start tree.stop tree :=
        ⟨hnode, Nat.le_refl _, Nat.le_refl _, hnode.isFullAt⟩
      unfold siblingSpans
      apply LieWithin.append _ (lieWithin_siblingSpans _ rest hrest)
        (Nat.le_trans hstart hlt) hend
      apply (lieWithin_spans _ _ _ tree haround).mono hstart (Nat.le_refl _)

theorem lieWithin_classMembers (scope : String) {start stop first : Nat} :
    (trees : List Tree) → areInOrder text start stop trees →
    (∀ member, (membersOf trees).find? isMember = some member → first ≤ member.start) →
    LieWithin first stop (classMembers (LineIndex.ofText text) scope trees)
  | [], _, _ => lieWithin_nil _ _
  | ⟨kind, role, _, _, inner⟩ :: rest, h, hfirst => by
      obtain ⟨hstart, hend, hnode, hrest⟩ := areInOrder_cons.mp h
      have hlt := hnode.start_le_stop
      dsimp only at hstart hend hlt
      rw [membersOf_cons] at hfirst
      unfold classMembers
      split
      · rename_i hrole
        rw [if_pos hrole] at hfirst
        apply (lieWithin_memberSpans _ inner hnode.areInOrder hfirst).mono (Nat.le_refl _) hend
      · rename_i hrole
        rw [if_neg hrole] at hfirst
        apply lieWithin_classMembers _ rest hrest hfirst

theorem lieWithin_memberSpans (scope : String) {start stop first : Nat} :
    (trees : List Tree) → areInOrder text start stop trees →
    (∀ member, trees.find? isMember = some member → first ≤ member.start) →
    LieWithin first stop (memberSpans (LineIndex.ofText text) scope trees)
  | [], _, _ => lieWithin_nil _ _
  | tree :: rest, h, hfirst => by
      obtain ⟨hstart, hend, hnode, hrest⟩ := areInOrder_cons.mp h
      have hlt := hnode.start_le_stop
      have haround : IsAround text tree.start tree.stop tree :=
        ⟨hnode, Nat.le_refl _, Nat.le_refl _, hnode.isFullAt⟩
      unfold memberSpans
      cases hmember : isMember tree with
      | false =>
          rw [List.find?_cons_of_neg (by simp [hmember])] at hfirst
          simp only [Bool.false_eq_true, if_false, ite_self, List.nil_append]
          apply lieWithin_memberSpans _ rest hrest hfirst
      | true =>
          have hfirst := hfirst tree (List.find?_cons_of_pos hmember)
          have hothers : ∀ other, rest.find? isMember = some other → tree.stop ≤ other.start :=
            fun other hother => (of_mem_of_areInOrder hrest (List.mem_of_find?_eq_some hother)).1
          apply LieWithin.append _ (lieWithin_memberSpans _ rest hrest hothers)
            (Nat.le_trans hfirst hlt) hend
          apply LieWithin.mono _ hfirst (Nat.le_refl _)
          split
          · rename_i hkind
            apply lieWithin_memberSpan
            apply (hnode.isFullAt _).1
            apply Kind.isDefinition_of_or hkind rfl rfl
          · apply lieWithin_spans _ _ _ tree haround

end

/-! ### All definitions of a file -/

/-- A class or a trait is cut in front of its first member, and the spans of its members come after
the cut. -/
theorem spans_of_isContainer {container : Tree} (h : IsAround text start stop container)
    (hkind : container.kind.isContainer) :
  ∃ header members, spans (LineIndex.ofText text) scope start stop container = header :: members
    ∧ header.start = start
    ∧ ∀ member, firstMember? container = some member →
      header.stop ≤ member.start ∧ ∀ span ∈ members, member.start ≤ span.start
  := by
  have hheader (name : String) (member? : Option Tree) :
      (containerSpan (LineIndex.ofText text) start stop name member?).start = start := by
    cases member? <;> rfl
  have hcut (name : String) {p : Tree → Bool} {member : Tree}
      (hmember : (membersOf container.children).find? p = some member) :
      (headerSpan (LineIndex.ofText text) start member.start name).stop ≤ member.start := by
    have hfull := (h.isFullAt (Kind.isDefinition_of_isContainer hkind)).2
    apply (headerSpan_stop hfull (h.start_lt_member hkind hmember).1 name).2
  have horder := h.isNode.areInOrder
  obtain ⟨kind, role, first, last, children⟩ := container
  rcases (Bool.or_eq_true _ _).mp hkind with hkind | hkind
  · obtain rfl := eq_of_beq hkind
    unfold spans
    refine ⟨_, _, rfl, hheader _ _, ?_⟩
    intro member hmember
    have hfind : (membersOf children).find? isMember = some member := hmember
    rw [← membersOf, hfind]
    use hcut _ hfind
    intro span hspan
    apply ((lieWithin_classMembers _ children horder _).within span hspan).1
    intro other hother
    rw [Option.some.inj (hfind.symm.trans hother)]
  · obtain rfl := eq_of_beq hkind
    unfold spans
    refine ⟨_, _, rfl, hheader _ _, ?_⟩
    intro member hmember
    have hfind : (membersOf children).find? (·.kind == .functionDef) = some member := hmember
    rw [← membersOf, hfind]
    use hcut _ hfind
    intro span hspan
    apply ((lieWithin_methods horder _).within span hspan).1
    intro other hother
    rw [Option.some.inj (hfind.symm.trans hother)]

/-- The spans of the definitions in a tree of a text are not empty and lie in the text, one after the
other; wherever the tree holds a class or a trait, its header ends before its first member starts, and
the spans of its members come after that; so none of all spans is left out when chunks are made. -/
theorem ofFile_isKept {file : Tree} (h : file.isWellFormed text) (hstop : file.stop ≤ text.length) :
  (∀ span ∈ ofFile (LineIndex.ofText text) file, span.IsPlaced text)
    ∧ (ofFile (LineIndex.ofText text) file).Pairwise (fun a b => a.stop ≤ b.start)
    ∧ (∀ container, file.Holds container → container.kind.isContainer →
      ∀ scope start stop, start ≤ container.start → container.stop ≤ stop → isFullAt text start →
      ∃ header members, spans (LineIndex.ofText text) scope start stop container = header :: members
        ∧ header.start = start ∧ header.start < header.stop
        ∧ ∀ member, firstMember? container = some member →
          header.stop ≤ member.start ∧ ∀ span ∈ members, member.start ≤ span.start)
    ∧ Assembly.apart 0 ((ofFile (LineIndex.ofText text) file).mergeSort Assembly.spanBefore)
      = ofFile (LineIndex.ofText text) file
  := by
  have hfile := Tree.isWellFormed_iff.mp h
  have hall : LieWithin file.start file.stop (ofFile (LineIndex.ofText text) file) :=
    lieWithin_siblingSpans none file.children hfile.areInOrder
  refine ⟨?_, hall.apart, ?_, ?_⟩
  · intro span hspan
    obtain ⟨-, hlt, hle⟩ := hall.within span hspan
    constructor
    · apply hlt
    · apply Nat.le_trans hle hstop
    · rw [knowLines_ofFile _ _ span hspan, LineIndex.lineOf_eq]
  · intro container hholds hkind scope start stop hstart hstop hfull
    have hnode := hfile.of_holds hholds
    have hrange := (hnode.isFullAt (Kind.isDefinition_of_isContainer hkind)).1
    have haround : IsAround text start stop container :=
      ⟨hnode, hstart, hstop, fun _ => ⟨by omega, hfull⟩⟩
    obtain ⟨header, members, heq, hfirst, hmembers⟩ := spans_of_isContainer haround hkind
    have hspans := lieWithin_spans scope start stop container haround
    rw [heq] at hspans
    use header, members, heq, hfirst, (hspans.within header List.mem_cons_self).2.1
  · apply Assembly.apart_mergeSort_eq_self (fun span hspan => (hall.within span hspan).2.1) hall.apart

/-- A text with a class in a class, under a decorator. -/
def nestedText : String := "@d\nclass A:\n  class B:\n    def f(): pass\n  def g(): pass\n"

theorem ofFile_isKept_nestedText :
  ∃ file, syntaxTree (LineIndex.ofText nestedText.toList) .python = .ok file
    ∧ file.isWellFormed nestedText.toList ∧ file.stop ≤ nestedText.toList.length
    ∧ (ofFile (LineIndex.ofText nestedText.toList) file).map (·.name) = ["A", "A.B", "A.B.f", "A.g"]
    ∧ (ofFile (LineIndex.ofText nestedText.toList) file).Pairwise fun a b => a.stop ≤ b.start
  := by
  have hread : ((syntaxTree (LineIndex.ofText nestedText.toList) .python).toOption.map fun file =>
      file.isWellFormed nestedText.toList && decide (file.stop ≤ nestedText.toList.length)
        && (ofFile (LineIndex.ofText nestedText.toList) file).map (·.name)
          == ["A", "A.B", "A.B.f", "A.g"]) = some true := by
    decide +kernel
  cases htree : syntaxTree (LineIndex.ofText nestedText.toList) .python with
  | error error =>
      rw [htree] at hread
      cases hread
  | ok file =>
      rw [htree] at hread
      have hall := Option.some.inj hread
      simp only [Bool.and_eq_true, decide_eq_true_eq, beq_iff_eq] at hall
      obtain ⟨⟨hfile, hstop⟩, hnames⟩ := hall
      use file, rfl, hfile, hstop, hnames
      apply (ofFile_isKept hfile hstop).2.1

end Definitions

end Scrutiny
