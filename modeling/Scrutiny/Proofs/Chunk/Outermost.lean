import Mathlib.Data.List.Lex
import Scrutiny.Proofs.Grammar.Tokens
import Scrutiny.Proofs.Text.LineIndex

/-!
# Skeletons as splices

A skeleton is its text with the bodies of the outermost functions replaced, and nothing else: what
stands before, between and after these bodies is kept, in its order.  The bodies lie in the text one
after the other, so that none of the edits is ever left out for another one.
-/

namespace Scrutiny

namespace Grammar.Tree

/-- What holds of a node if it holds of its children holds of all nodes. -/
theorem of_children {motive : Tree → Prop}
    (h : ∀ tree, (∀ child ∈ tree.children, motive child) → motive tree) (tree : Tree) :
  motive tree
  := by
  apply h tree
  intro child hmem
  have hlt : sizeOf child < sizeOf tree := by
    obtain ⟨kind, role, start, stop, children⟩ := tree
    have hchild : sizeOf child < sizeOf children := List.sizeOf_lt_of_mem hmem
    rw [Tree.mk.sizeOf_spec]
    omega
  apply of_children h child
termination_by sizeOf tree

/-- The node at a place in a tree: the numbers of the children on the way to it. -/
def at? : List Nat → Tree → Option Tree
  | [], tree => some tree
  | i :: place, tree => tree.children[i]?.bind (at? place)

end Grammar.Tree

namespace Skeleton

open Grammar Text

variable {index : LineIndex} {language : Language} {tree body : Tree} {trees : List Tree}
  {low high : Nat}

/-! ### Outermost functions -/

/-- The body of a function, if it is a block. -/
def blockOf? (tree : Tree) : Option Tree :=
  if isFunction tree.kind then (tree.child? .body).filter (·.kind == .block) else none

theorem mem_children_of_blockOf? (h : blockOf? tree = some body) :
  body ∈ tree.children
  := by
  rw [blockOf?] at h
  split at h
  · apply List.mem_of_find?_eq_some (Option.filter_eq_some_iff.mp h).1
  · cases h

/-- A function with a block stands at a place in a tree, and none around it. -/
structure IsOutermost (tree : Tree) (place : List Nat) (body : Tree) : Prop where
  function : ∃ function, tree.at? place = some function ∧ blockOf? function = some body
  around : ∀ front back, front ++ back = place → back ≠ [] →
    ∀ outer, tree.at? front = some outer → blockOf? outer = none

mutual

/-- The places and the bodies of the outermost functions of a tree. -/
def outermost : Tree → List (List Nat × Tree)
  | ⟨kind, role, start, stop, children⟩ =>
    match blockOf? ⟨kind, role, start, stop, children⟩ with
    | some body => [([], body)]
    | none => outermostFrom 0 children

/-- The same for trees side by side, numbered from `i` on. -/
def outermostFrom (i : Nat) : List Tree → List (List Nat × Tree)
  | [] => []
  | tree :: rest =>
    (outermost tree).map (fun (place, body) => (i :: place, body)) ++ outermostFrom (i + 1) rest

end

theorem outermost_of_some (h : blockOf? tree = some body) :
  outermost tree = [([], body)]
  := by
  obtain ⟨kind, role, start, stop, children⟩ := tree
  rw [outermost, h]

theorem outermost_of_none (h : blockOf? tree = none) :
  outermost tree = outermostFrom 0 tree.children
  := by
  obtain ⟨kind, role, start, stop, children⟩ := tree
  rw [outermost, h]

theorem map_snd_outermostFrom_cons (first : Nat) (tree : Tree) (trees : List Tree) :
  (outermostFrom first (tree :: trees)).map Prod.snd
    = (outermost tree).map Prod.snd ++ (outermostFrom (first + 1) trees).map Prod.snd
  := by
  rw [outermostFrom, List.map_append, List.map_map]
  rfl

/-- The places among trees side by side start with the number of a tree. -/
theorem mem_outermostFrom {first : Nat} {place : List Nat} :
  (place, body) ∈ outermostFrom first trees
    ↔ ∃ i child rest, place = (first + i) :: rest ∧ trees[i]? = some child
      ∧ (rest, body) ∈ outermost child
  := by
  induction trees generalizing first with
  | nil => simp [outermostFrom]
  | cons tree later ih =>
      rw [outermostFrom, List.mem_append, ih, List.mem_map]
      constructor
      · rintro (⟨⟨rest, found⟩, hmem, heq⟩ | ⟨i, child, rest, rfl, hchild, hmem⟩)
        · obtain ⟨rfl, rfl⟩ := Prod.mk.inj heq
          exact ⟨0, tree, rest, rfl, rfl, hmem⟩
        · exact ⟨i + 1, child, rest, by rw [Nat.add_assoc, Nat.add_comm 1], hchild, hmem⟩
      · rintro ⟨i, child, rest, rfl, hchild, hmem⟩
        cases i with
        | zero =>
            left
            obtain rfl := Option.some.inj hchild
            use (rest, body), hmem
            rfl
        | succ i =>
            right
            exact ⟨i, child, rest, by rw [Nat.add_assoc, Nat.add_comm 1], hchild, hmem⟩

/-- Below a node that is no function with a block, the outermost functions are those of its
children. -/
theorem isOutermost_cons (h : blockOf? tree = none) {i : Nat} {place : List Nat} :
  IsOutermost tree (i :: place) body
    ↔ ∃ child, tree.children[i]? = some child ∧ IsOutermost child place body
  := by
  constructor
  · rintro ⟨⟨function, hat, hblock⟩, haround⟩
    rw [Tree.at?, Option.bind_eq_some_iff] at hat
    obtain ⟨child, hchild, hat⟩ := hat
    use child, hchild, ⟨function, hat, hblock⟩
    intro front back heq hback outer houter
    apply haround (i :: front) back (by rw [List.cons_append, heq]) hback
    rw [Tree.at?, hchild]
    apply houter
  · rintro ⟨child, hchild, ⟨function, hat, hblock⟩, haround⟩
    constructor
    · use function
      rw [Tree.at?, hchild]
      use hat
    · intro front back heq hback outer houter
      cases front with
      | nil =>
          obtain rfl := Option.some.inj houter
          apply h
      | cons first front =>
          obtain ⟨rfl, hrest⟩ := List.cons.inj heq
          rw [Tree.at?, hchild] at houter
          apply haround front back hrest hback outer houter

/-- The list of the outermost functions has them all, and no others. -/
theorem mem_outermost {place : List Nat} :
  (place, body) ∈ outermost tree ↔ IsOutermost tree place body
  := by
  induction place generalizing tree with
  | nil =>
      cases hblock : blockOf? tree with
      | some found =>
          rw [outermost_of_some hblock, List.mem_singleton]
          constructor
          · intro heq
            obtain ⟨-, rfl⟩ := Prod.mk.inj heq
            use ⟨tree, rfl, hblock⟩
            intro front back heq hback
            cases hback (List.append_eq_nil_iff.mp heq).2
          · rintro ⟨⟨function, hat, hfound⟩, -⟩
            obtain rfl := Option.some.inj hat
            rw [Option.some.inj (hblock.symm.trans hfound)]
      | none =>
          rw [outermost_of_none hblock, mem_outermostFrom]
          constructor
          · rintro ⟨i, child, rest, hplace, -⟩
            cases hplace
          · rintro ⟨⟨function, hat, hfound⟩, -⟩
            obtain rfl := Option.some.inj hat
            cases hblock.symm.trans hfound
  | cons i place ih =>
      cases hblock : blockOf? tree with
      | some found =>
          rw [outermost_of_some hblock, List.mem_singleton]
          constructor
          · intro heq
            cases (Prod.mk.inj heq).1
          · intro h
            cases hblock.symm.trans (h.around [] (i :: place) rfl (List.cons_ne_nil _ _) tree rfl)
      | none =>
          rw [outermost_of_none hblock, mem_outermostFrom, isOutermost_cons hblock]
          constructor
          · rintro ⟨j, child, rest, hplace, hchild, hmem⟩
            obtain ⟨rfl, rfl⟩ := List.cons.inj hplace
            rw [Nat.zero_add]
            exact ⟨child, hchild, ih.mp hmem⟩
          · rintro ⟨child, hchild, hmem⟩
            exact ⟨i, child, place, by rw [Nat.zero_add], hchild, ih.mpr hmem⟩

theorem pairwise_outermostFrom (first : Nat)
    (h : ∀ tree ∈ trees, ((outermost tree).map Prod.fst).Pairwise (· < ·)) :
  ((outermostFrom first trees).map Prod.fst).Pairwise (· < ·)
  := by
  induction trees generalizing first with
  | nil =>
      rw [outermostFrom]
      apply List.Pairwise.nil
  | cons tree rest ih =>
      obtain ⟨htree, hrest⟩ := List.forall_mem_cons.mp h
      rw [outermostFrom, List.map_append, List.map_map, List.pairwise_append]
      refine ⟨?_, ih (first + 1) hrest, ?_⟩
      · rw [List.pairwise_map] at htree ⊢
        apply htree.imp
        intro a b hlt
        apply List.cons_lt_cons_iff.mpr (.inr ⟨rfl, hlt⟩)
      · intro a ha b hb
        obtain ⟨⟨place, body⟩, -, rfl⟩ := List.mem_map.mp ha
        obtain ⟨⟨place', body'⟩, hmem, rfl⟩ := List.mem_map.mp hb
        obtain ⟨i, child, rest, rfl, -, -⟩ := mem_outermostFrom.mp hmem
        apply List.cons_lt_cons_iff.mpr (.inl _)
        omega

/-- The outermost functions are listed in the order of their places. -/
theorem pairwise_outermost (tree : Tree) :
  ((outermost tree).map Prod.fst).Pairwise (· < ·)
  := by
  induction tree using Tree.of_children with
  | h tree ih =>
      cases hblock : blockOf? tree with
      | some found =>
          rw [outermost_of_some hblock]
          apply List.pairwise_singleton
      | none =>
          rw [outermost_of_none hblock]
          apply pairwise_outermostFrom 0 ih

theorem lieIn_outermostFrom (first : Nat) (h : LieIn low high trees)
    (htrees : ∀ tree ∈ trees, ∀ low high, tree.LiesIn low high →
      LieIn low high ((outermost tree).map Prod.snd)) :
  LieIn low high ((outermostFrom first trees).map Prod.snd)
  := by
  induction trees generalizing first low with
  | nil =>
      rw [outermostFrom]
      apply h
  | cons tree rest ih =>
      obtain ⟨htree, hrest⟩ := List.forall_mem_cons.mp htrees
      obtain ⟨start, middle, hlow, hlies, hlater⟩ := LieIn.cons_iff.mp h
      rw [map_snd_outermostFrom_cons]
      apply LieIn.append _ (ih _ hlater hrest)
      apply (htree start middle hlies).mono_low hlow

/-- The bodies of the outermost functions lie in order, as the nodes do. -/
theorem lieIn_outermost (h : tree.LiesIn low high) :
  LieIn low high ((outermost tree).map Prod.snd)
  := by
  induction tree using Tree.of_children generalizing low high with
  | h tree ih =>
      obtain ⟨hstart, hle, hstop, hchildren⟩ := Tree.liesIn_iff.mp h
      apply LieIn.mono_high _ hstop
      cases hblock : blockOf? tree with
      | some body =>
          rw [outermost_of_some hblock]
          apply hchildren.of_mem (mem_children_of_blockOf? hblock)
      | none =>
          rw [outermost_of_none hblock]
          apply lieIn_outermostFrom 0 hchildren
          intro child hchild low high hlies
          apply ih child hchild hlies

/-! ### Edits -/

/-- What takes the place of a body. -/
def stub (index : LineIndex) (language : Language) (body : Tree) : List Char :=
  if language == .python then indentedStub index body else braceStub

/-- The edit that leaves out a body. -/
def editOf (index : LineIndex) (language : Language) (body : Tree) : Edit :=
  { start := body.start, stop := body.stop, replacement := stub index language body }

theorem bodyEdit?_eq (index : LineIndex) (language : Language) (tree : Tree) :
  bodyEdit? index language tree = (blockOf? tree).map (editOf index language)
  := by
  rw [bodyEdit?, blockOf?]
  split
  · cases tree.child? .body with
    | none => rfl
    | some body =>
        rw [Option.filter_some]
        dsimp only
        split <;> rfl
  · rfl

theorem editsOfAll_eq (first : Nat)
    (h : ∀ tree ∈ trees, edits index language tree
      = ((outermost tree).map Prod.snd).map (editOf index language)) :
  editsOfAll index language trees
    = ((outermostFrom first trees).map Prod.snd).map (editOf index language)
  := by
  induction trees generalizing first with
  | nil => rw [editsOfAll, outermostFrom, List.map_nil, List.map_nil]
  | cons tree rest ih =>
      obtain ⟨htree, hrest⟩ := List.forall_mem_cons.mp h
      rw [editsOfAll, map_snd_outermostFrom_cons, htree, ih (first + 1) hrest, List.map_append]

/-- The edits of a tree leave out the bodies of its outermost functions. -/
theorem edits_eq (index : LineIndex) (language : Language) (tree : Tree) :
  edits index language tree = ((outermost tree).map Prod.snd).map (editOf index language)
  := by
  induction tree using Tree.of_children with
  | h tree ih =>
      have hedits : edits index language tree
          = (bodyEdit? index language tree).elim (editsOfAll index language tree.children)
            fun edit => [edit] := by
        obtain ⟨kind, role, start, stop, children⟩ := tree
        unfold edits
        cases bodyEdit? index language _ <;> rfl
      rw [hedits, bodyEdit?_eq]
      cases hblock : blockOf? tree with
      | some body =>
          rw [outermost_of_some hblock]
          rfl
      | none =>
          rw [outermost_of_none hblock]
          apply editsOfAll_eq 0 ih

/-! ### Splices -/

/-- The text from an offset on, with something else in the place of each of some nodes. -/
def withReplaced (index : LineIndex) (replace : Tree → List Char) (offset : Nat) :
    List Tree → List Char
  | [] => index.slice offset index.chars.size
  | tree :: rest =>
    index.slice offset tree.start ++ replace tree ++ withReplaced index replace tree.stop rest

/-- None of the edits that leave out nodes in order is left out itself. -/
theorem splice_eq (h : LieIn low high trees) :
  splice index low (trees.map (editOf index language))
    = withReplaced index (stub index language) low trees
  := by
  induction trees generalizing low with
  | nil => rfl
  | cons tree rest ih =>
      obtain ⟨first, middle, hfirst, htree, hrest⟩ := LieIn.cons_iff.mp h
      obtain ⟨hstart, hle, hstop, -⟩ := Tree.liesIn_iff.mp htree
      have hafter : ¬ (editOf index language tree).start < low := by
        apply Nat.not_lt.mpr (Nat.le_trans hfirst hstart)
      rw [List.map_cons, splice, if_neg hafter, withReplaced]
      rw [← ih (hrest.mono_low hstop)]
      rfl

/-- With the nodes in their own places the text is as it was. -/
theorem withReplaced_self (text : List Char) (h : LieIn low high trees) :
  withReplaced (LineIndex.ofText text)
      (fun tree => (LineIndex.ofText text).slice tree.start tree.stop) low trees
    = text.drop low
  := by
  induction trees generalizing low with
  | nil => simp [withReplaced]
  | cons tree rest ih =>
      obtain ⟨first, middle, hfirst, htree, hrest⟩ := LieIn.cons_iff.mp h
      obtain ⟨hstart, hle, hstop, -⟩ := Tree.liesIn_iff.mp htree
      have hlow : low ≤ tree.start := Nat.le_trans hfirst hstart
      rw [withReplaced, ih (hrest.mono_low hstop), List.append_assoc]
      simp only [LineIndex.slice_ofText, List.drop_take]
      have hjoin {start stop : Nat} (hle : start ≤ stop) :
          (text.drop start).take (stop - start) ++ text.drop stop = text.drop start := by
        have hsplit := List.take_append_drop (stop - start) (text.drop start)
        rwa [List.drop_drop, Nat.add_sub_cancel' hle] at hsplit
      rw [hjoin hle, hjoin hlow]

/-- Nodes that lie in order are apart. -/
theorem pairwise_of_lieIn (h : LieIn low high trees) :
  trees.Pairwise fun a b => a.stop ≤ b.start
  := by
  induction trees generalizing low with
  | nil => apply List.Pairwise.nil
  | cons tree rest ih =>
      obtain ⟨first, middle, hfirst, htree, hrest⟩ := LieIn.cons_iff.mp h
      obtain ⟨hstart, hle, hstop, -⟩ := Tree.liesIn_iff.mp htree
      apply List.Pairwise.cons _ (ih hrest)
      intro later hlater
      obtain ⟨start, last, hlow, hlies, -⟩ := LieIn.cons_iff.mp (hrest.of_mem hlater)
      obtain ⟨hbegin, -⟩ := Tree.liesIn_iff.mp hlies
      omega

/-- Nodes that lie in order are in the order of their starts. -/
theorem pairwise_start_of_lieIn (h : LieIn low high trees) :
  trees.Pairwise fun a b => a.start ≤ b.start
  := by
  have hle : ∀ tree ∈ trees, tree.start ≤ tree.stop := by
    intro tree htree
    obtain ⟨first, middle, -, hlies, -⟩ := LieIn.cons_iff.mp (h.of_mem htree)
    apply (Tree.liesIn_iff.mp hlies).2.1
  apply (pairwise_of_lieIn h).imp_of_mem
  intro a b ha _ hab
  apply Nat.le_trans (hle a ha) hab

/-- The skeleton of a text whose nodes lie in order. -/
theorem ofTree_eq (h : tree.LiesIn 0 high) :
  ofTree index language tree
    = withReplaced index (stub index language) 0 ((outermost tree).map Prod.snd)
  := by
  have hbodies := lieIn_outermost h
  have hsorted : (edits index language tree).Pairwise
      fun a b => (decide (a.start ≤ b.start)) = true := by
    rw [edits_eq, List.pairwise_map]
    apply (pairwise_start_of_lieIn hbodies).imp
    intro a b hab
    apply decide_eq_true hab
  rw [ofTree, List.mergeSort_of_pairwise hsorted, edits_eq, splice_eq hbodies]

/-- The skeleton of a text that can be read. -/
theorem skeleton_eq {text : String}
    (h : syntaxTree (LineIndex.ofText text.toList) language = .ok tree) :
  skeleton text language = .ok (String.ofList (withReplaced (LineIndex.ofText text.toList)
    (stub (LineIndex.ofText text.toList) language) 0 ((outermost tree).map Prod.snd)))
  := by
  obtain ⟨high, hlies⟩ := exists_liesIn_of_syntaxTree h
  rw [skeleton, h]
  dsimp only
  rw [ofTree_eq hlies]

/-- A text with a function in a method. -/
def innerText : String := "class A:\n def f():\n  def g(): 0\n"

end Skeleton

end Scrutiny
