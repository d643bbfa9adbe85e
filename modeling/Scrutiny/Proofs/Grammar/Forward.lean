import Mathlib.Tactic.Common
import Scrutiny.Proofs.Grammar.Reads

/-!
# Trees in order

A scanner that never goes back finds each token at or after the place where it looks for it.  If all
tokens of a grammar are found by such scanners, the nodes that are read lie in the text one after
the other: what is read later starts where what was read before has ended, or after it.
-/

namespace Scrutiny.Grammar

/-! ### Nodes in a range -/

mutual

/-- The node lies in the range from `low` to `high`, and the nodes in it lie before its end, one
after the other. -/
def Tree.LiesIn (low high : Nat) : Tree → Prop
  | ⟨_, _, start, stop, children⟩ =>
    low ≤ start ∧ start ≤ stop ∧ stop ≤ high ∧ LieIn low stop children

/-- The nodes lie in the range from `low` to `high`, one after the other. -/
def LieIn (low high : Nat) : List Tree → Prop
  | [] => low ≤ high
  | tree :: rest => ∃ first middle, low ≤ first ∧ tree.LiesIn first middle ∧ LieIn middle high rest

end

variable {low middle high : Nat} {tree : Tree} {trees others : List Tree}

theorem Tree.liesIn_iff :
  tree.LiesIn low high
    ↔ low ≤ tree.start ∧ tree.start ≤ tree.stop ∧ tree.stop ≤ high
      ∧ LieIn low tree.stop tree.children
  := by
  cases tree
  rfl

theorem Tree.LiesIn.withRole (h : tree.LiesIn low high) (role : Role) :
  (tree.withRole role).LiesIn low high
  := by
  apply liesIn_iff.mpr
  apply liesIn_iff.mp h

namespace LieIn

theorem nil_iff :
  LieIn low high [] ↔ low ≤ high
  := Iff.rfl

theorem cons_iff :
  LieIn low high (tree :: trees)
    ↔ ∃ first middle, low ≤ first ∧ tree.LiesIn first middle ∧ LieIn middle high trees
  := Iff.rfl

theorem le (h : LieIn low high trees) :
  low ≤ high
  := by
  induction trees generalizing low with
  | nil => apply nil_iff.mp h
  | cons tree rest ih =>
      obtain ⟨first, middle, hfirst, htree, hrest⟩ := cons_iff.mp h
      obtain ⟨hstart, hle, hstop, -⟩ := Tree.liesIn_iff.mp htree
      have hlater := ih hrest
      omega

theorem mono_low (h : LieIn middle high trees) (hle : low ≤ middle) :
  LieIn low high trees
  := by
  cases trees with
  | nil => apply nil_iff.mpr (Nat.le_trans hle (nil_iff.mp h))
  | cons tree rest =>
      obtain ⟨first, next, hfirst, htree, hrest⟩ := cons_iff.mp h
      apply cons_iff.mpr
      use first, next, Nat.le_trans hle hfirst

theorem append (h : LieIn low middle trees) (hothers : LieIn middle high others) :
  LieIn low high (trees ++ others)
  := by
  induction trees generalizing low with
  | nil => apply hothers.mono_low (nil_iff.mp h)
  | cons tree rest ih =>
      obtain ⟨first, next, hfirst, htree, hrest⟩ := cons_iff.mp h
      apply cons_iff.mpr
      use first, next, hfirst, htree, ih hrest

theorem mono_high (h : LieIn low middle trees) (hle : middle ≤ high) :
  LieIn low high trees
  := by
  rw [← List.append_nil trees]
  apply h.append (nil_iff.mpr hle)

theorem singleton (h : tree.LiesIn low high) :
  LieIn low high [tree]
  := by
  apply cons_iff.mpr
  use low, high, Nat.le_refl low, h
  apply nil_iff.mpr (Nat.le_refl high)

/-- Each of the nodes lies in the range. -/
theorem of_mem (h : LieIn low high trees) (hmem : tree ∈ trees) :
  LieIn low high [tree]
  := by
  induction trees generalizing low with
  | nil => cases hmem
  | cons first rest ih =>
      obtain ⟨start, middle, hstart, hfirst, hrest⟩ := cons_iff.mp h
      have hbefore := (singleton hfirst).mono_low hstart
      rcases List.mem_cons.mp hmem with rfl | hmem
      · apply hbefore.mono_high hrest.le
      · apply (ih hrest hmem).mono_low hbefore.le

/-- Nodes with roles lie where they lie without them. -/
theorem map_withRole (h : LieIn low high trees) (role : Role) :
  LieIn low high (trees.map (·.withRole role))
  := by
  induction trees generalizing low with
  | nil => apply h
  | cons tree rest ih =>
      obtain ⟨first, next, hfirst, htree, hrest⟩ := cons_iff.mp h
      apply cons_iff.mpr
      use first, next, hfirst, htree.withRole role, ih hrest

end LieIn

/-! ### Patterns that never go back -/

/-- A token that the scanner finds starts where it is looked for or later, and ends where it starts or
later. -/
def Scanner.IsForward (scan : Scanner) : Prop :=
  ∀ ⦃text cursor found⦄, scan text cursor = .ok found →
    cursor.offset ≤ found.start ∧ found.start ≤ found.after.offset

namespace Pattern

variable {σ : Type}

/-- No token that is read in a pattern goes back. -/
def IsForward : Pattern σ → Prop
  | .token scan => scan.IsForward
  | .seq first second | .either first second => first.IsForward ∧ second.IsForward
  | .many item | .suffixes item | .node _ item | .part _ item | .group item => item.IsForward
  | _ => True

end Pattern

variable {σ : Type} {rules : σ → Pattern σ} {text : Array Char} {p q : Progress}
  {pattern : Pattern σ}

namespace Progress

/-- The nodes that were made lie between the start and the place that is reached, one after the
other, and the first token does, too. -/
structure IsInOrder (low : Nat) (p : Progress) : Prop where
  low_le : low ≤ p.begun.getD p.cursor.offset
  begun_le : p.begun.getD p.cursor.offset ≤ p.cursor.offset
  made : LieIn low p.cursor.offset p.made.reverse

theorem isInOrder_enter (p : Progress) :
  p.enter.IsInOrder p.cursor.offset
  := ⟨Nat.le_refl _, Nat.le_refl _, LieIn.nil_iff.mpr (Nat.le_refl _)⟩

/-- A node lies where what is in it was read. -/
theorem IsInOrder.wrap (h : p.IsInOrder low) (kind : Kind) :
  (p.wrap kind).LiesIn low p.cursor.offset
  := Tree.liesIn_iff.mpr ⟨h.low_le, h.begun_le, Nat.le_refl _, h.made⟩

/-- What is read next follows what was read before. -/
theorem IsInOrder.next (h : p.IsInOrder low) {cursor : Cursor} {begun : Option Nat}
    {made : List Tree} (hlow : p.cursor.offset ≤ begun.getD cursor.offset)
    (hhigh : begun.getD cursor.offset ≤ cursor.offset)
    (hmade : LieIn p.cursor.offset cursor.offset made.reverse) (assignable : Bool) (reach : Nat) :
  IsInOrder low { cursor, begun := p.begun.or begun, made := made ++ p.made, assignable, reach }
  := by
  have hle := h.low_le
  have hle' := h.begun_le
  constructor
  · cases hp : p.begun with
    | none =>
        rw [hp] at hle
        apply Nat.le_trans hle hlow
    | some start =>
        rw [hp] at hle
        apply hle
  · cases hp : p.begun with
    | none => apply hhigh
    | some start =>
        rw [hp] at hle'
        apply Nat.le_trans hle' (Nat.le_trans hlow hhigh)
  · rw [List.reverse_append]
    apply h.made.append hmade

theorem IsInOrder.leave (h : p.IsInOrder low) (hinner : q.IsInOrder p.cursor.offset)
    {made : List Tree} (hmade : LieIn p.cursor.offset q.cursor.offset made.reverse) :
  (p.leave q made).IsInOrder low
  := h.next hinner.low_le hinner.begun_le hmade q.assignable q.reach

end Progress

/-- If no token of a grammar goes back, reading goes forward, and the nodes that are made lie in
order. -/
theorem Progress.IsInOrder.of_reads (hrules : ∀ rule, (rules rule).IsForward)
    (h : Reads rules text pattern p q) (hpattern : pattern.IsForward) (hp : p.IsInOrder low) :
  q.IsInOrder low ∧ p.cursor.offset ≤ q.cursor.offset
  := by
  induction h generalizing low with
  | empty | absent | assignable => exact ⟨hp, Nat.le_refl _⟩
  | many_end | ahead | suffixes_end | mark =>
      exact ⟨⟨hp.low_le, hp.begun_le, hp.made⟩, Nat.le_refl _⟩
  | @token scan p found hfound =>
      obtain ⟨hstart, hafter⟩ := hpattern hfound
      have hle := Nat.le_trans hstart hafter
      have hnext := @Progress.IsInOrder.next low p hp found.after (some found.start) [] hstart hafter
        (LieIn.nil_iff.mpr hle) false p.reach
      exact ⟨hnext, hle⟩
  | call _ ih => apply ih (hrules _) hp
  | seq _ _ ihfirst ihsecond =>
      obtain ⟨hmiddle, hle⟩ := ihfirst hpattern.1 hp
      obtain ⟨hlast, hle'⟩ := ihsecond hpattern.2 hmiddle
      use hlast, Nat.le_trans hle hle'
  | either_first _ ih => apply ih hpattern.1 hp
  | either_second reach _ ih => apply ih hpattern.2 ⟨hp.low_le, hp.begun_le, hp.made⟩
  | many_next _ _ ihitem ihrest =>
      obtain ⟨hmiddle, hle⟩ := ihitem hpattern hp
      obtain ⟨hlast, hle'⟩ := ihrest hpattern hmiddle
      use hlast, Nat.le_trans hle hle'
  | node _ ih =>
      obtain ⟨hinner, hle⟩ := ih hpattern (Progress.isInOrder_enter _)
      use hp.leave hinner (.singleton (hinner.wrap _)), hle
  | @part role _ _ _ _ ih =>
      obtain ⟨hinner, hle⟩ := ih hpattern (Progress.isInOrder_enter _)
      have hmade := hinner.made.map_withRole role
      rw [List.map_reverse] at hmade
      use hp.leave hinner hmade, hle
  | group _ ih =>
      obtain ⟨hinner, hle⟩ := ih hpattern (Progress.isInOrder_enter _)
      use hp.leave hinner hinner.made, hle
  | suffixes_next _ _ ihnext ihrest =>
      obtain ⟨hmiddle, hle⟩ := ihnext hpattern hp
      have hwrapped := LieIn.singleton (hmiddle.wrap .other)
      obtain ⟨hlast, hle'⟩ := ihrest hpattern ⟨hmiddle.low_le, hmiddle.begun_le, hwrapped⟩
      use hlast, Nat.le_trans hle hle'

/-- If no token of a grammar goes back, the nodes in the tree of a text lie in order. -/
theorem Pattern.exists_liesIn_tree {file : Pattern σ} (hrules : ∀ rule, (rules rule).IsForward)
    (hfile : file.IsForward) (h : Pattern.tree rules file text = .ok tree) :
  ∃ high, tree.LiesIn 0 high
  := by
  obtain ⟨p, hreads, hp⟩ := Pattern.exists_reads_of_tree h
  have hstart : Progress.IsInOrder 0
      { cursor := { offset := 0, indents := [0] }, begun := none, made := [], assignable := false,
        reach := 0 } := ⟨Nat.le_refl _, Nat.le_refl _, LieIn.nil_iff.mpr (Nat.le_refl _)⟩
  obtain ⟨⟨-, -, hmade⟩, -⟩ := hstart.of_reads hrules hreads hfile
  rw [hp] at hmade
  obtain ⟨first, next, -, htree, -⟩ := LieIn.cons_iff.mp hmade
  obtain ⟨-, hle, hstop, hchildren⟩ := Tree.liesIn_iff.mp htree
  use next
  apply Tree.liesIn_iff.mpr
  exact ⟨Nat.zero_le _, hle, hstop, hchildren.mono_low (Nat.zero_le _)⟩

end Scrutiny.Grammar
