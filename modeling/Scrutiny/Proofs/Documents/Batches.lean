import Mathlib.Data.List.Range
import Mathlib.Tactic.Common
import Scrutiny.Documents.Architecture

/-!
# Blocks in batches

Packing cuts a list of blocks into batches of consecutive blocks, none of which could take another
block: there is one such way, and packing finds it.
-/

namespace Scrutiny.Batch

/-- The blocks that a batch is made of. -/
def blocksOf (blocks : List String) (batch : Batch) : List String :=
  (blocks.take batch.last).drop (batch.first - 1)

/-- The numbers of the blocks of a batch. -/
def numbers (batch : Batch) : List Nat :=
  List.range' batch.first (batch.last + 1 - batch.first)

/-- A batch is made of some of the blocks, and keeps to the limit if it has several. -/
structure IsBatchOf (limit : Nat) (blocks : List String) (batch : Batch) : Prop where
  /-- Blocks are counted from one. -/
  first_pos : 0 < batch.first
  /-- There is a block in the batch. -/
  first_le_last : batch.first ≤ batch.last
  /-- The last block is one of the blocks. -/
  last_le : batch.last ≤ blocks.length
  /-- The text is the blocks with the separator between them. -/
  text_eq : batch.text = separator.intercalate (batch.blocksOf blocks)
  /-- Only a batch of one block can be longer than the limit. -/
  fits_limit : batch.text.length ≤ limit ∨ batch.first = batch.last

/-- The block after a batch, if there is one, would make the batch too long. -/
def IsFull (limit : Nat) (blocks : List String) (batch : Batch) : Prop :=
  ∀ block, blocks[batch.last]? = some block →
    limit < batch.text.length + separator.length + block.length

/-- Batches are made of the blocks from one number on: of each once, in order, and as many in each batch
as the limit allows. -/
structure IsPackingFrom (limit : Nat) (blocks : List String) (start : Nat) (batches : List Batch) :
    Prop where
  /-- Each block is in one batch, and the batches are in order. -/
  numbers_eq : batches.flatMap numbers = List.range' start (blocks.length + 1 - start)
  /-- Each batch is made of blocks. -/
  isBatchOf : ∀ batch ∈ batches, batch.IsBatchOf limit blocks
  /-- No batch could take another block. -/
  isFull : ∀ batch ∈ batches, batch.IsFull limit blocks

/-- Batches are made of all the blocks. -/
def IsPacking (limit : Nat) (blocks : List String) (batches : List Batch) : Prop :=
  IsPackingFrom limit blocks 1 batches

variable {limit : Nat} {blocks : List String} {batch : Batch}

/-! ### The open batch -/

/-- A block alone is a batch. -/
theorem isBatchOf_ofBlock {i : Nat} {block : String} (h : blocks[i]? = some block) :
  (ofBlock (i + 1) block).IsBatchOf limit blocks
  := by
  obtain ⟨hi, rfl⟩ := List.getElem?_eq_some_iff.mp h
  constructor
  case first_pos => apply Nat.succ_pos
  case first_le_last => apply Nat.le_refl
  case last_le => apply hi
  case text_eq =>
    have hblocks : (ofBlock (i + 1) blocks[i]).blocksOf blocks = [blocks[i]] := by
      rw [blocksOf, ofBlock, Nat.add_sub_cancel, List.take_succ_eq_append_getElem hi]
      apply List.drop_left'
      rw [List.length_take_of_le (Nat.le_of_lt hi)]
    rw [hblocks, String.intercalate_singleton]
    rfl
  case fits_limit =>
    right
    rfl

theorem IsBatchOf.blocksOf_ne_nil (h : batch.IsBatchOf limit blocks) :
  batch.blocksOf blocks ≠ []
  := by
  have hfirst := h.first_pos
  have hle := h.first_le_last
  rw [← List.length_pos_iff, blocksOf, List.length_drop, List.length_take_of_le h.last_le]
  omega

/-- A batch that the next block fits into is a batch with that block. -/
theorem IsBatchOf.add (h : batch.IsBatchOf limit blocks) {block : String}
    (hblock : blocks[batch.last]? = some block) (hfits : batch.fits limit block = true) :
  (batch.add block).IsBatchOf limit blocks
  := by
  obtain ⟨hlast, rfl⟩ := List.getElem?_eq_some_iff.mp hblock
  constructor
  case first_pos => apply h.first_pos
  case first_le_last => apply Nat.le_succ_of_le h.first_le_last
  case last_le => apply hlast
  case text_eq =>
    have hfirst := h.first_pos
    have hle := h.first_le_last
    have hblocks : (batch.add blocks[batch.last]).blocksOf blocks
        = batch.blocksOf blocks ++ [blocks[batch.last]] := by
      rw [blocksOf, blocksOf, Batch.add, List.take_succ_eq_append_getElem hlast, List.drop_append_of_le_length]
      rw [List.length_take_of_le (Nat.le_of_lt hlast)]
      dsimp only
      omega
    rw [hblocks, String.intercalate_append_of_ne_nil h.blocksOf_ne_nil (by simp), String.intercalate_singleton,
      ← h.text_eq]
    rfl
  case fits_limit =>
    left
    rw [fits, decide_eq_true_eq] at hfits
    rw [Batch.add, String.length_append, String.length_append]
    omega

theorem numbers_cons_of_le (hle : batch.first ≤ batch.last) (hlast : batch.last ≤ blocks.length) :
  batch.numbers ++ List.range' (batch.last + 1) (blocks.length + 1 - (batch.last + 1))
    = List.range' batch.first (blocks.length + 1 - batch.first)
  := by
  have hstart : batch.first + (batch.last + 1 - batch.first) = batch.last + 1 := by omega
  have hranges := List.range'_append_1 (s := batch.first) (m := batch.last + 1 - batch.first)
    (n := blocks.length + 1 - (batch.last + 1))
  rw [hstart] at hranges
  rw [numbers, hranges]
  congr 1
  omega

/-- An open batch and the blocks after it become a packing of the blocks from its first one on. -/
theorem isPackingFrom_packFrom (h : batch.IsBatchOf limit blocks) {rest : List String}
    (hrest : blocks.drop batch.last = rest) :
  IsPackingFrom limit blocks batch.first (packFrom limit batch rest)
  := by
  induction rest generalizing batch with
  | nil =>
      have hlast : batch.last = blocks.length := by
        apply le_antisymm h.last_le
        apply List.drop_eq_nil_iff.mp hrest
      rw [packFrom]
      constructor
      case numbers_eq => rw [List.flatMap_singleton, numbers, hlast]
      case isBatchOf => rwa [List.forall_mem_singleton]
      case isFull =>
        rw [List.forall_mem_singleton]
        intro block hblock
        rw [hlast, List.getElem?_length] at hblock
        cases hblock
  | cons block rest ih =>
      have hblock : blocks[batch.last]? = some block := by
        rw [← List.head?_drop, hrest, List.head?_cons]
      have hlater : blocks.drop (batch.last + 1) = rest := by
        rw [← List.drop_drop, hrest, List.drop_one, List.tail_cons]
      rw [packFrom]
      split
      · apply ih (h.add hblock ‹_›) hlater
      · rename_i hfits
        have hpacking := ih (isBatchOf_ofBlock hblock) hlater
        constructor
        case numbers_eq =>
          rw [List.flatMap_cons, hpacking.numbers_eq]
          apply numbers_cons_of_le h.first_le_last h.last_le
        case isBatchOf => apply List.forall_mem_cons.mpr ⟨h, hpacking.isBatchOf⟩
        case isFull =>
          apply List.forall_mem_cons.mpr ⟨?_, hpacking.isFull⟩
          intro block' hblock'
          rw [hblock] at hblock'
          obtain rfl := Option.some.inj hblock'
          rwa [fits, decide_eq_true_eq, Nat.not_le] at hfits

theorem isPacking_pack (limit : Nat) (blocks : List String) :
  IsPacking limit blocks (pack limit blocks)
  := by
  cases blocks with
  | nil => exact ⟨rfl, List.forall_mem_nil _, List.forall_mem_nil _⟩
  | cons block rest => apply isPackingFrom_packFrom (isBatchOf_ofBlock (i := 0) rfl) rfl

/-! ### Only one way to pack -/

theorem length_intercalate_append_cons (separator : String) {front : List String} (hfront : front ≠ [])
    (block : String) (rest : List String) :
  (separator.intercalate front).length + separator.length + block.length
    ≤ (separator.intercalate (front ++ block :: rest)).length
  := by
  rw [String.intercalate_append_of_ne_nil hfront (List.cons_ne_nil _ _), String.length_append,
    String.length_append]
  cases rest with
  | nil => rw [String.intercalate_singleton]
  | cons next rest =>
      rw [String.intercalate_cons_cons, String.length_append, String.length_append]
      omega

/-- A batch that starts where a full one does ends no later. -/
theorem IsBatchOf.last_le_of_isFull {other : Batch} (h : batch.IsBatchOf limit blocks)
    (hfull : batch.IsFull limit blocks) (hother : other.IsBatchOf limit blocks)
    (hfirst : batch.first = other.first) :
  other.last ≤ batch.last
  := by
  by_contra hlt
  have hpos := h.first_pos
  have hle := h.first_le_last
  have hlength : batch.last < blocks.length := by
    have := hother.last_le
    omega
  have hblocks : other.blocksOf blocks = batch.blocksOf blocks
      ++ blocks[batch.last] :: (blocks.take other.last).drop (batch.last + 1) := by
    have hsplit := (List.take_append_drop (batch.last + 1) (blocks.take other.last)).symm
    rw [List.take_take, Nat.min_eq_left (by omega), List.take_succ_eq_append_getElem hlength,
      List.append_assoc, List.singleton_append] at hsplit
    rw [blocksOf, blocksOf, ← hfirst]
    conv_lhs => rw [hsplit]
    rw [List.drop_append_of_le_length]
    rw [List.length_take_of_le h.last_le]
    omega
  have hlong := length_intercalate_append_cons separator h.blocksOf_ne_nil blocks[batch.last]
    ((blocks.take other.last).drop (batch.last + 1))
  rw [← hblocks, ← h.text_eq, ← hother.text_eq] at hlong
  have hover := hfull _ (List.getElem?_eq_getElem hlength)
  rcases hother.fits_limit with hfits | hone
  · omega
  · omega

theorem IsPackingFrom.of_cons {start : Nat} {batches : List Batch}
    (h : IsPackingFrom limit blocks start (batch :: batches)) :
  batch.first = start ∧ IsPackingFrom limit blocks (batch.last + 1) batches
  := by
  obtain ⟨hbatch, hbatches⟩ := List.forall_mem_cons.mp h.isBatchOf
  have hnumbers := h.numbers_eq
  rw [List.flatMap_cons] at hnumbers
  have hfirst : batch.first = start := by
    have hle := hbatch.first_le_last
    obtain ⟨m, hm⟩ : ∃ m, batch.last + 1 - batch.first = m + 1 := ⟨batch.last - batch.first, by omega⟩
    have hheads := congrArg List.head? hnumbers
    rw [numbers, hm, List.range'_succ, List.cons_append, List.head?_cons, List.head?_range'] at hheads
    split at hheads
    · cases hheads
    · exact Option.some.inj hheads
  use hfirst
  constructor
  case numbers_eq =>
    rw [← hfirst, ← numbers_cons_of_le hbatch.first_le_last hbatch.last_le] at hnumbers
    apply List.append_cancel_left hnumbers
  case isBatchOf => apply hbatches
  case isFull => apply (List.forall_mem_cons.mp h.isFull).2

theorem IsPackingFrom.lt_of_nil {start : Nat} (h : IsPackingFrom limit blocks start []) :
  blocks.length < start
  := by
  have hnumbers := h.numbers_eq
  rw [List.flatMap_nil, eq_comm, List.range'_eq_nil_iff] at hnumbers
  omega

theorem IsPackingFrom.eq {start : Nat} {batches others : List Batch}
    (h : IsPackingFrom limit blocks start batches) (hothers : IsPackingFrom limit blocks start others) :
  batches = others
  := by
  induction batches generalizing start others with
  | nil =>
      cases others with
      | nil => rfl
      | cons other others =>
          obtain ⟨hfirst, -⟩ := hothers.of_cons
          have hother := hothers.isBatchOf other List.mem_cons_self
          have := h.lt_of_nil
          have := hother.first_le_last
          have := hother.last_le
          omega
  | cons batch batches ih =>
      obtain ⟨hfirst, hrest⟩ := h.of_cons
      have hbatch := h.isBatchOf batch List.mem_cons_self
      cases others with
      | nil =>
          have := hothers.lt_of_nil
          have := hbatch.first_le_last
          have := hbatch.last_le
          omega
      | cons other others =>
          obtain ⟨hfirst', hrest'⟩ := hothers.of_cons
          have hother := hothers.isBatchOf other List.mem_cons_self
          have hsame : batch.first = other.first := hfirst.trans hfirst'.symm
          have hlast : batch.last = other.last := by
            apply le_antisymm
            · apply hother.last_le_of_isFull (hothers.isFull other List.mem_cons_self) hbatch hsame.symm
            · apply hbatch.last_le_of_isFull (h.isFull batch List.mem_cons_self) hother hsame
          have htext : batch.text = other.text := by
            rw [hbatch.text_eq, hother.text_eq, blocksOf, blocksOf, hsame, hlast]
          have hheads : batch = other := by
            cases batch
            cases other
            cases hsame
            cases hlast
            cases htext
            rfl
          rw [hheads] at hrest ⊢
          rw [ih hrest hrest']

/-- Packing gives the only batches that are a packing of the blocks: the numbers of the blocks of its
batches, put together, are those of all blocks in order; the text of a batch is its blocks with a blank
line between them; only a batch of one block is longer than the limit; and the separator and the block
after a batch would make it longer than that. -/
theorem isPacking_iff {batches : List Batch} :
  IsPacking limit blocks batches ↔ batches = pack limit blocks
  := by
  constructor
  · intro h
    apply h.eq (isPacking_pack limit blocks)
  · rintro rfl
    apply isPacking_pack

/-- Two blocks that reach the limit with the separator, and one that is too long alone. -/
example :
  (pack 5 ["ab", "c", "defghi"]).map (fun batch => (batch.first, batch.last)) = [(1, 2), (3, 3)]
  := by decide

end Scrutiny.Batch
