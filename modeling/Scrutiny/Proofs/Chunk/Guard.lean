import Scrutiny.Proofs.Chunk.Parts

/-!
# The size guard loses nothing

A chunk that is not too large stays as it is.  Any other chunk is cut into numbered parts,
none of which is too large.  The lines on which the parts start and end tell how they are to
be put together again, and that gives the text of the chunk.
-/

namespace Scrutiny.SizeGuard

open Text

/-- What stands between a part and the next one: nothing if the next one starts on the line that
the part ends on, and a line feed if it starts on the line after that. -/
def gap? (part next : Chunk) : Option (List Char) :=
  if next.startLine = part.endLine then some []
  else if next.startLine = part.endLine + 1 then some ['\n']
  else none

/-- The text that parts were cut from. -/
def rejoin? : List Chunk → Option (List Char)
  | [] => some []
  | [part] => some part.text.toList
  | part :: next :: rest =>
    (gap? part next).bind fun gap => (rejoin? (next :: rest)).map fun later =>
      part.text.toList ++ (gap ++ later)

/-- The chunk `part` is the one with the index `i` among the parts that a chunk was cut into: it
has the next number, and it starts as many lines below the chunk as the chunk has line feeds
before it. -/
structure IsPart (chunk : Chunk) (parts : List Chunk) (i : Nat) (part : Chunk) : Prop where
  /-- Its id is numbered. -/
  id_eq : part.id = chunk.id ++ "#" ++ toString (i + 1)
  /-- Its name is numbered. -/
  name_eq : part.name = chunk.name ++ "#" ++ toString (i + 1)
  /-- It is of the same kind. -/
  kind_eq : part.kind = chunk.kind
  /-- It starts on the line where it stands in the chunk. -/
  place : ∃ before after, chunk.text.toList = before ++ (part.text.toList ++ after)
    ∧ rejoin? (parts.take (i + 1)) = some (before ++ part.text.toList)
    ∧ part.startLine = chunk.startLine + lineFeeds before

/-! ### Numbered parts -/

theorem getElem?_numbered (chunk : Chunk) (n i : Nat) (parts : List Part) :
  (numbered chunk n parts)[i]? = parts[i]?.map (part chunk (n + i))
  := by
  induction parts generalizing n i with
  | nil => rfl
  | cons p rest ih =>
      cases i with
      | zero => rfl
      | succ i =>
          rw [numbered, List.getElem?_cons_succ, List.getElem?_cons_succ, ih]
          congr 2
          omega

theorem take_numbered (chunk : Chunk) (n count : Nat) (parts : List Part) :
  (numbered chunk n parts).take count = numbered chunk n (parts.take count)
  := by
  induction parts generalizing n count with
  | nil => simp [numbered]
  | cons p rest ih =>
      cases count with
      | zero => rfl
      | succ count => rw [numbered, List.take_succ_cons, List.take_succ_cons, numbered, ih]

theorem text_part (chunk : Chunk) (n : Nat) (p : Part) :
  (part chunk n p).text.toList = p.chars
  := String.toList_ofList

theorem endLine_part (chunk : Chunk) (n : Nat) (p : Part) :
  (part chunk n p).endLine = chunk.startLine + p.line + lineFeeds p.chars
  := by
  rw [Chunk.endLine, Chunk.lineCount, text_part]
  rfl

theorem Tiles.exists_cons {line : Nat} {text : List Char} {parts : List Part}
    (h : Tiles line text parts) :
  ∃ chars rest, parts = { line, chars } :: rest
  := by
  cases h with
  | whole => use text, []
  | @sameLine _ chars text parts => use chars, parts
  | @nextLine _ chars text parts => use chars, parts

/-- Numbered parts that tile a text are put together to that text. -/
theorem rejoin?_numbered (chunk : Chunk) (n : Nat) {line : Nat} {text : List Char}
    {parts : List Part} (h : Tiles line text parts) :
  rejoin? (numbered chunk n parts) = some text
  := by
  induction h generalizing n with
  | whole line chars => simp only [numbered, rejoin?, text_part]
  | @sameLine line chars text parts hchars hnext hparts ih =>
      have ih := ih (n + 1)
      obtain ⟨next, rest, rfl⟩ := hparts.exists_cons
      have hgap : gap? (part chunk n { line, chars })
          (part chunk (n + 1) { line := line + lineFeeds chars, chars := next }) = some [] := by
        rw [gap?, endLine_part, if_pos]
        apply (Nat.add_assoc _ _ _).symm
      rw [numbered] at ih
      rw [numbered, numbered, rejoin?, hgap, ih, text_part]
      rfl
  | @nextLine line chars text parts hparts ih =>
      have ih := ih (n + 1)
      obtain ⟨next, rest, rfl⟩ := hparts.exists_cons
      have hstart : (part chunk (n + 1)
          { line := line + lineFeeds chars + 1, chars := next }).startLine
          = (part chunk n { line, chars }).endLine + 1 := by
        rw [endLine_part]
        simp only [part]
        omega
      have hgap : gap? (part chunk n { line, chars })
          (part chunk (n + 1) { line := line + lineFeeds chars + 1, chars := next })
          = some ['\n'] := by
        rw [gap?, hstart, if_neg (by omega), if_pos rfl]
      rw [numbered] at ih
      rw [numbered, numbered, rejoin?, hgap, ih, text_part]
      rfl

/-! ### The guard -/

variable {clustersOf : List Char → List (List Char)}

theorem one_le_ceilingOf (maxChars : Nat) :
  1 ≤ ceilingOf maxChars
  := Nat.le_max_right _ _

/-- The parts of a text tile it. -/
theorem tiles_splitAt (hsegments : IsSegmentation clustersOf) (maxChars : Nat) (text : List Char) :
  Tiles 0 text (split clustersOf (ceilingOf maxChars) 0 (splitAt '\n' text))
  := by
  have h := tiles_split hsegments (one_le_ceilingOf maxChars) 0 (splitAt_ne_nil '\n' text)
    (fun _ hline => not_mem_of_mem_splitAt hline)
  rwa [joinWith_splitAt] at h

theorem guardBy_of_le {maxChars : Nat} {chunk : Chunk} (h : chunk.size ≤ ceilingOf maxChars) :
  guardBy clustersOf maxChars chunk = [chunk]
  := if_pos h

/-- A chunk that is too large is cut into more than one part. -/
theorem guardBy_of_lt (hsegments : IsSegmentation clustersOf) {maxChars : Nat} {chunk : Chunk}
    (h : ceilingOf maxChars < chunk.size) :
  guardBy clustersOf maxChars chunk
    = numbered chunk 1 (split clustersOf (ceilingOf maxChars) 0 (splitAt '\n' chunk.text.toList))
  := by
  have htiles := tiles_splitAt hsegments maxChars chunk.text.toList
  rw [guardBy, if_neg (Nat.not_le.mpr h)]
  apply if_neg
  -- A single part would be the whole text, which is too large for a part.
  intro hone
  obtain ⟨chars, rest, hparts⟩ := htiles.exists_cons
  obtain rfl : rest = [] := by
    rw [hparts, List.length_cons] at hone
    apply List.eq_nil_of_length_eq_zero
    omega
  rw [hparts] at htiles
  have hwhole := htiles.eq_of_singleton
  have hmem : { line := 0, chars } ∈ split clustersOf (ceilingOf maxChars) 0
      (splitAt '\n' chunk.text.toList) := by
    rw [hparts]
    apply List.mem_singleton_self
  have hsize := length_le_of_mem_split hsegments (one_le_ceilingOf maxChars) hmem
  dsimp only at hsize hwhole
  rw [hwhole] at hsize
  apply Nat.not_le.mpr h hsize

theorem guardBy_ne_nil (hsegments : IsSegmentation clustersOf) (maxChars : Nat) (chunk : Chunk) :
  guardBy clustersOf maxChars chunk ≠ []
  := by
  rcases Nat.lt_or_ge (ceilingOf maxChars) chunk.size with h | h
  · obtain ⟨chars, rest, hparts⟩ := (tiles_splitAt hsegments maxChars chunk.text.toList).exists_cons
    rw [guardBy_of_lt hsegments h, hparts, numbered]
    apply List.cons_ne_nil
  · rw [guardBy_of_le h]
    apply List.cons_ne_nil

theorem size_le_of_mem_guardBy (hsegments : IsSegmentation clustersOf) {maxChars : Nat}
    {chunk small : Chunk} (h : small ∈ guardBy clustersOf maxChars chunk) :
  small.size ≤ ceilingOf maxChars
  := by
  rcases Nat.lt_or_ge (ceilingOf maxChars) chunk.size with hlarge | hfits
  · rw [guardBy_of_lt hsegments hlarge] at h
    obtain ⟨i, hi⟩ := List.mem_iff_getElem?.mp h
    rw [getElem?_numbered] at hi
    obtain ⟨p, hp, rfl⟩ := Option.map_eq_some_iff.mp hi
    rw [Chunk.size, text_part]
    apply length_le_of_mem_split hsegments (one_le_ceilingOf maxChars) (List.mem_of_getElem? hp)
  · rw [guardBy_of_le hfits, List.mem_singleton] at h
    rwa [h]

/-- The parts of a chunk that is too large are numbered and know their lines. -/
theorem isPart_of_getElem?_guardBy (hsegments : IsSegmentation clustersOf) {maxChars : Nat}
    {chunk small : Chunk} (h : ceilingOf maxChars < chunk.size) {i : Nat}
    (hi : (guardBy clustersOf maxChars chunk)[i]? = some small) :
  IsPart chunk (guardBy clustersOf maxChars chunk) i small
  := by
  rw [guardBy_of_lt hsegments h] at hi ⊢
  rw [getElem?_numbered] at hi
  obtain ⟨p, hp, rfl⟩ := Option.map_eq_some_iff.mp hi
  obtain ⟨before, after, htext, hline, htiles⟩ :=
    (tiles_splitAt hsegments maxChars chunk.text.toList).take hp
  have hnumber : 1 + i = i + 1 := Nat.add_comm 1 i
  constructor
  · rw [← hnumber]
    rfl
  · rw [← hnumber]
    rfl
  · rfl
  · use before, after
    rw [text_part, take_numbered]
    use htext, rejoin?_numbered chunk 1 htiles
    simp [part, hline]

/-- The guard returns at least one chunk and none that is too large; it keeps a chunk that is not
too large, and cuts any other one into numbered parts that can be put together again. -/
theorem guardBy_lossless (hsegments : IsSegmentation clustersOf) (maxChars : Nat) (chunk : Chunk) :
  guardBy clustersOf maxChars chunk ≠ []
    ∧ (∀ part ∈ guardBy clustersOf maxChars chunk, part.size ≤ max maxChars 1)
    ∧ (chunk.size ≤ max maxChars 1 → guardBy clustersOf maxChars chunk = [chunk])
    ∧ (max maxChars 1 < chunk.size →
      (∀ i part, (guardBy clustersOf maxChars chunk)[i]? = some part →
        IsPart chunk (guardBy clustersOf maxChars chunk) i part)
      ∧ rejoin? (guardBy clustersOf maxChars chunk) = some chunk.text.toList)
  := by
  use guardBy_ne_nil hsegments maxChars chunk
  use fun _ hpart => size_le_of_mem_guardBy hsegments hpart
  use guardBy_of_le
  intro hlarge
  use fun _ _ hpart => isPart_of_getElem?_guardBy hsegments hlarge hpart
  rw [guardBy_of_lt hsegments hlarge]
  apply rejoin?_numbered chunk 1 (tiles_splitAt hsegments maxChars chunk.text.toList)

/-- A function of two lines, the second of which is too long for a part. -/
def longSecondLine : Chunk :=
  { id := "a.py:f", name := "f", text := "ab\ncdefg", startLine := 7, kind := .function }

theorem guardBy_lossless_longSecondLine :
  IsSegmentation Cluster.clusters ∧ max 4 1 < longSecondLine.size
    ∧ (∀ part ∈ guardBy Cluster.clusters 4 longSecondLine, part.size ≤ 4)
    ∧ rejoin? (guardBy Cluster.clusters 4 longSecondLine) = some "ab\ncdefg".toList
  := by
  have hlarge : max 4 1 < longSecondLine.size := by decide
  obtain ⟨-, hsize, -, hparts⟩ := guardBy_lossless isSegmentation_clusters 4 longSecondLine
  use isSegmentation_clusters, hlarge, hsize, (hparts hlarge).2

end Scrutiny.SizeGuard
