import Mathlib.Data.List.Forall2
import Scrutiny.Proofs.Chunk.Guard
import Scrutiny.Proofs.Chunk.Spans
import Scrutiny.Review.Issue

/-!
# Where chunks stand in their file

Every chunk of a file, and every part of a chunk that was too large, is a piece of the file, and
the pieces come one after the other.  The line with the number `k` of a chunk belongs to the
line of the file whose number is that of the first line of the chunk plus `k`.
-/

namespace Scrutiny

open Text

/-- The offsets from one to before another one. -/
structure TextRange where
  /-- The first offset. -/
  start : Nat
  /-- The offset after the last one. -/
  stop : Nat

/-- A chunk is what a text has at a range, and knows the line it starts on. -/
structure Chunk.StandsAt (text : List Char) (chunk : Chunk) (range : TextRange) : Prop where
  /-- The range ends after its start. -/
  start_le_stop : range.start ≤ range.stop
  /-- The range lies inside the text. -/
  stop_le : range.stop ≤ text.length
  /-- The chunk has the characters of the text at the range. -/
  text_eq : chunk.text.toList = (text.take range.stop).drop range.start
  /-- The chunk starts after as many line feeds as its line says. -/
  line_eq : chunk.startLine = lineFeeds (text.take range.start)

namespace Chunk.StandsAt

/-- A chunk stands where its characters are found. -/
theorem ofAppend {chunk : Chunk} {before chars : List Char} (after : List Char)
    (hchars : chunk.text.toList = chars) (hline : chunk.startLine = lineFeeds before) :
  chunk.StandsAt (before ++ (chars ++ after)) ⟨before.length, before.length + chars.length⟩
  := by
  constructor
  · apply Nat.le_add_right
  · simp only [List.length_append]
    omega
  · rw [← List.append_assoc, ← List.length_append, List.take_left, List.drop_left, hchars]
  · rw [List.take_left, hline]

/-- The text has something before a chunk, then the characters of the chunk, and something after
it. -/
theorem exists_append {text : List Char} {chunk : Chunk} {range : TextRange}
    (h : chunk.StandsAt text range) :
  ∃ before after, text = before ++ (chunk.text.toList ++ after)
    ∧ range.start = before.length ∧ range.stop = before.length + chunk.text.toList.length
    ∧ chunk.startLine = lineFeeds before
  := by
  have hstop := h.stop_le
  have hstart := h.start_le_stop
  use text.take range.start, text.drop range.stop
  constructor
  · have hfront : (text.take range.stop).take range.start = text.take range.start := by
      rw [List.take_take, Nat.min_eq_left hstart]
    rw [h.text_eq, ← List.append_assoc, ← hfront, List.take_append_drop, List.take_append_drop]
  constructor
  · rw [List.length_take]
    omega
  constructor
  · rw [h.text_eq, List.length_drop, List.length_take, List.length_take]
    omega
  · apply h.line_eq

/-- Nothing of a line stands before one that comes right after a line feed. -/
theorem eq_nil_of_append_eq {before front start left : List Char}
    (h : before ++ front = start ++ left) (hleft : '\n' ∉ left)
    (hfront : front.getLast? = some '\n') :
  left = []
  := by
  rcases List.eq_nil_or_concat' left with rfl | ⟨left, last, rfl⟩
  · rfl
  · have hlast := congrArg List.getLast? h
    rw [List.getLast?_append, hfront, ← List.append_assoc, List.getLast?_concat] at hlast
    obtain rfl : '\n' = last := by simpa using hlast
    simp at hleft

/-- Nothing of a line stands after one that comes right before a line feed. -/
theorem eq_nil_of_eq_append {back after right stop : List Char}
    (h : back ++ after = right ++ stop) (hright : '\n' ∉ right)
    (hback : back.head? = some '\n') :
  right = []
  := by
  obtain ⟨back, rfl⟩ := List.head?_eq_some_iff.mp hback
  cases right with
  | nil => rfl
  | cons first right =>
      obtain ⟨rfl, -⟩ := List.cons.inj h
      simp at hright

/-- A line of a chunk is part of a line of the file, and it is that whole line unless it is the
first or the last one of the chunk. -/
theorem exists_line {text : List Char} {chunk : Chunk} {range : TextRange}
    (h : chunk.StandsAt text range) {k : Nat} {line : List Char}
    (hk : (splitAt '\n' chunk.text.toList)[k]? = some line) :
  ∃ whole, (splitAt '\n' text)[chunk.startLine + k]? = some whole ∧ line <:+: whole
    ∧ (0 < k → k + 1 < chunk.lineCount → line = whole)
  := by
  obtain ⟨before, after, rfl, -, -, hline⟩ := h.exists_append
  obtain ⟨front, back, htext, hfront, hisLine⟩ := getElem?_splitAt_iff.mp hk
  -- The line is made longer by what the file has of it before and after the chunk.
  obtain ⟨start, left, hleft, hleft_unbroken, hstart⟩ := exists_lineStart (before ++ front)
  obtain ⟨right, stop, hright, hright_unbroken, hstop⟩ := exists_lineEnd (back ++ after)
  use left ++ line ++ right
  constructor
  · apply getElem?_splitAt_iff.mpr
    use start, stop
    constructor
    · calc before ++ (chunk.text.toList ++ after)
          = (before ++ front) ++ line ++ (back ++ after) := by rw [htext]; simp
        _ = start ++ (left ++ line ++ right ++ stop) := by rw [hleft, hright]; simp
    constructor
    · have hcount := congrArg lineFeeds hleft
      rw [lineFeeds_append, lineFeeds_append, lineFeeds_eq_zero.mpr hleft_unbroken] at hcount
      omega
    · use by simp [hleft_unbroken, hisLine.unbroken, hright_unbroken]
  constructor
  · use left, right
  · intro hk_pos hk_lt
    have hcount : chunk.lineCount = lineFeeds chunk.text.toList + 1 := rfl
    rw [hcount, htext, lineFeeds_append, lineFeeds_append,
      lineFeeds_eq_zero.mpr hisLine.unbroken, hfront] at hk_lt
    obtain rfl : left = [] := by
      apply eq_nil_of_append_eq hleft hleft_unbroken (hisLine.starts.resolve_left _)
      rintro rfl
      simp [← hfront] at hk_pos
    obtain rfl : right = [] := by
      apply eq_nil_of_eq_append hright hright_unbroken (hisLine.ends.resolve_left _)
      rintro rfl
      simp at hk_lt
    simp

end Chunk.StandsAt

/-! ### Chunks one after the other -/

/-- Chunks stand at ranges that come one after the other between two offsets.  If the order is
`strict`, each range starts before the next one does, even if it is empty. -/
structure LaidOut (strict : Prop) (text : List Char) (start stop : Nat) (chunks : List Chunk)
    (ranges : List TextRange) : Prop where
  /-- Each chunk stands at its range. -/
  standsAt : List.Forall₂ (Chunk.StandsAt text) chunks ranges
  /-- The ranges are in order and do not overlap. -/
  inOrder : ranges.Pairwise fun a b => a.stop ≤ b.start ∧ (strict → a.start < b.start)
  /-- The ranges lie between the two offsets. -/
  within : ∀ range ∈ ranges, start ≤ range.start ∧ range.stop ≤ stop
    ∧ (strict → range.start < stop)

namespace LaidOut

variable {strict : Prop} {text : List Char}

theorem nil (strict : Prop) (text : List Char) (start stop : Nat) :
  LaidOut strict text start stop [] []
  := by
  constructor
  · apply List.Forall₂.nil
  · apply List.Pairwise.nil
  · simp

/-- One chunk between two offsets. -/
theorem singleton {chunk : Chunk} {range : TextRange} (h : chunk.StandsAt text range) {stop : Nat}
    (hstop : range.stop ≤ stop) (hstrict : strict → range.start < stop) :
  LaidOut strict text range.start stop [chunk] [range]
  := by
  constructor
  · apply List.Forall₂.cons h .nil
  · apply List.pairwise_singleton
  · intro other hother
    rw [List.mem_singleton.mp hother]
    use Nat.le_refl _, hstop

/-- Chunks between two offsets, followed by chunks between two later ones. -/
theorem append {start stop start' stop' : Nat} {chunks others : List Chunk}
    {ranges otherRanges : List TextRange} (h : LaidOut strict text start stop chunks ranges)
    (hothers : LaidOut strict text start' stop' others otherRanges) (hstart : start ≤ start')
    (hstop : stop ≤ start') (hend : start' ≤ stop') :
  LaidOut strict text start stop' (chunks ++ others) (ranges ++ otherRanges)
  := by
  constructor
  · apply List.rel_append h.standsAt hothers.standsAt
  · apply List.pairwise_append.mpr
    use h.inOrder, hothers.inOrder
    intro a ha b hb
    obtain ⟨-, hastop, hastrict⟩ := h.within a ha
    obtain ⟨hbstart, -, -⟩ := hothers.within b hb
    constructor
    · omega
    · intro hs
      have := hastrict hs
      omega
  · intro range hrange
    rcases List.mem_append.mp hrange with hrange | hrange
    · obtain ⟨hfirst, hlast, hlt⟩ := h.within range hrange
      use hfirst, by omega
      intro hs
      have := hlt hs
      omega
    · obtain ⟨hfirst, hlast, hlt⟩ := hothers.within range hrange
      use by omega, hlast

/-- The offset that the chunks come after may be an earlier one. -/
theorem of_le {start start' stop : Nat} {chunks : List Chunk} {ranges : List TextRange}
    (h : LaidOut strict text start stop chunks ranges) (hle : start' ≤ start) :
  LaidOut strict text start' stop chunks ranges
  := by
  use h.standsAt, h.inOrder
  intro range hrange
  obtain ⟨hfirst, hlast⟩ := h.within range hrange
  use Nat.le_trans hle hfirst, hlast.1, hlast.2

/-- A chunk in front of chunks that come after it. -/
theorem cons {chunk : Chunk} {range : TextRange} {start stop : Nat} {others : List Chunk}
    {ranges : List TextRange} (h : chunk.StandsAt text range)
    (hothers : LaidOut strict text start stop others ranges) (hstop : range.stop ≤ start)
    (hstrict : strict → range.start < start) (hend : start ≤ stop) :
  LaidOut strict text range.start stop (chunk :: others) (range :: ranges)
  := by
  have hle := h.start_le_stop
  apply (singleton h hstop hstrict).append hothers _ (Nat.le_refl _) hend
  omega

end LaidOut

namespace SizeGuard

variable {strict : Prop}

/-- Parts that tile a piece of a text stand in it one after the other.  They do so strictly if the
piece does not end with a line feed, which may leave an empty part behind. -/
theorem Tiles.exists_laidOut (chunk : Chunk) (n : Nat) {line : Nat} {inner before after : List Char}
    {parts : List Part} (h : Tiles line inner parts)
    (hline : chunk.startLine + line = lineFeeds before)
    (hstrict : strict → inner ≠ [] ∧ inner.getLast? ≠ some '\n') :
  ∃ ranges, LaidOut strict (before ++ (inner ++ after)) before.length
    (before.length + inner.length) (numbered chunk n parts) ranges
  := by
  induction h generalizing n before with
  | whole line chars =>
      use [⟨before.length, before.length + chars.length⟩]
      apply LaidOut.singleton (Chunk.StandsAt.ofAppend after (text_part chunk n ⟨line, chars⟩) hline) (Nat.le_refl _)
      intro hs
      apply Nat.lt_add_of_pos_right
      apply List.length_pos_of_ne_nil (hstrict hs).1
  | @sameLine line chars text parts hchars hnext hparts ih =>
      have hrest : strict → text ≠ [] ∧ text.getLast? ≠ some '\n' := by
        intro hs
        have htext := hparts.text_ne_nil hnext
        use htext
        have hlast := (hstrict hs).2
        rwa [List.getLast?_append_of_ne_nil _ htext] at hlast
      have hline' : chunk.startLine + (line + lineFeeds chars) = lineFeeds (before ++ chars) := by
        rw [lineFeeds_append]
        omega
      obtain ⟨ranges, hranges⟩ := ih (n + 1) hline' hrest
      use ⟨before.length, before.length + chars.length⟩ :: ranges
      simp only [List.append_assoc, List.length_append] at hranges ⊢
      rw [← Nat.add_assoc]
      apply LaidOut.cons (Chunk.StandsAt.ofAppend (text ++ after) (text_part chunk n ⟨line, chars⟩) hline) hranges
      · apply Nat.le_refl
      · intro hs
        apply Nat.lt_add_of_pos_right
        apply List.length_pos_of_ne_nil hchars
      · apply Nat.le_add_right
  | @nextLine line chars text parts hparts ih =>
      have hrest : strict → text ≠ [] ∧ text.getLast? ≠ some '\n' := by
        intro hs
        have hlast := (hstrict hs).2
        cases text with
        | nil => simp at hlast
        | cons c text =>
            use List.cons_ne_nil _ _
            rwa [List.getLast?_append_of_ne_nil _ (List.cons_ne_nil _ _),
              List.getLast?_cons_cons] at hlast
      have hline' : chunk.startLine + (line + lineFeeds chars + 1)
          = lineFeeds (before ++ (chars ++ ['\n'])) := by
        rw [lineFeeds_append, lineFeeds_append, lineFeeds_cons, if_pos rfl, lineFeeds_nil]
        omega
      obtain ⟨ranges, hranges⟩ := ih (n + 1) hline' hrest
      use ⟨before.length, before.length + chars.length⟩ :: ranges
      simp only [List.append_assoc, List.cons_append, List.nil_append, List.length_append,
        List.length_cons, List.length_nil] at hranges ⊢
      have hstop : before.length + (chars.length + (text.length + 1))
          = before.length + (chars.length + (0 + 1)) + text.length := by
        omega
      rw [hstop]
      apply LaidOut.cons (Chunk.StandsAt.ofAppend ('\n' :: (text ++ after)) (text_part chunk n ⟨line, chars⟩) hline) hranges
      · dsimp only
        omega
      · intro hs
        dsimp only
        omega
      · apply Nat.le_add_right

/-- The parts of a chunk stand one after the other where the chunk does. -/
theorem exists_laidOut_guard (maxChars : Nat) {text : List Char} {chunk : Chunk}
    {range : TextRange} (h : chunk.StandsAt text range)
    (hstrict : strict → chunk.text.toList ≠ [] ∧ chunk.text.toList.getLast? ≠ some '\n') :
  ∃ ranges, LaidOut strict text range.start range.stop (guard maxChars chunk) ranges
  := by
  obtain ⟨before, after, rfl, hstart, hstop, hline⟩ := h.exists_append
  rcases Nat.lt_or_ge (ceilingOf maxChars) chunk.size with hlarge | hfits
  · rw [guard, guardBy_of_lt isSegmentation_clusters hlarge, hstart, hstop]
    apply (tiles_splitAt isSegmentation_clusters maxChars chunk.text.toList).exists_laidOut
    · apply hline
    · apply hstrict
  · rw [guard, guardBy_of_le hfits]
    use [range]
    apply LaidOut.singleton h (Nat.le_refl _)
    intro hs
    have := List.length_pos_of_ne_nil (hstrict hs).1
    omega

end SizeGuard

namespace Assembly

variable {strict : Prop} {text : List Char}

/-- The chunk of a span stands where the span is. -/
theorem standsAt_ofFile (path name : String) {span : Span} (h : span.IsPlaced text) :
  (Chunk.ofFile path name
    (String.ofList ((LineIndex.ofText text).slice span.start span.stop)) span.line
    span.kind).StandsAt text ⟨span.start, span.stop⟩
  := by
  constructor
  · apply Nat.le_of_lt h.start_lt_stop
  · apply h.stop_le
  · rw [← LineIndex.slice_ofText]
    apply String.toList_ofList
  · apply h.line_eq

/-- A span that does not end with a line feed has characters, the last of which is none. -/
theorem getLast?_slice_ne {span : Span} (h : span.IsPlaced text)
    (hlast : text[span.stop - 1]? ≠ some '\n') :
  (LineIndex.ofText text).slice span.start span.stop ≠ []
    ∧ ((LineIndex.ofText text).slice span.start span.stop).getLast? ≠ some '\n'
  := by
  have hlt := h.start_lt_stop
  have hle := h.stop_le
  have hlength : ((text.take span.stop).drop span.start).length = span.stop - span.start := by
    rw [List.length_drop, List.length_take, Nat.min_eq_left hle]
  rw [LineIndex.slice_ofText]
  constructor
  · apply List.ne_nil_of_length_pos
    omega
  · rw [List.getLast?_eq_getElem?, hlength, List.getElem?_drop, List.getElem?_take_of_lt (by omega)]
    convert hlast using 2
    omega

/-- The guarded chunks of spans that lie one after the other do so, too. -/
theorem exists_laidOut_guardAll_cut (path : String) (maxChars : Nat) (seen : List String)
    {start : Nat} (hstart : start ≤ text.length) {spans : List Span}
    (hplaced : ∀ span ∈ spans, start ≤ span.start ∧ span.IsPlaced text)
    (hinOrder : spans.Pairwise fun a b => a.stop ≤ b.start)
    (hstrict : strict → ∀ span ∈ spans, text[span.stop - 1]? ≠ some '\n') :
  ∃ ranges, LaidOut strict text start text.length
    (SizeGuard.guardAll maxChars (cut (LineIndex.ofText text) path seen spans)) ranges
  := by
  induction spans generalizing start seen with
  | nil =>
      use []
      apply LaidOut.nil
  | cons span rest ih =>
      obtain ⟨⟨hfirst, hspan⟩, hrest⟩ := List.forall_mem_cons.mp hplaced
      obtain ⟨hbefore, hinOrder⟩ := List.pairwise_cons.mp hinOrder
      obtain ⟨ranges, hranges⟩ := SizeGuard.exists_laidOut_guard maxChars
        (standsAt_ofFile path (uniqueName seen span.name) hspan)
        fun hs => by
          have := getLast?_slice_ne hspan (hstrict hs span (List.mem_cons_self ..))
          simpa [Chunk.ofFile] using this
      obtain ⟨others, hothers⟩ := ih (span.name :: seen) hspan.stop_le
        (fun other hother => ⟨hbefore other hother, (hrest other hother).2⟩) hinOrder
        (fun hs other hother => hstrict hs other (List.mem_cons_of_mem _ hother))
      use ranges ++ others
      apply LaidOut.of_le _ hfirst
      apply hranges.append hothers (Nat.le_of_lt hspan.start_lt_stop) (Nat.le_refl _) hspan.stop_le

end Assembly

/-! ### The chunks of a file -/

/-- The lines of a chunk are those of the file: the line with the number `k` is part of the line
that comes `k` lines after the first one, and the whole of it unless it is the first or the last
line of the chunk.  An issue on a line of the chunk is an issue on that line of the file. -/
structure Chunk.KeepsLines (text : List Char) (chunk : Chunk) : Prop where
  /-- Lines of the chunk are lines of the file. -/
  line : ∀ k line, (splitAt '\n' chunk.text.toList)[k]? = some line →
    ∃ whole, (splitAt '\n' text)[chunk.startLine + k]? = some whole ∧ line <:+: whole
      ∧ (0 < k → k + 1 < chunk.lineCount → line = whole)
  /-- Issues have lines of the file, where these can be counted. -/
  issue : text.length + 1 < Nat.pow 2 64 → ∀ issue : Issue, issue.lineOffset < chunk.lineCount →
    issue.lineFrom? chunk.startLine = some (chunk.startLine + issue.lineOffset + 1)

theorem Chunk.StandsAt.keepsLines {text : List Char} {chunk : Chunk} {range : TextRange}
    (h : chunk.StandsAt text range) :
  chunk.KeepsLines text
  := by
  constructor
  · intro k line hk
    apply h.exists_line hk
  · intro hlength issue hissue
    have hcount : issue.lineOffset < (splitAt '\n' chunk.text.toList).length := by
      rw [length_splitAt]
      apply hissue
    obtain ⟨whole, hwhole, -⟩ := h.exists_line (List.getElem?_eq_getElem hcount)
    have hlt := (List.getElem?_eq_some_iff.mp hwhole).1
    have hle : lineFeeds text ≤ text.length := List.count_le_length
    rw [length_splitAt] at hlt
    apply if_pos
    omega

/-- A text with a line of code and a function. -/
def sampleText : List Char := "x = 1\ndef f():\n  return 1\n".toList

/-- The function of the text. -/
def sampleSpan : Span :=
  { name := "f", kind := .function, start := 6, stop := 25, line := 1 }

-- The first definition ends with a line feed and the second one starts with one, so each has an
-- empty part, and both of these stand at the same offset.
example : (SizeGuard.guardAll 1 (Assembly.chunks (LineIndex.ofText "a\n\nb".toList) .python false
    "a.py" [{ name := "f", kind := .function, start := 0, stop := 2, line := 0 },
      { name := "g", kind := .function, start := 2, stop := 4, line := 1 }])).map
    (fun chunk => (chunk.text, chunk.startLine)) = [("a", 0), ("", 1), ("", 1), ("b", 2)]
  := by
  cbv

end Scrutiny
