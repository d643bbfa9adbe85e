import Mathlib.Tactic.Use
import Scrutiny.Chunk.Chunker
import Scrutiny.Proofs.Chunk.Definitions
import Scrutiny.Proofs.Chunk.Spans
import Scrutiny.Proofs.Chunk.Units
import Scrutiny.Proofs.Text.ByteIndex

/-!
# Coverage of top-level code

Every line of a text that is not indented and holds code of its own belongs to a chunk.  A line
that no definition takes part of belongs to a run of such lines, the run becomes a chunk since
the line is in it, and the blank lines that the chunk leaves out at its ends are not the line.
What the definitions are does not matter, only that they know the lines they start on, and all
that are found do so, with a syntax tree or without.
-/

namespace Scrutiny

open Text

/-! ### Spans that know their lines -/

/-- A span has the number of the line that it starts on. -/
def Span.KnowsLine (index : LineIndex) (span : Span) : Prop :=
  span.line = index.lineOf span.start

/-- All spans have the numbers of the lines that they start on. -/
def KnowLines (index : LineIndex) (spans : List Span) : Prop :=
  ∀ span ∈ spans, span.KnowsLine index

variable {index : LineIndex}

theorem knowLines_nil :
  KnowLines index []
  := by
  intro span hspan
  cases hspan

namespace Definitions

/-- The span of a definition knows its line, be it all of it or its header. -/
theorem IsCutAlong.knowsLine {start stop : Nat} {span : Span}
    (h : IsCutAlong index start stop span) :
  span.KnowsLine index
  := by
  cases h with
  | whole name kind => rfl
  | header memberStart name => rfl

/-- The spans of the definitions of a file know their lines. -/
theorem knowLines_ofFile (index : LineIndex) (file : Grammar.Tree) :
  KnowLines index (ofFile index file)
  := by
  intro span hspan
  obtain ⟨inner, -, -, hcut⟩ := isCutAlong_of_mem_ofFile hspan
  apply hcut.knowsLine

end Definitions

/-- The spans of units that were found by their lines know these. -/
theorem Fallback.knowLines_spans (text : List Char) (language : Language) :
  KnowLines (LineIndex.ofText text) (spans (LineIndex.ofText text) language)
  := by
  intro span hspan
  obtain ⟨unit, hunit, rfl⟩ := List.mem_map.mp hspan
  have hfound := isFound_of_mem_units hunit
  rw [Span.KnowsLine, LineIndex.lineOf_eq]
  symm
  apply LineIndex.lineFeeds_take_lineStart hfound.first_lt

/-- All spans that are found in a text know their lines. -/
theorem knowLines_definitionSpans (text : List Char) (language : Language) :
  KnowLines (LineIndex.ofText text) (definitionSpans (LineIndex.ofText text) language).1
  := by
  unfold definitionSpans
  split
  · apply Definitions.knowLines_ofFile
  · apply Fallback.knowLines_spans

/-! ### The lines of a chunk -/

theorem Text.LineIndex.lineOf_mono (text : List Char) {a b : Nat} (h : a ≤ b) :
  (LineIndex.ofText text).lineOf a ≤ (LineIndex.ofText text).lineOf b
  := by
  rw [LineIndex.lineOf_eq, LineIndex.lineOf_eq]
  apply List.Sublist.count_le
  apply (List.take_prefix_take_left h).sublist

namespace Assembly

/-- The chunk of a span ends on the line of the end of the span. -/
theorem endLine_eq {text : List Char} {chunk : Chunk} {start stop : Nat} (hle : start ≤ stop)
    (hline : chunk.startLine = (LineIndex.ofText text).lineOf start)
    (htext : chunk.text = String.ofList ((LineIndex.ofText text).slice start stop)) :
  chunk.endLine = (LineIndex.ofText text).lineOf stop
  := by
  have hcount : chunk.lineCount = lineFeeds ((text.take stop).drop start) + 1 := by
    rw [← LineIndex.slice_ofText, ← String.toList_ofList (l := LineIndex.slice ..), ← htext]
    rfl
  have hfront : (text.take stop).take start = text.take start := by
    rw [List.take_take, Nat.min_eq_left hle]
  have hsum := lineFeeds_append ((text.take stop).take start) ((text.take stop).drop start)
  rw [List.take_append_drop, hfront] at hsum
  rw [Chunk.endLine, hline, hcount, LineIndex.lineOf_eq, LineIndex.lineOf_eq, hsum]
  omega

theorem exists_mem_cut (index : LineIndex) (path : String) (seen : List String) {spans : List Span}
    {span : Span} (h : span ∈ spans) :
  ∃ chunk ∈ cut index path seen spans, chunk.startLine = span.line
    ∧ chunk.text = String.ofList (index.slice span.start span.stop)
  := by
  induction spans generalizing seen with
  | nil => cases h
  | cons first rest ih =>
      rw [cut]
      rcases List.mem_cons.mp h with rfl | h
      · exact ⟨_, List.mem_cons_self, rfl, rfl⟩
      · obtain ⟨chunk, hchunk, hparts⟩ := ih (first.name :: seen) h
        use chunk, List.mem_cons_of_mem _ hchunk

variable {text : List Char} {language : Language} {path : String} {spans : List Span}

/-- A selected span that knows its line becomes a chunk with all lines it takes part of. -/
theorem exists_containsLine_of_mem_select {span : Span}
    (hspan : span ∈ select (LineIndex.ofText text) language true spans)
    (hknows : span.KnowsLine (LineIndex.ofText text)) (hle : span.start ≤ span.stop) {line : Nat}
    (hfirst : (LineIndex.ofText text).lineOf span.start ≤ line)
    (hlast : line ≤ (LineIndex.ofText text).lineOf span.stop) :
  ∃ chunk ∈ chunks (LineIndex.ofText text) language true path spans, chunk.containsLine line
  := by
  obtain ⟨chunk, hchunk, hline, htext⟩ := exists_mem_cut (LineIndex.ofText text) path [] hspan
  use chunk, hchunk
  rw [Chunk.containsLine, endLine_eq hle (hline.trans hknows) htext, hline, hknows,
    Bool.and_eq_true]
  use decide_eq_true hfirst, decide_eq_true hlast

theorem mem_select_of_mem_apart {index : LineIndex} {span : Span}
    (h : span ∈ apart 0 (spans.mergeSort spanBefore)) (withModule : Bool) :
  span ∈ select index language withModule spans
  := by
  unfold select
  cases withModule with
  | false => apply h
  | true =>
      apply (List.mergeSort_perm _ _).mem_iff.mpr
      apply List.mem_append_left _ h

theorem mem_select_of_mem_moduleSpans {index : LineIndex} {span : Span}
    (h : span ∈ moduleSpans index language (apart 0 (spans.mergeSort spanBefore))) :
  span ∈ select index language true spans
  := by
  apply (List.mergeSort_perm _ _).mem_iff.mpr
  apply List.mem_append_right _ h

theorem start_lt_stop_of_mem_apart {stop : Nat} {span : Span} (h : span ∈ apart stop spans) :
  span.start < span.stop
  := by
  induction spans generalizing stop with
  | nil => cases h
  | cons first rest ih =>
      rw [apart] at h
      split at h
      · apply ih h
      · rename_i hkeep
        rcases List.mem_cons.mp h with rfl | h
        · simp only [Bool.or_eq_true, decide_eq_true_eq, not_or, Nat.not_le] at hkeep
          apply hkeep.2
        · apply ih h

/-! ### The run of a line -/

/-- Every member of a list belongs to one of its runs. -/
theorem exists_mem_runs {numbers : List Nat} {n : Nat} (h : n ∈ numbers) :
  ∃ run ∈ runs numbers, run.1 ≤ n ∧ n ≤ run.2
  := by
  induction numbers with
  | nil => cases h
  | cons m rest ih =>
      rw [runs]
      cases hruns : runs rest with
      | nil =>
          rcases List.mem_cons.mp h with rfl | h
          · use (n, n), List.mem_cons_self, Nat.le_refl n, Nat.le_refl n
          · obtain ⟨run, hrun, -⟩ := ih h
            simp [hruns] at hrun
      | cons next later =>
          obtain ⟨first, last⟩ := next
          have hnext : first ≤ last :=
            (isRunOf_of_mem_runs (hruns ▸ List.mem_cons_self : (first, last) ∈ runs rest)).le
          rw [hruns] at ih
          dsimp only
          split
          · rename_i hfirst
            obtain rfl : first = m + 1 := by simpa using hfirst
            rcases List.mem_cons.mp h with rfl | h
            · use (n, last), List.mem_cons_self, Nat.le_refl n, Nat.le_of_succ_le hnext
            · obtain ⟨run, hrun, hle, hge⟩ := ih h
              rcases List.mem_cons.mp hrun with rfl | hrun
              · use (m, last), List.mem_cons_self, Nat.le_of_succ_le hle, hge
              · use run, List.mem_cons_of_mem _ hrun, hle, hge
          · rcases List.mem_cons.mp h with rfl | h
            · use (n, n), List.mem_cons_self, Nat.le_refl n, Nat.le_refl n
            · obtain ⟨run, hrun, hle⟩ := ih h
              use run, List.mem_cons_of_mem _ hrun, hle.1, hle.2

/-- The first member of a list with a property is found before any other one. -/
theorem exists_find?_of_mem {r : Nat → Nat → Prop} {numbers : List Nat} (hsorted : numbers.Pairwise r)
    {p : Nat → Bool} {n : Nat} (h : n ∈ numbers) (hp : p n) :
  ∃ m, numbers.find? p = some m ∧ (m = n ∨ r m n)
  := by
  induction numbers with
  | nil => cases h
  | cons first rest ih =>
      obtain ⟨hfirst, hrest⟩ := List.pairwise_cons.mp hsorted
      by_cases hfound : p first = true
      · use first, List.find?_cons_of_pos hfound
        apply (List.mem_cons.mp h).imp Eq.symm (hfirst n)
      · rw [List.find?_cons_of_neg hfound]
        rcases List.mem_cons.mp h with rfl | h
        · contradiction
        · apply ih hrest h

theorem isBlankText_eq_false_of_isSignificant {line : List Char}
    (h : isSignificant language line = true) :
  isBlankText line = false
  := by
  by_contra hblank
  rw [Bool.not_eq_false, isBlankText] at hblank
  have hstart : trimStart line = [] := List.dropWhile_eq_nil_iff.mpr (List.all_eq_true.mp hblank)
  have htrim : trim line = [] := by
    rw [trim, hstart]
    rfl
  simp [isSignificant, htrim] at h

/-- A run with a line that holds code of its own has a span with that line. -/
theorem exists_moduleSpan?_eq_some {index : LineIndex} {first last line : Nat} (hfirst : first ≤ line)
    (hlast : line ≤ last) (hcode : isSignificant language (index.line line) = true) :
  ∃ f l, f ≤ line ∧ line ≤ l ∧ l ≤ last ∧ moduleSpan? index language first last
    = some { name := moduleName, kind := .moduleBlock, start := index.lineStart f,
             stop := index.lineEnd l, line := f }
  := by
  have hmem : line ∈ (List.range (last + 1 - first)).map (first + ·) := by
    apply List.mem_map.mpr
    use line - first
    constructor
    · apply List.mem_range.mpr
      omega
    · omega
  have hbounds : ∀ n ∈ (List.range (last + 1 - first)).map (first + ·), n ≤ last := by
    intro n hn
    obtain ⟨k, hk, rfl⟩ := List.mem_map.mp hn
    have := List.mem_range.mp hk
    omega
  have hsorted : ((List.range (last + 1 - first)).map (first + ·)).Pairwise (· < ·) := by
    apply List.pairwise_map.mpr
    apply List.pairwise_lt_range.imp
    intro a b hab
    omega
  have hfull : (!isBlankText (index.line line)) = true := by
    rw [isBlankText_eq_false_of_isSignificant hcode]
    rfl
  obtain ⟨f, hf, hfle⟩ := exists_find?_of_mem (p := fun n => !isBlankText (index.line n))
    hsorted hmem hfull
  obtain ⟨l, hl, hlle⟩ := exists_find?_of_mem (p := fun n => !isBlankText (index.line n))
    (List.pairwise_reverse.mpr hsorted) (List.mem_reverse.mpr hmem) hfull
  have hfle : f ≤ line := by omega
  have hlle : line ≤ l := by omega
  use f, l, hfle, hlle
  constructor
  · apply hbounds
    apply List.mem_reverse.mp (List.mem_of_find?_eq_some hl)
  · unfold moduleSpan?
    dsimp only
    rw [hf, Option.bind_some, hl, Option.bind_some, if_pos]
    apply List.any_eq_true.mpr
    use line, hmem
    rw [hcode, decide_eq_true hfle, decide_eq_true hlle]
    rfl

/-- A line of code that no definition takes part of belongs to a span of its own. -/
theorem exists_mem_moduleSpans {line : Nat}
    (h : line ∈ uncoveredLines (LineIndex.ofText text) spans)
    (hcode : isSignificant language ((LineIndex.ofText text).line line) = true) :
  ∃ span ∈ moduleSpans (LineIndex.ofText text) language spans,
    span.KnowsLine (LineIndex.ofText text) ∧ span.start ≤ span.stop
    ∧ (LineIndex.ofText text).lineOf span.start ≤ line
    ∧ line ≤ (LineIndex.ofText text).lineOf span.stop
  := by
  obtain ⟨⟨first, last⟩, hrun, hfirst, hlast⟩ := exists_mem_runs h
  obtain ⟨f, l, hf, hl, hllast, hspan⟩ := exists_moduleSpan?_eq_some hfirst hlast hcode
  have hcount : last < (LineIndex.ofText text).lineCount := by
    have hrun := isRunOf_of_mem_runs hrun
    apply (of_mem_uncoveredLines (hrun.mem last hrun.le (Nat.le_refl _))).1
  have hlCount : l < (LineIndex.ofText text).lineCount := Nat.lt_of_le_of_lt hllast hcount
  have hfCount : f < (LineIndex.ofText text).lineCount :=
    Nat.lt_of_le_of_lt (Nat.le_trans hf hl) hlCount
  have hstart : (LineIndex.ofText text).lineOf ((LineIndex.ofText text).lineStart f) = f := by
    rw [LineIndex.lineOf_eq, LineIndex.lineFeeds_take_lineStart hfCount]
  refine ⟨_, List.mem_filterMap.mpr ⟨(first, last), hrun, hspan⟩, ?_, ?_, ?_, ?_⟩
  · apply hstart.symm
  · have hline := LineIndex.lineStart_mono (Nat.le_trans hf hl) hlCount
    apply Nat.le_trans hline (LineIndex.lineStart_le_lineEnd text l)
  · dsimp only
    rw [hstart]
    apply hf
  · apply Nat.le_trans hl
    apply (LineIndex.lineStart_le_iff hlCount).mp (LineIndex.lineStart_le_lineEnd text l)

/-- A line that is covered belongs to one of the spans. -/
theorem exists_of_notMem_uncoveredLines {index : LineIndex} {line : Nat}
    (hline : line < index.lineCount) (h : line ∉ uncoveredLines index spans) :
  ∃ span ∈ spans, index.lineOf span.start ≤ line
    ∧ line ≤ index.lineOf (max (span.stop - 1) span.start)
  := by
  by_contra hnone
  apply h
  apply List.mem_filter.mpr
  use List.mem_range.mpr hline
  rw [Bool.not_eq_true', List.any_eq_false]
  intro range hrange
  obtain ⟨span, hspan, rfl⟩ := List.mem_map.mp hrange
  rw [lineRange, Bool.and_eq_true, decide_eq_true_eq, decide_eq_true_eq]
  intro hcovered
  apply hnone
  use span, hspan

/-- The lines of a span are those of its first and of its last byte. -/
theorem lineOf?_of_isPlaced {text : String} {span : Span} (h : span.IsPlaced text.toList) :
  (ByteIndex.ofText text).lineOf? (byteOffset text.toList span.start)
      = some (lineRange (LineIndex.ofText text.toList) span).1
    ∧ (ByteIndex.ofText text).lineOf? (byteOffset text.toList span.stop - 1)
      = some (lineRange (LineIndex.ofText text.toList) span).2
  := by
  have hlt := h.start_lt_stop
  have hstop := h.stop_le
  have hlast : max (span.stop - 1) span.start = span.stop - 1 := by omega
  constructor
  · apply ByteIndex.lineOf?_ofText (isByteOf_byteOffset (by omega))
  · rw [lineRange, hlast]
    apply ByteIndex.lineOf?_ofText (isByteOf_sub_one (by omega) hstop)

/-! ### Lines of code -/

/-- A line that is not indented, not blank, no comment, does not name another file and is more than
closing brackets with blanks after them. -/
structure IsTopLevelCode (language : Language) (line : List Char) : Prop where
  /-- The line is not indented. -/
  indentWidth_eq : indentWidth line = 0
  /-- The line is not blank. -/
  not_blank : isBlankText line = false
  /-- The line does not start like a comment. -/
  not_comment : ∀ mark ∈ language.commentMarks, ¬ mark.toList <+: line
  /-- The line does not start like one that names another file. -/
  not_import : ∀ mark ∈ language.importMarks, ¬ mark.toList <+: line
  /-- The line holds something that is not a closing bracket, a semicolon or a comma. -/
  not_closers : ∃ c ∈ trimEnd line, c ∉ ['\x7d', ')', ']', ';', ',']

theorem trimStart_eq_of_indentWidth_eq {line : List Char} (h : indentWidth line = 0) :
  trimStart line = line
  := by
  cases line with
  | nil => rfl
  | cons c rest =>
      rw [indentWidth] at h
      split at h
      · split at h
        · omega
        · omega
      · rename_i hblank
        apply List.dropWhile_cons_of_neg hblank

theorem trimEnd_isPrefixOf (line : List Char) :
  trimEnd line <+: line
  := by
  apply List.reverse_suffix.mp
  rw [trimEnd, List.reverse_reverse]
  apply List.dropWhile_suffix

theorem IsTopLevelCode.isSignificant {line : List Char} (h : IsTopLevelCode language line) :
  isSignificant language line = true
  := by
  have htrim : trim line = trimEnd line := by
    rw [trim, trimStart_eq_of_indentWidth_eq h.indentWidth_eq]
  have hstarts {marks : List String} (hmarks : ∀ mark ∈ marks, ¬ mark.toList <+: line) :
      marks.any (startsWith (trimEnd line)) = false := by
    rw [List.any_eq_false]
    intro mark hmark hstart
    apply hmarks mark hmark
    apply (List.isPrefixOf_iff_prefix.mp hstart).trans (trimEnd_isPrefixOf line)
  obtain ⟨c, hc, hother⟩ := h.not_closers
  have hclosers : (trimEnd line).all isCloser = false := by
    rw [List.all_eq_false]
    use c, hc
    simpa [isCloser, and_assoc] using hother
  have hne : (trimEnd line).isEmpty = false := by
    rw [List.isEmpty_eq_false_iff]
    apply List.ne_nil_of_mem hc
  unfold Assembly.isSignificant
  dsimp only
  rw [htrim, h.indentWidth_eq, hne, hstarts h.not_comment, hstarts h.not_import, hclosers]
  rfl

/-- Every line of code at the top of a text belongs to a chunk, whatever the definitions are, as
long as these know their lines. -/
theorem exists_containsLine (hspans : KnowLines (LineIndex.ofText text) spans) {line : Nat}
    (hline : line < (LineIndex.ofText text).lineCount)
    (hcode : IsTopLevelCode language ((LineIndex.ofText text).line line)) :
  ∃ chunk ∈ chunks (LineIndex.ofText text) language true path spans, chunk.containsLine line
  := by
  by_cases huncovered : line ∈ uncoveredLines (LineIndex.ofText text)
      (apart 0 (spans.mergeSort spanBefore))
  · obtain ⟨span, hspan, hknows, hle, hfirst, hlast⟩ :=
      exists_mem_moduleSpans huncovered hcode.isSignificant
    apply exists_containsLine_of_mem_select (mem_select_of_mem_moduleSpans hspan) hknows hle hfirst
      hlast
  · obtain ⟨span, hspan, hfirst, hlast⟩ := exists_of_notMem_uncoveredLines hline huncovered
    have hlt := start_lt_stop_of_mem_apart hspan
    have hknows : span.KnowsLine (LineIndex.ofText text) := by
      apply hspans
      apply (List.mergeSort_perm spans spanBefore).mem_iff.mp (mem_of_mem_apart hspan)
    apply exists_containsLine_of_mem_select (mem_select_of_mem_apart hspan true) hknows
      (Nat.le_of_lt hlt) hfirst
    apply Nat.le_trans hlast
    apply LineIndex.lineOf_mono
    omega

end Assembly

/-- A line with something on it is part of a text with something in it. -/
theorem isBlankText_eq_false_of_line {text : List Char} {line : Nat}
    (h : isBlankText ((LineIndex.ofText text).line line) = false) :
  isBlankText text = false
  := by
  rw [isBlankText, List.all_eq_false] at h ⊢
  obtain ⟨c, hc, hfull⟩ := h
  rw [LineIndex.line, LineIndex.slice_ofText] at hc
  use c, List.mem_of_mem_take (List.mem_of_mem_drop hc)

/-- Every line of code at the top of a text belongs to a chunk: to one of those that are cut along
any definitions that know their lines, and to one of those that the text is cut into, with a
syntax tree or without. -/
theorem chunks_containLine (config : ChunkConfig) (hmodule : config.moduleBlocks = true)
    (path text : String) (language : Language) {line : Nat}
    (hline : line < (LineIndex.ofText text.toList).lineCount)
    (hcode : Assembly.IsTopLevelCode language ((LineIndex.ofText text.toList).line line)) :
  (∀ spans, KnowLines (LineIndex.ofText text.toList) spans →
      ∃ chunk ∈ Assembly.chunks (LineIndex.ofText text.toList) language config.moduleBlocks path
        spans, chunk.containsLine line)
    ∧ (language.hasGrammar → ∃ outcome, chunkText config path text language = .ok outcome
      ∧ ∃ chunk ∈ outcome.chunks, chunk.containsLine line)
  := by
  rw [hmodule]
  constructor
  · intro spans hspans
    apply Assembly.exists_containsLine hspans hline hcode
  · intro hgrammar
    have hblank := isBlankText_eq_false_of_line hcode.not_blank
    unfold chunkText
    dsimp only
    rw [hblank, hgrammar, hmodule]
    refine ⟨_, rfl, ?_⟩
    apply Assembly.exists_containsLine (knowLines_definitionSpans _ _) hline hcode

/-- A text with a class and a call after it. -/
def callText : String := "class A \x7b\n  m() \x7b\x7d\n\x7d\nf(1);\n"

theorem chunks_containLine_callText :
  ChunkConfig.standard.moduleBlocks = true
    ∧ 3 < (LineIndex.ofText callText.toList).lineCount
    ∧ Assembly.IsTopLevelCode .javascript ((LineIndex.ofText callText.toList).line 3)
    ∧ (∃ chunk ∈ Assembly.chunks (LineIndex.ofText callText.toList) .javascript true "a.js" [],
      chunk.containsLine 3)
    ∧ ∃ outcome, chunkText .standard "a.js" callText .javascript = .ok outcome
      ∧ ∃ chunk ∈ outcome.chunks, chunk.containsLine 3
  := by
  have hline : (LineIndex.ofText callText.toList).line 3 = "f(1);".toList := by decide
  have hcount : 3 < (LineIndex.ofText callText.toList).lineCount := by decide
  have hcode : Assembly.IsTopLevelCode .javascript ((LineIndex.ofText callText.toList).line 3) := by
    rw [hline]
    constructor
    · rfl
    · rfl
    · decide
    · decide
    · use 'f'
      decide
  obtain ⟨hspans, htext⟩ := chunks_containLine .standard rfl "a.js" callText .javascript hcount hcode
  use rfl, hcount, hcode, hspans [] knowLines_nil
  apply htext rfl

/-- A text with a class, the last line of which has a blank after the bracket. -/
def closedText : List Char := "class A \x7b\n  m() \x7b\x7d\n\x7d \n".toList

/-- The class up to its member, and the member. -/
def closedSpans : List Span :=
  [{ name := "A", kind := .type, start := 0, stop := 9, line := 0 },
    { name := "A.m", kind := .function, start := 12, stop := 18, line := 1 }]

/-- A line that is more than closing brackets only by the blanks at its end belongs to no chunk. -/
theorem not_containsLine_closedText :
  (∀ span ∈ closedSpans, span.IsPlaced closedText)
    ∧ 2 < (LineIndex.ofText closedText).lineCount
    ∧ indentWidth ((LineIndex.ofText closedText).line 2) = 0
    ∧ isBlankText ((LineIndex.ofText closedText).line 2) = false
    ∧ (∀ mark ∈ Language.javascript.commentMarks ++ Language.javascript.importMarks,
      ¬ mark.toList <+: (LineIndex.ofText closedText).line 2)
    ∧ (∃ c ∈ (LineIndex.ofText closedText).line 2, c ∉ ['\x7d', ')', ']', ';', ','])
    ∧ ∀ chunk ∈ Assembly.chunks (LineIndex.ofText closedText) .javascript true "a.js" closedSpans,
      chunk.containsLine 2 = false
  := by
  have hline : (LineIndex.ofText closedText).line 2 = ['\x7d', ' '] := by decide
  have hplaced : ∀ span ∈ closedSpans, span.IsPlaced closedText := by
    intro span hspan
    rcases List.mem_cons.mp hspan with rfl | hspan
    · constructor
      · decide
      · decide
      · decide
    · rw [List.mem_singleton.mp hspan]
      constructor
      · decide
      · decide
      · decide
  -- The spans are in order, and so are those that become chunks, for no line has a span of its own.
  have hsort : closedSpans.mergeSort Assembly.spanBefore = closedSpans :=
    List.mergeSort_of_pairwise (by decide)
  have hsort' : closedSpans.mergeSort (fun a b => a.start ≤ b.start) = closedSpans :=
    List.mergeSort_of_pairwise (by decide)
  have hapart : Assembly.apart 0 closedSpans = closedSpans := by decide
  have hmodule : Assembly.moduleSpans (LineIndex.ofText closedText) .javascript closedSpans = [] := by
    decide
  have hchunks : Assembly.chunks (LineIndex.ofText closedText) .javascript true "a.js" closedSpans
      = Assembly.cut (LineIndex.ofText closedText) "a.js" [] closedSpans := by
    rw [Assembly.chunks, Assembly.select, hsort, hapart, if_pos rfl, hmodule, List.append_nil, hsort']
  rw [hline]
  use hplaced, by decide, rfl, rfl, by decide, ⟨' ', by decide, by decide⟩
  rw [hchunks]
  decide

end Scrutiny
