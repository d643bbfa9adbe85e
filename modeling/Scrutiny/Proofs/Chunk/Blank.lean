import Mathlib.Data.List.Infix
import Mathlib.Tactic.Use
import Scrutiny.Proofs.Chunk.Coverage
import Scrutiny.Proofs.Chunk.Degraded
import Scrutiny.Proofs.Chunk.Guard
import Scrutiny.Proofs.Grammar.Definitions

/-!
# Blank chunks

Each chunk that a text is cut into has something in it: a definition starts with a character that is
not blank, what is left of a class in front of its first member is trimmed at its end, and a unit
that was found by its lines and code outside of definitions start with lines that are not blank.

The size guard keeps all lines of a chunk that is too large.  So it may return a part with nothing
in it: blank lines that had no room in the parts before and after them, or blanks in the middle of a
line that is too long by itself.
-/

namespace Scrutiny

open Text

/-! ### Blank texts -/

theorem isBlankText_eq_false_iff {text : List Char} :
  isBlankText text = false ↔ ∃ c ∈ text, isBlank c = false
  := by
  simp [isBlankText]

theorem isBlankText_append (front back : List Char) :
  isBlankText (front ++ back) = (isBlankText front && isBlankText back)
  := List.all_append

/-- What has something in it that is not blank is not blank. -/
theorem isBlankText_eq_false_of_isInfix {part text : List Char} (h : part <:+: text)
    (hfull : isBlankText part = false) :
  isBlankText text = false
  := by
  obtain ⟨c, hc, hblank⟩ := isBlankText_eq_false_iff.mp hfull
  apply isBlankText_eq_false_iff.mpr
  use c, h.mem hc

/-- Lines are blank together if each of them is. -/
theorem isBlankText_joinWith (lines : List (List Char)) :
  isBlankText (joinWith ['\n'] lines) = lines.all isBlankText
  := by
  induction lines with
  | nil => rfl
  | cons line rest ih =>
      cases rest with
      | nil => simp [joinWith]
      | cons next later =>
          have hjoin : joinWith ['\n'] (line :: next :: later)
              = line ++ '\n' :: joinWith ['\n'] (next :: later) := by simp [joinWith]
          rw [hjoin, isBlankText_append, List.all_cons, ← ih]
          rfl

/-! ### Definitions -/

namespace Definitions

open Grammar

variable {text : List Char} {start stop : Nat} {span : Span}

/-- What is left of a text when it is trimmed at its end is not blank. -/
theorem not_blank_of_trimEnd_ne_nil {line : List Char} (h : trimEnd line ≠ []) :
  isBlankText (trimEnd line) = false
  := by
  apply isBlankText_eq_false_iff.mpr
  use (trimEnd line).getLast h, List.getLast_mem h
  apply Bool.eq_false_iff.mpr
  apply List.rdropWhile_last_not isBlank line h

/-- A header is trimmed at its end. -/
theorem slice_headerSpan (text : List Char) (start memberStart : Nat) (name : String) :
  ∃ header, (headerSpan (LineIndex.ofText text) start memberStart name).stop
      = start + (trimEnd header).length
    ∧ (LineIndex.ofText text).slice start (start + (trimEnd header).length) = trimEnd header
  := by
  unfold headerSpan
  dsimp only
  generalize (if start < _ then _ else memberStart) = cut
  use (LineIndex.ofText text).slice start cut, rfl
  have hfront : trimEnd ((LineIndex.ofText text).slice start cut) <+: text.drop start := by
    apply (Assembly.trimEnd_isPrefixOf _).trans
    rw [LineIndex.slice_ofText]
    apply List.IsPrefix.drop (List.take_prefix cut text)
  rw [LineIndex.slice_ofText, List.drop_take, Nat.add_sub_cancel_left]
  apply (List.prefix_iff_eq_take.mp hfront).symm

theorem not_blank_of_isCutAlong (hfull : start < stop → isFullAt text start)
    (h : IsCutAlong (LineIndex.ofText text) start stop span) (hlt : span.start < span.stop) :
  isBlankText ((LineIndex.ofText text).slice span.start span.stop) = false
  := by
  cases h with
  | whole name kind =>
      obtain ⟨c, hc, hblank⟩ := isFullAt_iff.mp (hfull hlt)
      apply isBlankText_eq_false_iff.mpr
      refine ⟨c, ?_, hblank⟩
      rw [LineIndex.slice_ofText]
      apply List.mem_of_getElem? (i := 0)
      rw [List.getElem?_drop, Nat.add_zero, List.getElem?_take_of_lt hlt]
      apply hc
  | header memberStart name =>
      obtain ⟨header, hstop, hslice⟩ := slice_headerSpan text start memberStart name
      have hne : trimEnd header ≠ [] := by
        apply List.ne_nil_of_length_pos
        rw [hstop] at hlt
        apply Nat.lt_add_right_iff_pos.mp hlt
      rw [hstop]
      change isBlankText ((LineIndex.ofText text).slice start _) = false
      rw [hslice]
      apply not_blank_of_trimEnd_ne_nil hne

/-- The spans of a tree whose definitions start with something are not blank, unless they are
empty. -/
theorem not_blank_of_mem_ofFile {file : Tree} (hfile : file.IsFull text)
    (h : span ∈ ofFile (LineIndex.ofText text) file) (hlt : span.start < span.stop) :
  isBlankText ((LineIndex.ofText text).slice span.start span.stop) = false
  := by
  obtain ⟨inner, hholds, hkind, hcut⟩ := isCutAlong_of_mem_ofFile h
  apply not_blank_of_isCutAlong (hfile inner hholds hkind) hcut hlt

end Definitions

/-! ### Lines -/

namespace Text.LineIndex

variable {text : List Char}

theorem slice_isInfix {first last start stop : Nat} (hstart : start ≤ first) (hstop : last ≤ stop) :
  (ofText text).slice first last <:+: (ofText text).slice start stop
  := by
  rw [slice_ofText, slice_ofText]
  have hback : (text.take last).drop first <:+ (text.take last).drop start :=
    List.drop_suffix_drop_left _ hstart
  have hfront : (text.take last).drop start <+: (text.take stop).drop start :=
    List.IsPrefix.drop (List.take_prefix_take_left hstop) start
  apply hback.isInfix.trans hfront.isInfix

/-- Lines are not blank if the first of them is not. -/
theorem not_blank_of_line {first last : Nat} (hle : first ≤ last)
    (hlast : last < (ofText text).lineCount) (h : isBlankText ((ofText text).line first) = false) :
  isBlankText ((ofText text).slice ((ofText text).lineStart first) ((ofText text).lineEnd last))
    = false
  := by
  apply isBlankText_eq_false_of_isInfix _ h
  apply slice_isInfix (Nat.le_refl _)
  apply lineEnd_mono hle hlast

end Text.LineIndex

/-- The spans of units that were found by their lines are not blank. -/
theorem Fallback.not_blank_of_mem_spans {text : List Char} {language : Language} {span : Span}
    (h : span ∈ spans (LineIndex.ofText text) language) :
  isBlankText ((LineIndex.ofText text).slice span.start span.stop) = false
  := by
  obtain ⟨unit, hunit, rfl⟩ := List.mem_map.mp h
  have hwithin := (inOrder_units (LineIndex.ofText text) language).isWithin unit hunit
  apply LineIndex.not_blank_of_line hwithin.first_le_last hwithin.last_lt hwithin.not_blank

/-- The spans that are found in a text are not blank, unless they are empty. -/
theorem not_blank_of_mem_definitionSpans {text : List Char} {language : Language} {span : Span}
    (h : span ∈ (definitionSpans (LineIndex.ofText text) language).1)
    (hlt : span.start < span.stop) :
  isBlankText ((LineIndex.ofText text).slice span.start span.stop) = false
  := by
  unfold definitionSpans at h
  split at h
  · rename_i file htree
    apply Definitions.not_blank_of_mem_ofFile (Grammar.isFull_of_syntaxTree htree) h hlt
  · apply Fallback.not_blank_of_mem_spans h

namespace Assembly

variable {text : List Char} {language : Language} {spans : List Span} {withModule : Bool}

/-- If spans are not blank unless they are empty, no span that becomes a chunk is blank. -/
theorem not_blank_of_mem_select
    (hspans : ∀ span ∈ spans, span.start < span.stop →
      isBlankText ((LineIndex.ofText text).slice span.start span.stop) = false) {span : Span}
    (h : span ∈ select (LineIndex.ofText text) language withModule spans) :
  isBlankText ((LineIndex.ofText text).slice span.start span.stop) = false
  := by
  rcases mem_apart_of_mem_select h with h | h
  · apply hspans span _ (start_lt_stop_of_mem_apart h)
    apply (List.mergeSort_perm spans spanBefore).mem_iff.mp (mem_of_mem_apart h)
  · obtain ⟨first, last, hcovers⟩ := of_mem_moduleSpans h
    rw [hcovers.start_eq, hcovers.stop_eq]
    apply LineIndex.not_blank_of_line hcovers.run.le hcovers.last_lt_lineCount hcovers.first_full

theorem exists_isCutFrom_of_mem_cut {index : LineIndex} {path : String} {seen : List String}
    {chunk : Chunk} (h : chunk ∈ cut index path seen spans) :
  ∃ span ∈ spans, IsCutFrom index path span chunk
  := by
  induction spans generalizing seen with
  | nil => cases h
  | cons first rest ih =>
      rcases List.mem_cons.mp h with rfl | h
      · use first, List.mem_cons_self, seen
      · obtain ⟨span, hspan, hcut⟩ := ih h
        use span, List.mem_cons_of_mem _ hspan

/-- If spans are not blank unless they are empty, no chunk is blank. -/
theorem not_blank_of_mem_chunks
    (hspans : ∀ span ∈ spans, span.start < span.stop →
      isBlankText ((LineIndex.ofText text).slice span.start span.stop) = false) {path : String}
    {chunk : Chunk} (h : chunk ∈ chunks (LineIndex.ofText text) language withModule path spans) :
  isBlankText chunk.text.toList = false
  := by
  obtain ⟨span, hspan, seen, rfl⟩ := exists_isCutFrom_of_mem_cut h
  rw [Chunk.ofFile, String.toList_ofList]
  apply not_blank_of_mem_select hspans hspan

end Assembly

/-! ### Parts -/

namespace SizeGuard

variable {clustersOf : List Char → List (List Char)} {ceiling : Nat}

/-- Characters are those of whole lines of a kind, one or more in a row. -/
def AreLines (p : List Char → Prop) (lines : List (List Char)) (chars : List Char) : Prop :=
  ∃ before run after, lines = before ++ (run ++ after) ∧ run ≠ [] ∧ (∀ line ∈ run, p line)
    ∧ chars = joinWith ['\n'] run

/-- Characters are a piece of a line that is too long by itself. -/
def AreInLongLine (ceiling : Nat) (lines : List (List Char)) (chars : List Char) : Prop :=
  ∃ line ∈ lines, ceiling < line.length ∧ chars <:+: line ∧ chars ≠ []

/-- The lines of the next part come first if the first of them is not too long. -/
theorem split_of_le {line : Nat} {first : List Char} {rest : List (List Char)}
    (hfits : first.length ≤ ceiling) :
  split clustersOf ceiling line (first :: rest)
    = { line, chars := joinWith ['\n'] ((first :: rest).take (partSize ceiling first rest)) }
      :: split clustersOf ceiling (line + partSize ceiling first rest)
        ((first :: rest).drop (partSize ceiling first rest))
  := by
  rw [split, if_neg (Nat.not_lt.mpr hfits)]

/-- A part consists of whole lines that fit, or is a piece of a line that is too long. -/
theorem of_mem_split (hsegments : IsSegmentation clustersOf) (hceiling : 1 ≤ ceiling) {line : Nat}
    {lines : List (List Char)} {part : Part} (h : part ∈ split clustersOf ceiling line lines) :
  AreLines (fun _ => True) lines part.chars ∨ AreInLongLine ceiling lines part.chars
  := by
  induction line, lines using split.induct ceiling with
  | case1 line => simp [split] at h
  | case2 line first rest hlong ih =>
      rw [split, if_pos hlong] at h
      rcases List.mem_append.mp h with h | h
      · right
        obtain ⟨piece, hpiece, rfl⟩ := List.mem_map.mp h
        use first, List.mem_cons_self, hlong
        have hinfix := List.infix_of_mem_flatten hpiece
        rw [flatten_splitLine hsegments] at hinfix
        use hinfix, (of_mem_splitLine hsegments hceiling hpiece).1
      · rcases ih h with ⟨before, run, after, rfl, hrun⟩ | ⟨line, hline, hpiece⟩
        · left
          use first :: before, run, after, rfl
        · right
          use line, List.mem_cons_of_mem _ hline
  | case3 line first rest hfits size ih =>
      have hall := List.take_append_drop size (first :: rest)
      rw [split_of_le (Nat.not_lt.mp hfits)] at h
      rcases List.mem_cons.mp h with rfl | h
      · left
        use [], (first :: rest).take size, (first :: rest).drop size, hall.symm
        have hsize := Nat.ne_of_gt (partSize_pos ceiling first rest)
        simp [size, hsize]
      · rcases ih h with ⟨before, run, after, hdrop, hrun⟩ | ⟨line, hline, hpiece⟩
        · left
          use (first :: rest).take size ++ before, run, after
          rw [List.append_assoc, ← hdrop, hall]
          use rfl
        · right
          use line, List.mem_of_mem_drop hline

/-- A line with blanks at its end may leave a piece with nothing in it. -/
example :
  splitLine Cluster.clusters 5 "x = 1     ".toList = ["x = 1".toList, "     ".toList]
  := by decide +kernel

/-- Lines that are blank together are blank. -/
theorem AreLines.of_blank {lines : List (List Char)} {chars : List Char}
    (h : AreLines (fun _ => True) lines chars) (hblank : isBlankText chars = true) :
  AreLines (fun line => isBlankText line = true) lines chars
  := by
  obtain ⟨before, run, after, hlines, hrun, -, rfl⟩ := h
  rw [isBlankText_joinWith, List.all_eq_true] at hblank
  use before, run, after

/-- One of the parts of a text that is not blank is not blank. -/
theorem Tiles.exists_not_blank {line : Nat} {text : List Char} {parts : List Part}
    (h : Tiles line text parts) (hfull : isBlankText text = false) :
  ∃ part ∈ parts, isBlankText part.chars = false
  := by
  induction h with
  | whole line chars => exact ⟨_, List.mem_cons_self, hfull⟩
  | sameLine _ _ _ ih | nextLine _ ih =>
      rw [isBlankText_append, Bool.and_eq_false_iff] at hfull
      rcases hfull with hfirst | hrest
      · exact ⟨_, List.mem_cons_self, hfirst⟩
      · obtain ⟨part, hpart, hnot⟩ := ih hrest
        use part, List.mem_cons_of_mem _ hpart

/-- The guard returns something that is not blank for a chunk that is not. -/
theorem exists_not_blank_of_guardBy (hsegments : IsSegmentation clustersOf) (maxChars : Nat)
    {chunk : Chunk} (h : isBlankText chunk.text.toList = false) :
  ∃ part ∈ guardBy clustersOf maxChars chunk, isBlankText part.text.toList = false
  := by
  rcases Nat.lt_or_ge (ceilingOf maxChars) chunk.size with hlarge | hfits
  · obtain ⟨p, hp, hnot⟩ := (tiles_splitAt hsegments maxChars chunk.text.toList).exists_not_blank h
    obtain ⟨i, hi⟩ := List.mem_iff_getElem?.mp hp
    rw [guardBy_of_lt hsegments hlarge]
    use part chunk (1 + i) p
    constructor
    · apply List.mem_of_getElem? (i := i)
      rw [getElem?_numbered, hi]
      rfl
    · rw [text_part, hnot]
  · rw [guardBy_of_le hfits]
    use chunk, List.mem_singleton_self chunk

/-- A part that is blank comes from a chunk that is too large: it consists of blank lines, or is a
piece of a line that is too long. -/
theorem of_blank_of_mem_guardBy (hsegments : IsSegmentation clustersOf) {maxChars : Nat}
    {chunk part : Chunk} (h : isBlankText chunk.text.toList = false)
    (hpart : part ∈ guardBy clustersOf maxChars chunk)
    (hblank : isBlankText part.text.toList = true) :
  ceilingOf maxChars < chunk.size
    ∧ (AreLines (fun line => isBlankText line = true) (splitAt '\n' chunk.text.toList)
        part.text.toList
      ∨ AreInLongLine (ceilingOf maxChars) (splitAt '\n' chunk.text.toList) part.text.toList)
  := by
  rcases Nat.lt_or_ge (ceilingOf maxChars) chunk.size with hlarge | hfits
  · use hlarge
    rw [guardBy_of_lt hsegments hlarge] at hpart
    obtain ⟨i, hi⟩ := List.mem_iff_getElem?.mp hpart
    rw [getElem?_numbered] at hi
    obtain ⟨p, hp, rfl⟩ := Option.map_eq_some_iff.mp hi
    rw [text_part] at hblank ⊢
    apply (of_mem_split hsegments (one_le_ceilingOf maxChars) (List.mem_of_getElem? hp)).imp_left
    intro hlines
    apply hlines.of_blank hblank
  · rw [guardBy_of_le hfits] at hpart
    rw [List.mem_singleton.mp hpart, h] at hblank
    cases hblank

end SizeGuard

/-- Of a text that is not blank no chunk is blank before the size guard: along any tree the definitions
of which start with something, and as the text is read.  The guard returns something that is not
blank for each chunk.  What it returns is blank only if it is a part of a chunk that is too large, and
then it consists of whole blank lines of the chunk, or is a piece of a line of the chunk that is too
long by itself: the guard keeps all lines. -/
theorem chunkGuarded_not_blank (config : ChunkConfig) (path text : String) (language : Language)
    (hfull : isBlankText text.toList = false) :
  (∀ file : Grammar.Tree, file.IsFull text.toList →
      ∀ chunk ∈ Assembly.chunks (LineIndex.ofText text.toList) language config.moduleBlocks path
        (Definitions.ofFile (LineIndex.ofText text.toList) file),
      isBlankText chunk.text.toList = false)
    ∧ (language.hasGrammar = false →
      chunkGuarded config path text language = .error (.unsupported language))
    ∧ (language.hasGrammar → ∃ whole, chunkText config path text language = .ok whole
      ∧ chunkGuarded config path text language
        = .ok { whole with chunks := whole.chunks.flatMap (SizeGuard.guard config.maxChars) }
      ∧ ∀ chunk ∈ whole.chunks, isBlankText chunk.text.toList = false
        ∧ (∃ part ∈ SizeGuard.guard config.maxChars chunk, isBlankText part.text.toList = false)
        ∧ ∀ part ∈ SizeGuard.guard config.maxChars chunk, isBlankText part.text.toList = true →
          SizeGuard.ceilingOf config.maxChars < chunk.size
            ∧ (SizeGuard.AreLines (fun line => isBlankText line = true)
                (splitAt '\n' chunk.text.toList) part.text.toList
              ∨ SizeGuard.AreInLongLine (SizeGuard.ceilingOf config.maxChars)
                (splitAt '\n' chunk.text.toList) part.text.toList))
  := by
  refine ⟨?_, ?_, ?_⟩
  · intro file hfile chunk hmem
    apply Assembly.not_blank_of_mem_chunks _ hmem
    apply fun span => Definitions.not_blank_of_mem_ofFile hfile
  · intro hgrammar
    simp [chunkGuarded, chunkText, hfull, hgrammar]
  · intro hgrammar
    have hchunk : chunkText config path text language = .ok
        { chunks := Assembly.chunks (LineIndex.ofText text.toList) language config.moduleBlocks path
            (definitionSpans (LineIndex.ofText text.toList) language).1,
          degraded := (definitionSpans (LineIndex.ofText text.toList) language).2 } := by
      simp [chunkText, hfull, hgrammar]
    refine ⟨_, hchunk, ?_, ?_⟩
    · rw [chunkGuarded, hchunk]
      rfl
    · intro chunk hmem
      have hnot := Assembly.not_blank_of_mem_chunks (fun _ => not_blank_of_mem_definitionSpans) hmem
      use hnot, SizeGuard.exists_not_blank_of_guardBy SizeGuard.isSegmentation_clusters _ hnot
      intro part hpart hblank
      apply SizeGuard.of_blank_of_mem_guardBy SizeGuard.isSegmentation_clusters hnot hpart hblank

/-- Two lines with a blank one between them. -/
def partedText : String := "x = 1\n\ny = 2\n"

/-- The chunk of the text. -/
def partedChunk : Chunk :=
  { id := "a.py:<module>", name := "<module>", text := "x = 1\n\ny = 2", startLine := 0,
    kind := .moduleBlock }

theorem chunkText_partedText :
  chunkText { maxChars := 5, moduleBlocks := true } "a.py" partedText .python
    = .ok { chunks := [partedChunk], degraded := none }
  := by
  have hspans : definitionSpans (LineIndex.ofText partedText.toList) .python = ([], none) := by
    decide +kernel
  have hselect : Assembly.select (LineIndex.ofText partedText.toList) .python true []
      = [{ name := "<module>", kind := .moduleBlock, start := 0, stop := 12, line := 0 }] := by
    have hmodule : Assembly.moduleSpans (LineIndex.ofText partedText.toList) .python []
        = [{ name := "<module>", kind := .moduleBlock, start := 0, stop := 12, line := 0 }] := by
      decide +kernel
    simp [Assembly.select, Assembly.apart, hmodule]
  have hfull : isBlankText partedText.toList = false := by decide
  simp [chunkText, hspans, hfull, Assembly.chunks, hselect, Language.hasGrammar]
  rfl

/-- The blank line has no room in either of the other parts. -/
theorem guard_partedChunk :
  (SizeGuard.guard 5 partedChunk).map (·.text) = ["x = 1", "", "y = 2"]
  := by
  have hlarge : SizeGuard.ceilingOf 5 < partedChunk.size := by decide
  have hlines : splitAt '\n' partedChunk.text.toList = ["x = 1".toList, [], "y = 2".toList] := by
    decide
  have hfirst : SizeGuard.partSize (SizeGuard.ceilingOf 5) "x = 1".toList [[], "y = 2".toList]
      = 1 := by decide
  have hsecond : SizeGuard.partSize (SizeGuard.ceilingOf 5) [] ["y = 2".toList] = 1 := by decide
  have hthird : SizeGuard.partSize (SizeGuard.ceilingOf 5) "y = 2".toList [] = 1 := by decide
  have hsplit : SizeGuard.split Cluster.clusters (SizeGuard.ceilingOf 5) 0
      ["x = 1".toList, [], "y = 2".toList]
      = [{ line := 0, chars := "x = 1".toList }, { line := 1, chars := [] },
        { line := 2, chars := "y = 2".toList }] := by
    rw [SizeGuard.split_of_le (by decide), hfirst, List.drop_succ_cons, List.drop_zero,
      SizeGuard.split_of_le (by decide), hsecond, List.drop_succ_cons, List.drop_zero,
      SizeGuard.split_of_le (by decide), hthird, List.drop_succ_cons, List.drop_zero,
      SizeGuard.split]
    rfl
  rw [SizeGuard.guard, SizeGuard.guardBy_of_lt SizeGuard.isSegmentation_clusters hlarge, hlines,
    hsplit]
  decide

/-- A chunk that the guard returns may be blank. -/
theorem not_not_blank_partedText :
  ¬ ∀ (config : ChunkConfig) (path text : String) (language : Language) (outcome : ChunkOutcome),
    isBlankText text.toList = false → chunkGuarded config path text language = .ok outcome →
    ∀ chunk ∈ outcome.chunks, isBlankText chunk.text.toList = false
  := by
  intro hall
  have hguarded : chunkGuarded { maxChars := 5, moduleBlocks := true } "a.py" partedText .python
      = .ok { chunks := SizeGuard.guard 5 partedChunk, degraded := none } := by
    simp [chunkGuarded, chunkText_partedText, SizeGuard.guardAll]
  have hmem : "" ∈ (SizeGuard.guard 5 partedChunk).map (·.text) := by
    rw [guard_partedChunk]
    decide
  obtain ⟨part, hpart, htext⟩ := List.mem_map.mp hmem
  have hnot := hall _ _ _ _ _ (by decide) hguarded part hpart
  rw [htext] at hnot
  cases hnot

theorem chunkGuarded_not_blank_partedText :
  isBlankText partedText.toList = false ∧ Language.python.hasGrammar = true
    ∧ (∃ part ∈ SizeGuard.guard 5 partedChunk, isBlankText part.text.toList = false)
    ∧ ∃ part ∈ SizeGuard.guard 5 partedChunk,
      SizeGuard.AreLines (fun line => isBlankText line = true)
        (splitAt '\n' partedChunk.text.toList) part.text.toList
      ∨ SizeGuard.AreInLongLine 5 (splitAt '\n' partedChunk.text.toList) part.text.toList
  := by
  have hfull : isBlankText partedText.toList = false := by decide
  obtain ⟨whole, hwhole, -, hchunks⟩ := (chunkGuarded_not_blank
    { maxChars := 5, moduleBlocks := true } "a.py" partedText .python hfull).2.2 rfl
  rw [chunkText_partedText] at hwhole
  obtain rfl := Except.ok.inj hwhole
  obtain ⟨-, hsome, hparts⟩ := hchunks partedChunk List.mem_cons_self
  use hfull, rfl, hsome
  have hmem : "" ∈ (SizeGuard.guard 5 partedChunk).map (·.text) := by
    rw [guard_partedChunk]
    decide
  obtain ⟨part, hpart, htext⟩ := List.mem_map.mp hmem
  use part, hpart
  apply (hparts part hpart _).2
  rw [htext]
  rfl

end Scrutiny
