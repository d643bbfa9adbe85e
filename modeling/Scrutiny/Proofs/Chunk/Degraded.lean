import Mathlib.Tactic.Use
import Scrutiny.Chunk.Chunker
import Scrutiny.Proofs.Chunk.Indentation
import Scrutiny.Proofs.Chunk.Spans

/-!
# Chunks without a syntax tree

Of a text that cannot be read with a grammar no unit is lost.  The units cover ranges of whole
lines, one after the other and none of them empty, whatever the text is: a scope ends before the
next definition starts, and a unit with braces is opened only while no other one is open.  So their
spans are apart, all of them are kept when chunks are made, and each unit becomes one chunk.
-/

namespace Scrutiny

open Text

namespace Fallback

variable {index : LineIndex} {language : Language} {line : List Char} {kind : ChunkKind}
  {name : String} {n m : Nat}

/-! ### Lines that start a unit -/

theorem blanks_eq_of_isBlankText (h : isBlankText line = true) :
  Step.blanks line = some []
  := by
  rw [Step.blanks, List.dropWhile_eq_nil_iff.mpr (List.all_eq_true.mp h)]

theorem functionBinding?_eq_none (h : isBlankText line = true) :
  functionBinding? line = none
  := by
  unfold functionBinding?
  simp only [Step.andThen, blanks_eq_of_isBlankText h]
  rfl

theorem scriptDeclaration?_eq_none (h : isBlankText line = true) :
  scriptDeclaration? line = none
  := by
  unfold scriptDeclaration?
  rw [functionBinding?_eq_none h]
  simp only [List.foldl_cons, List.foldl_nil, Step.andThen, blanks_eq_of_isBlankText h]
  rfl

theorem rustModifiers_nil (fuel : Nat) :
  rustModifiers fuel [] = []
  := by
  cases fuel with
  | zero => rfl
  | succ fuel => rfl

theorem rustDeclaration?_eq_none (h : isBlankText line = true) :
  rustDeclaration? line = none
  := by
  unfold rustDeclaration?
  have hstart : Step.andThen Step.blanks (Step.optional <| Step.andThen (Step.word "pub") <|
      Step.andThen (Step.optional (Step.enclosed '(' ')')) Step.someBlanks) line = some [] := by
    rw [Step.andThen, blanks_eq_of_isBlankText h]
    rfl
  dsimp only
  rw [hstart, Option.bind_some, rustModifiers_nil]
  rfl

/-- No unit starts on a blank line. -/
theorem not_blank_of_declaration? (h : declaration? language line = some (kind, name)) :
  isBlankText line = false
  := by
  by_contra hblank
  rw [Bool.not_eq_false] at hblank
  rw [declaration?, rustDeclaration?_eq_none hblank, scriptDeclaration?_eq_none hblank, ite_self] at h
  cases h

theorem not_blank_of_header? (h : header? line = some (kind, name)) :
  isBlankText line = false
  := by
  obtain ⟨c, later, htrim, hblank, -⟩ := exists_trimStart_eq h
  have hc : c ∈ trimStart line := by
    rw [htrim]
    apply List.mem_cons_self
  rw [isBlankText, List.all_eq_false]
  use c, (List.dropWhile_suffix isBlank).subset hc
  rw [hblank]
  decide

theorem kind_of_rustDeclaration? (h : rustDeclaration? line = some (kind, name)) :
  kind ≠ .moduleBlock
  := by
  unfold rustDeclaration? at h
  dsimp only at h
  obtain ⟨visible, -, h⟩ := Option.bind_eq_some_iff.mp h
  obtain ⟨⟨mark, later⟩, -, h⟩ := Option.bind_eq_some_iff.mp h
  obtain ⟨path, -, h⟩ := Option.map_eq_some_iff.mp h
  rw [← (Prod.mk.inj h).1]
  split
  · decide
  · decide

theorem kind_of_scriptDeclaration? (h : scriptDeclaration? line = some (kind, name)) :
  kind ≠ .moduleBlock
  := by
  unfold scriptDeclaration? at h
  split at h
  · rw [← (Prod.mk.inj (Option.some.inj h)).1]
    decide
  · dsimp only at h
    obtain ⟨rest, -, h⟩ := Option.bind_eq_some_iff.mp h
    obtain ⟨⟨found, later⟩, hfound, h⟩ := Option.map_eq_some_iff.mp h
    have hsame : found = kind := by
      dsimp only at h
      split at h
      · exact (Prod.mk.inj h).1
      · exact (Prod.mk.inj h).1
    simp only [Option.or_eq_some_iff, Option.map_eq_some_iff, Prod.mk.injEq] at hfound
    rw [← hsame]
    rintro rfl
    simp at hfound

/-- What a line starts is no code outside of definitions. -/
theorem kind_of_declaration? (h : declaration? language line = some (kind, name)) :
  kind ≠ .moduleBlock
  := by
  unfold declaration? at h
  split at h
  · apply kind_of_rustDeclaration? h
  · apply kind_of_scriptDeclaration? h

/-! ### Ranges of lines -/

/-- A unit covers a range of lines before the line `n`, and the first of them is not blank. -/
structure LineUnit.IsWithin (index : LineIndex) (n : Nat) (unit : LineUnit) : Prop where
  /-- The range is not empty. -/
  first_le_last : unit.first ≤ unit.last
  /-- The range ends before the line. -/
  last_lt : unit.last < n
  /-- The unit is a definition. -/
  kind_ne : unit.kind ≠ .moduleBlock
  /-- There is something on the first line. -/
  not_blank : isBlankText (index.line unit.first) = false

theorem LineUnit.IsWithin.mono {unit : LineUnit} (h : unit.IsWithin index n) (hle : n ≤ m) :
  unit.IsWithin index m
  := ⟨h.first_le_last, Nat.lt_of_lt_of_le h.last_lt hle, h.kind_ne, h.not_blank⟩

/-- Units cover ranges of lines before the line `n`, one after the other. -/
structure InOrder (index : LineIndex) (n : Nat) (units : List LineUnit) : Prop where
  /-- The units cover ranges of lines. -/
  isWithin : ∀ unit ∈ units, unit.IsWithin index n
  /-- Each unit ends before the next one starts. -/
  apart : units.Pairwise fun a b => a.last < b.first

/-- The definition of a scope covers a range of lines. -/
theorem isWithin_of_scopeUnit? {j : Nat} {unit : LineUnit} (h : scopeUnit? index j = some unit)
    (hj : j < index.lineCount) :
  unit.IsWithin index index.lineCount
  := by
  obtain ⟨⟨own, hheader⟩, hfirst, hlast⟩ := of_scopeUnit?_eq_some h
  have hstop := lt_stopLine unit.kind hj
  constructor
  · rw [hfirst, hlast]
    apply le_lastCodeBefore (isCode_of_header? hheader) hstop
  · rw [hlast]
    apply Nat.lt_of_lt_of_le _ (stopLine_le_lineCount index j unit.kind)
    apply lastCodeBefore_lt (Nat.zero_lt_of_lt hstop)
  · rcases kind_of_header? hheader with hkind | hkind
    · rw [hkind]
      decide
    · rw [hkind]
      decide
  · rw [hfirst]
    apply not_blank_of_header? hheader

/-- A definition by indentation ends before the next one starts. -/
theorem last_lt_first {a b : LineUnit} (ha : scopeUnit? index a.first = some a)
    (hb : scopeUnit? index b.first = some b) (hlt : a.first < b.first)
    (hcount : a.first < index.lineCount) :
  a.last < b.first
  := by
  obtain ⟨⟨own, hheader⟩, -, hlast⟩ := of_scopeUnit?_eq_some ha
  have hstop := stopLine_le hheader hlt (Option.isSome_of_mem hb)
  rw [hlast]
  apply Nat.lt_of_lt_of_le _ hstop
  apply lastCodeBefore_lt (Nat.zero_lt_of_lt (lt_stopLine a.kind hcount))

theorem pairwise_mergeSort_first (units : List LineUnit) :
  (units.mergeSort fun a b => a.first ≤ b.first).Pairwise fun a b => a.first ≤ b.first
  := by
  have hsorted : (units.mergeSort fun a b => a.first ≤ b.first).Pairwise
      fun a b => decide (a.first ≤ b.first) = true := by
    apply List.pairwise_mergeSort
    · intro a b c hab hbc
      apply decide_eq_true
      apply Nat.le_trans (of_decide_eq_true hab) (of_decide_eq_true hbc)
    · intro a b
      simp [Nat.le_total a.first b.first]
  apply hsorted.imp
  intro a b hab
  apply of_decide_eq_true hab

/-- The units by indentation come one after the other once they are sorted. -/
theorem inOrder_indentationUnits (index : LineIndex) :
  InOrder index index.lineCount
    ((indentationUnits index).mergeSort fun a b => a.first ≤ b.first)
  := by
  obtain ⟨hunits, hfirsts⟩ := indentationUnits_spec index
  have hperm := List.mergeSort_perm (indentationUnits index) fun a b => a.first ≤ b.first
  have hunit {unit : LineUnit}
      (h : unit ∈ (indentationUnits index).mergeSort fun a b => a.first ≤ b.first) :
      scopeUnit? index unit.first = some unit ∧ unit.first < index.lineCount := by
    have hmem := hperm.mem_iff.mp h
    use hunits unit hmem
    have hrange := hfirsts.mem_iff.mp (List.mem_map_of_mem hmem)
    apply List.mem_range.mp (List.mem_filter.mp hrange).1
  constructor
  · intro unit h
    apply isWithin_of_scopeUnit? (hunit h).1 (hunit h).2
  · -- No two of them start on the same line.
    have hnodup : (((indentationUnits index).mergeSort fun a b => a.first ≤ b.first).map
        (·.first)).Nodup := by
      apply ((hperm.map _).trans hfirsts).nodup_iff.mpr
      apply List.Pairwise.filter _ List.nodup_range
    apply ((pairwise_mergeSort_first _).and (List.pairwise_map.mp hnodup)).imp_of_mem
    rintro a b ha hb ⟨hle, hne⟩
    apply last_lt_first (hunit ha).1 (hunit hb).1 (Nat.lt_of_le_of_ne hle hne) (hunit ha).2

/-! ### Units by braces -/

/-- A unit that is not closed yet starts after the units that are, on a line that is not blank. -/
structure Pending.IsNext (index : LineIndex) (n : Nat) (units : List LineUnit) (pending : Pending) :
    Prop where
  /-- The unit starts before the line. -/
  first_lt : pending.first < n
  /-- The unit starts after the others. -/
  last_lt_first : ∀ unit ∈ units, unit.last < pending.first
  /-- The unit is a definition. -/
  kind_ne : pending.kind ≠ .moduleBlock
  /-- There is something on the first line. -/
  not_blank : isBlankText (index.line pending.first) = false

/-- A unit that is closed comes after the others. -/
theorem InOrder.append_unit {units : List LineUnit} {pending : Pending} {last : Nat}
    (h : InOrder index n units) (hpending : pending.IsNext index (last + 1) units)
    (hle : n ≤ m) (hlast : last < m) :
  InOrder index m (units ++ [pending.unit last])
  := by
  constructor
  · intro unit hunit
    rcases List.mem_append.mp hunit with hunit | hunit
    · apply (h.isWithin unit hunit).mono hle
    · rw [List.mem_singleton.mp hunit]
      constructor
      · apply Nat.le_of_lt_succ hpending.first_lt
      · apply hlast
      · apply hpending.kind_ne
      · apply hpending.not_blank
  · apply List.pairwise_append.mpr
    use h.apart, List.pairwise_singleton _ _
    intro unit hunit other hother
    rw [List.mem_singleton.mp hother]
    apply hpending.last_lt_first unit hunit

/-- The units that are closed are in order, and the one that is not comes next. -/
structure BraceState.IsInOrder (index : LineIndex) (n : Nat) (state : BraceState) : Prop where
  /-- The units are in order. -/
  units : InOrder index n state.units
  /-- The unit that is not closed comes next. -/
  current : ∀ pending, state.current = some pending → pending.IsNext index n state.units

/-- A line that declares something starts the next unit. -/
theorem isNext_of_declaration? {units : List LineUnit} (h : InOrder index n units)
    (hline : declaration? language (index.line n) = some (kind, name)) :
  Pending.IsNext index (n + 1) units { name, kind, first := n, opened := false }
  := by
  constructor
  · apply Nat.lt_succ_self
  · intro unit hunit
    apply (h.isWithin unit hunit).last_lt
  · apply kind_of_declaration? hline
  · apply not_blank_of_declaration? hline

theorem BraceState.IsInOrder.step {state : BraceState} (h : state.IsInOrder index n)
    (language : Language) :
  (state.step language n (index.line n)).IsInOrder index (n + 1)
  := by
  have hunits : InOrder index (n + 1) state.units :=
    ⟨fun unit hunit => (h.units.isWithin unit hunit).mono (Nat.le_succ n), h.units.apart⟩
  unfold BraceState.step
  dsimp only
  split
  · constructor
    · apply hunits
    · simp
  · rename_i pending hcurrent
    have hpending : pending.IsNext index (n + 1) state.units := by
      split at hcurrent
      · obtain ⟨⟨kind, name⟩, hdeclaration, rfl⟩ := Option.map_eq_some_iff.mp hcurrent
        apply isNext_of_declaration? h.units hdeclaration
      · have hold := h.current pending hcurrent
        exact ⟨Nat.lt_succ_of_lt hold.first_lt, hold.last_lt_first, hold.kind_ne, hold.not_blank⟩
    have hended (depth : Int) (lex : LexState) : BraceState.IsInOrder index (n + 1)
        { depth, lex, current := none, units := state.units ++ [pending.unit n] } := by
      constructor
      · apply h.units.append_unit hpending (Nat.le_succ n) (Nat.lt_succ_self n)
      · simp
    have hgoesOn (depth : Int) (lex : LexState) (opened : Bool) : BraceState.IsInOrder index (n + 1)
        { depth, lex, current := some { pending with opened }, units := state.units } := by
      constructor
      · apply hunits
      · intro other hother
        rw [← Option.some.inj hother]
        exact ⟨hpending.first_lt, hpending.last_lt_first, hpending.kind_ne, hpending.not_blank⟩
    -- The unit has ended under one of two conditions: with its braces, or without any.
    split
    · split
      · apply hended
      · apply hgoesOn
    · split
      · apply hended
      · apply hgoesOn

theorem isInOrder_foldl (index : LineIndex) (language : Language) (n : Nat) :
  BraceState.IsInOrder index n
    ((List.range n).foldl (fun s n => s.step language n (index.line n))
      { depth := 0, lex := { comment := false, quote := none }, current := none, units := [] })
  := by
  induction n with
  | zero =>
      constructor
      · constructor <;> simp
      · simp
  | succ n ih =>
      rw [List.range_succ, List.foldl_append]
      apply ih.step language

theorem lastNonBlank_lt {default : Nat} (h : default < index.lineCount) :
  lastNonBlank index default < index.lineCount
  := by
  rw [lastNonBlank]
  cases hfind : (List.range index.lineCount).reverse.find? fun n => !isBlankText (index.line n) with
  | none => apply h
  | some n =>
      apply List.mem_range.mp
      apply List.mem_reverse.mp (List.mem_of_find?_eq_some hfind)

/-- The units by braces come one after the other. -/
theorem inOrder_braceUnits (index : LineIndex) (language : Language) :
  InOrder index index.lineCount (braceUnits index language)
  := by
  have hall := isInOrder_foldl index language index.lineCount
  unfold braceUnits
  dsimp only
  split
  · apply hall.units
  · rename_i pending hcurrent
    have hpending := hall.current pending hcurrent
    apply hall.units.append_unit _ (Nat.le_refl _)
    · apply Nat.max_lt.mpr ⟨lastNonBlank_lt hpending.first_lt, hpending.first_lt⟩
    · use Nat.lt_succ_of_le (Nat.le_max_right _ _), hpending.last_lt_first, hpending.kind_ne,
        hpending.not_blank

/-- The units of a text cover ranges of its lines, one after the other. -/
theorem inOrder_units (index : LineIndex) (language : Language) :
  InOrder index index.lineCount (units index language)
  := by
  rw [units]
  split
  · apply inOrder_indentationUnits
  · have hbraces := inOrder_braceUnits index language
    rw [List.mergeSort_of_pairwise]
    · apply hbraces
    · apply hbraces.apart.imp_of_mem
      intro a b ha hb hlt
      apply decide_eq_true
      apply Nat.le_of_lt (Nat.lt_of_le_of_lt (hbraces.isWithin a ha).first_le_last hlt)

/-! ### The spans of units -/

section

variable {text : List Char}

/-- The span of a unit reaches from the start of its first line to the end of its last one. -/
theorem LineUnit.IsWithin.isPlaced_span {unit : LineUnit}
    (h : unit.IsWithin (LineIndex.ofText text) (LineIndex.ofText text).lineCount) :
  (unit.span (LineIndex.ofText text)).IsPlaced text
  := by
  constructor
  · have hfull : (LineIndex.ofText text).line unit.first ≠ [] := by
      intro hnil
      have hblank := h.not_blank
      rw [hnil] at hblank
      cases hblank
    apply Nat.lt_of_lt_of_le (LineIndex.lineStart_lt_lineEnd hfull)
    apply LineIndex.lineEnd_mono h.first_le_last h.last_lt
  · apply LineIndex.lineEnd_le_length
  · symm
    apply LineIndex.lineFeeds_take_lineStart
    apply Nat.lt_of_le_of_lt h.first_le_last h.last_lt

theorem isPlaced_of_mem_spans {span : Span} (h : span ∈ spans (LineIndex.ofText text) language) :
  span.IsPlaced text ∧ span.kind ≠ .moduleBlock
  := by
  obtain ⟨unit, hunit, rfl⟩ := List.mem_map.mp h
  have hwithin := (inOrder_units (LineIndex.ofText text) language).isWithin unit hunit
  exact ⟨hwithin.isPlaced_span, hwithin.kind_ne⟩

/-- The spans of units lie one after the other. -/
theorem pairwise_spans (text : List Char) (language : Language) :
  (spans (LineIndex.ofText text) language).Pairwise fun a b => a.stop ≤ b.start
  := by
  have hall := inOrder_units (LineIndex.ofText text) language
  apply List.pairwise_map.mpr
  apply hall.apart.imp_of_mem
  intro a b ha hb hlt
  have hcount : b.first < (LineIndex.ofText text).lineCount :=
    Nat.lt_of_le_of_lt (hall.isWithin b hb).first_le_last (hall.isWithin b hb).last_lt
  have hend := LineIndex.lineEnd_lt_lineStart (Nat.lt_of_le_of_lt hlt hcount)
  apply Nat.le_trans (Nat.le_of_lt hend) (LineIndex.lineStart_mono hlt hcount)

end

end Fallback

/-- Without a syntax tree no unit is lost, whatever the text is: the units cover ranges of whole
lines, one after the other, their spans lie inside the text, all of them are kept, every span that
becomes a chunk lies inside the text, and the chunks that are definitions are those of the units. -/
theorem chunkText_units (config : ChunkConfig) (path text : String) (language : Language) :
  Fallback.InOrder (LineIndex.ofText text.toList) (LineIndex.ofText text.toList).lineCount
      (Fallback.units (LineIndex.ofText text.toList) language)
    ∧ (∀ span ∈ Fallback.spans (LineIndex.ofText text.toList) language, span.IsPlaced text.toList)
    ∧ Assembly.apart 0
        ((Fallback.spans (LineIndex.ofText text.toList) language).mergeSort Assembly.spanBefore)
      = Fallback.spans (LineIndex.ofText text.toList) language
    ∧ (∀ span ∈ Assembly.select (LineIndex.ofText text.toList) language config.moduleBlocks
        (Fallback.spans (LineIndex.ofText text.toList) language), span.IsPlaced text.toList)
    ∧ ∀ error, isBlankText text.toList = false → language.hasGrammar →
      syntaxTree (LineIndex.ofText text.toList) language = .error error →
      ∃ chunks, chunkText config path text language = .ok { chunks, degraded := some error }
        ∧ List.Forall₂
          (fun unit => Assembly.IsCutFrom (LineIndex.ofText text.toList) path
            (unit.span (LineIndex.ofText text.toList)))
          (Fallback.units (LineIndex.ofText text.toList) language)
          (chunks.filter (·.kind != .moduleBlock))
  := by
  have hplaced : ∀ span ∈ Fallback.spans (LineIndex.ofText text.toList) language,
      span.IsPlaced text.toList :=
    fun span hspan => (Fallback.isPlaced_of_mem_spans hspan).1
  have hapart := Fallback.pairwise_spans text.toList language
  use Fallback.inOrder_units _ _, hplaced
  use Assembly.apart_mergeSort_eq_self (fun span hspan => (hplaced span hspan).start_lt_stop) hapart
  use fun span hspan => Assembly.isPlaced_of_mem_select hplaced hspan
  intro error hblank hgrammar htree
  have hchunk : chunkText config path text language = .ok
      { chunks := Assembly.chunks (LineIndex.ofText text.toList) language config.moduleBlocks path
          (Fallback.spans (LineIndex.ofText text.toList) language),
        degraded := some error } := by
    unfold chunkText definitionSpans
    dsimp only
    rw [hblank, hgrammar, htree]
    rfl
  refine ⟨_, hchunk, ?_⟩
  apply List.forall₂_map_left_iff.mp
  apply Assembly.forall₂_chunks hplaced _ hapart
  intro span hspan
  apply (Fallback.isPlaced_of_mem_spans hspan).2

/-- A text with a bracket that is not closed. -/
def brokenText : String := "fn f( \x7b\n"

theorem chunkText_units_brokenText :
  ∃ error chunks, syntaxTree (LineIndex.ofText brokenText.toList) .rust = .error error
    ∧ chunkText .standard "a.rs" brokenText .rust = .ok { chunks, degraded := some error }
    ∧ (Fallback.units (LineIndex.ofText brokenText.toList) .rust).length
      = (chunks.filter (·.kind != .moduleBlock)).length
  := by
  have hread : (syntaxTree (LineIndex.ofText brokenText.toList) .rust).toOption.isSome = false := by
    decide +kernel
  cases htree : syntaxTree (LineIndex.ofText brokenText.toList) .rust with
  | ok tree =>
      rw [htree] at hread
      cases hread
  | error error =>
      obtain ⟨chunks, hchunks, hunits⟩ :=
        (chunkText_units .standard "a.rs" brokenText .rust).2.2.2.2 error rfl rfl htree
      use error, chunks, rfl, hchunks, hunits.length_eq

end Scrutiny
