import Mathlib.Data.List.Forall2
import Mathlib.Data.List.Pairwise
import Scrutiny.Chunk.Assembly
import Scrutiny.Proofs.Text.LineIndex

/-!
# The spans that become chunks

Of any list of spans that lie inside a text, those that become chunks lie one after the other,
together with the spans of the code outside of them: code between definitions covers whole
lines that no definition takes part of.
-/

namespace Scrutiny

open Text

/-- A span lies inside a text, is not empty and knows the line it starts on. -/
structure Span.IsPlaced (text : List Char) (span : Span) : Prop where
  /-- The span is not empty. -/
  start_lt_stop : span.start < span.stop
  /-- The span ends inside the text. -/
  stop_le : span.stop ≤ text.length
  /-- The span starts after as many line feeds as its line says. -/
  line_eq : span.line = lineFeeds (text.take span.start)

namespace Assembly

/-! ### Spans that do not overlap -/

theorem mem_of_mem_apart {stop : Nat} {spans : List Span} {span : Span}
    (h : span ∈ apart stop spans) :
  span ∈ spans
  := by
  induction spans generalizing stop with
  | nil => simp [apart] at h
  | cons first rest ih =>
      rw [apart] at h
      split at h
      · apply List.mem_cons_of_mem _ (ih h)
      · rcases List.mem_cons.mp h with rfl | h
        · apply List.mem_cons_self
        · apply List.mem_cons_of_mem _ (ih h)

theorem le_start_of_mem_apart {stop : Nat} {spans : List Span} {span : Span}
    (h : span ∈ apart stop spans) :
  stop ≤ span.start
  := by
  induction spans generalizing stop with
  | nil => simp [apart] at h
  | cons first rest ih =>
      rw [apart] at h
      split at h
      · apply ih h
      · rename_i hkeep
        simp only [Bool.or_eq_true, decide_eq_true_eq, not_or, Nat.not_lt, Nat.not_le] at hkeep
        rcases List.mem_cons.mp h with rfl | h
        · apply hkeep.1
        · have := ih h
          omega

/-- Each of the spans that are kept ends before the next one starts. -/
theorem pairwise_apart (stop : Nat) (spans : List Span) :
  (apart stop spans).Pairwise fun a b => a.stop ≤ b.start
  := by
  induction spans generalizing stop with
  | nil => simp [apart]
  | cons first rest ih =>
      rw [apart]
      split
      · apply ih
      · apply List.pairwise_cons.mpr
        use fun span hspan => le_start_of_mem_apart hspan
        apply ih

/-- Spans that lie one after the other are all kept. -/
theorem apart_eq_self {stop : Nat} {spans : List Span} (hstop : ∀ span ∈ spans, stop ≤ span.start)
    (hfull : ∀ span ∈ spans, span.start < span.stop)
    (h : spans.Pairwise fun a b => a.stop ≤ b.start) :
  apart stop spans = spans
  := by
  induction spans generalizing stop with
  | nil => rfl
  | cons first rest ih =>
      obtain ⟨hfirst, hrest⟩ := List.forall_mem_cons.mp hstop
      obtain ⟨hlt, hfull⟩ := List.forall_mem_cons.mp hfull
      obtain ⟨hafter, h⟩ := List.pairwise_cons.mp h
      have hkeep : ¬ ((decide (first.start < stop) || decide (first.stop ≤ first.start)) = true) := by
        simp only [Bool.or_eq_true, decide_eq_true_eq, not_or, Nat.not_lt, Nat.not_le]
        use hfirst, hlt
      rw [apart, if_neg hkeep, ih hafter hfull h]

theorem mergeSort_spanBefore_eq_self {spans : List Span}
    (hfull : ∀ span ∈ spans, span.start < span.stop)
    (h : spans.Pairwise fun a b => a.stop ≤ b.start) :
  spans.mergeSort spanBefore = spans
  := by
  apply List.mergeSort_of_pairwise
  apply h.imp_of_mem
  intro a b ha hb hle
  have hlt : a.start < b.start := Nat.lt_of_lt_of_le (hfull a ha) hle
  rw [spanBefore, decide_eq_true hlt, Bool.true_or]

/-- No span is left out of those that lie one after the other. -/
theorem apart_mergeSort_eq_self {spans : List Span} (hfull : ∀ span ∈ spans, span.start < span.stop)
    (h : spans.Pairwise fun a b => a.stop ≤ b.start) :
  apart 0 (spans.mergeSort spanBefore) = spans
  := by
  rw [mergeSort_spanBefore_eq_self hfull h]
  apply apart_eq_self (fun span _ => Nat.zero_le span.start) hfull h

/-! ### Runs of lines -/

/-- A run of numbers that all belong to a list. -/
structure IsRunOf (numbers : List Nat) (run : Nat × Nat) : Prop where
  /-- The run has a first and a last number. -/
  le : run.1 ≤ run.2
  /-- All numbers from the first to the last one belong to the list. -/
  mem : ∀ n, run.1 ≤ n → n ≤ run.2 → n ∈ numbers

theorem IsRunOf.cons {numbers : List Nat} {run : Nat × Nat} (h : IsRunOf numbers run) (n : Nat) :
  IsRunOf (n :: numbers) run
  := ⟨h.le, fun m hfirst hlast => List.mem_cons_of_mem n (h.mem m hfirst hlast)⟩

theorem isRunOf_singleton (n : Nat) (rest : List Nat) :
  IsRunOf (n :: rest) (n, n)
  := by
  use Nat.le_refl n
  intro m hfirst hlast
  rw [Nat.le_antisymm hlast hfirst]
  apply List.mem_cons_self

/-- A run can be made longer by the number before its first one. -/
theorem IsRunOf.extend {n last : Nat} {rest : List Nat} (h : IsRunOf rest (n + 1, last)) :
  IsRunOf (n :: rest) (n, last)
  := by
  use Nat.le_of_succ_le h.le
  intro m hfirst hlast
  rcases Nat.lt_or_eq_of_le hfirst with hlt | rfl
  · apply List.mem_cons_of_mem _ (h.mem m hlt hlast)
  · apply List.mem_cons_self

/-- The runs of a list are runs of its members. -/
theorem isRunOf_of_mem_runs {numbers : List Nat} {run : Nat × Nat} (h : run ∈ runs numbers) :
  IsRunOf numbers run
  := by
  induction numbers generalizing run with
  | nil => simp [runs] at h
  | cons n rest ih =>
      rw [runs] at h
      cases hruns : runs rest with
      | nil =>
          obtain rfl : run = (n, n) := by simpa [hruns] using h
          apply isRunOf_singleton
      | cons next later =>
          obtain ⟨first, last⟩ := next
          rw [hruns] at h ih
          dsimp only at h
          split at h
          · rename_i hnext
            obtain rfl : first = n + 1 := by simpa using hnext
            rcases List.mem_cons.mp h with rfl | h
            · apply IsRunOf.extend (ih (List.mem_cons_self ..))
            · apply (ih (List.mem_cons_of_mem _ h)).cons
          · rcases List.mem_cons.mp h with rfl | h
            · apply isRunOf_singleton
            · apply (ih h).cons

/-- The runs of an increasing list come in order. -/
theorem pairwise_runs {numbers : List Nat} (h : numbers.Pairwise (· < ·)) :
  (runs numbers).Pairwise fun a b => a.2 < b.1
  := by
  induction numbers with
  | nil => simp [runs]
  | cons n rest ih =>
      obtain ⟨hn, hrest⟩ := List.pairwise_cons.mp h
      have hpairs := ih hrest
      have hlt : ∀ run ∈ runs rest, n < run.1 := by
        intro run hrun
        have hrun := isRunOf_of_mem_runs hrun
        apply hn _ (hrun.mem run.1 (Nat.le_refl _) hrun.le)
      rw [runs]
      cases hruns : runs rest with
      | nil => simp
      | cons next later =>
          obtain ⟨first, last⟩ := next
          rw [hruns] at hpairs hlt
          dsimp only
          split
          · apply List.pairwise_cons.mpr
            apply List.pairwise_cons.mp hpairs
          · apply List.pairwise_cons.mpr
            use hlt

/-! ### Code outside of definitions -/

section

variable {text : List Char} {language : Language} {spans : List Span}

theorem pairwise_uncoveredLines (index : LineIndex) (spans : List Span) :
  (uncoveredLines index spans).Pairwise (· < ·)
  := by
  apply List.Pairwise.filter
  apply List.pairwise_lt_range

/-- A line that belongs to no span lies before the first line of each span or after the last. -/
theorem of_mem_uncoveredLines {index : LineIndex} {line : Nat}
    (h : line ∈ uncoveredLines index spans) :
  line < index.lineCount ∧ ∀ span ∈ spans,
    line < index.lineOf span.start ∨ index.lineOf (max (span.stop - 1) span.start) < line
  := by
  obtain ⟨hrange, huncovered⟩ := List.mem_filter.mp h
  use List.mem_range.mp hrange
  intro span hspan
  by_contra hcovered
  rw [not_or, Nat.not_lt, Nat.not_lt] at hcovered
  rw [Bool.not_eq_true', List.any_eq_false] at huncovered
  apply huncovered (lineRange index span) (List.mem_map_of_mem hspan)
  rw [lineRange, Bool.and_eq_true]
  use decide_eq_true hcovered.1, decide_eq_true hcovered.2

/-- A span of code outside of definitions covers the whole lines `first`, …, `last`, which are not
blank and belong to a run of the given lines. -/
structure CoversLines (text : List Char) (lines : List Nat) (span : Span) (first last : Nat) :
    Prop where
  /-- The lines are a run. -/
  run : IsRunOf lines (first, last)
  /-- The span starts with the first line. -/
  start_eq : span.start = (LineIndex.ofText text).lineStart first
  /-- The span ends with the last line. -/
  stop_eq : span.stop = (LineIndex.ofText text).lineEnd last
  /-- The span has the number of the first line. -/
  line_eq : span.line = first
  /-- There is something on the first line. -/
  first_full : isBlankText ((LineIndex.ofText text).line first) = false
  /-- There is something on the last line. -/
  last_full : isBlankText ((LineIndex.ofText text).line last) = false

theorem ne_nil_of_isBlankText_eq_false {line : List Char} (h : isBlankText line = false) :
  line ≠ []
  := by
  rintro rfl
  cases h

theorem of_moduleSpan?_eq_some {first last : Nat} {span : Span} {lines : List Nat}
    (hrun : IsRunOf lines (first, last))
    (h : moduleSpan? (LineIndex.ofText text) language first last = some span) :
  ∃ f l, first ≤ f ∧ l ≤ last ∧ CoversLines text lines span f l
  := by
  unfold moduleSpan? at h
  dsimp only at h
  obtain ⟨f, hf, h⟩ := Option.bind_eq_some_iff.mp h
  obtain ⟨l, hl, h⟩ := Option.bind_eq_some_iff.mp h
  split at h
  · rename_i hany
    obtain rfl := Option.some.inj h
    have hf_mem := List.mem_of_find?_eq_some hf
    have hl_mem := List.mem_reverse.mp (List.mem_of_find?_eq_some hl)
    simp only [List.mem_map, List.mem_range] at hf_mem hl_mem
    obtain ⟨i, hi, rfl⟩ := hf_mem
    obtain ⟨j, hj, rfl⟩ := hl_mem
    have hf_full := List.find?_some hf
    have hl_full := List.find?_some hl
    -- A line between the two holds code, so they are in order.
    have hle : first + i ≤ first + j := by
      obtain ⟨line, -, hline⟩ := List.any_eq_true.mp hany
      simp only [Bool.and_eq_true, decide_eq_true_eq] at hline
      omega
    use first + i, first + j, Nat.le_add_right _ _, by omega
    constructor
    · use hle
      intro n hn hn'
      apply hrun.mem n
      · dsimp only at hn ⊢
        omega
      · dsimp only at hn' ⊢
        omega
    · rfl
    · rfl
    · rfl
    · simpa using hf_full
    · simpa using hl_full
  · cases h

theorem of_mem_moduleSpans {span : Span}
    (h : span ∈ moduleSpans (LineIndex.ofText text) language spans) :
  ∃ first last,
    CoversLines text (uncoveredLines (LineIndex.ofText text) spans) span first last
  := by
  obtain ⟨⟨first, last⟩, hrun, hspan⟩ := List.mem_filterMap.mp h
  obtain ⟨f, l, -, -, hcovers⟩ := of_moduleSpan?_eq_some (isRunOf_of_mem_runs hrun) hspan
  use f, l

namespace CoversLines

variable {span : Span} {first last : Nat}

theorem last_lt_lineCount
    (h : CoversLines text (uncoveredLines (LineIndex.ofText text) spans) span first last) :
  last < (LineIndex.ofText text).lineCount
  := (of_mem_uncoveredLines (h.run.mem last h.run.le (Nat.le_refl _))).1

theorem isPlaced
    (h : CoversLines text (uncoveredLines (LineIndex.ofText text) spans) span first last) :
  span.IsPlaced text
  := by
  have hlast := h.last_lt_lineCount
  have hle : first ≤ last := h.run.le
  constructor
  · rw [h.start_eq, h.stop_eq]
    have hline := LineIndex.lineStart_lt_lineEnd (ne_nil_of_isBlankText_eq_false h.first_full)
    have hmono := LineIndex.lineEnd_mono hle hlast
    omega
  · rw [h.stop_eq]
    apply LineIndex.lineEnd_le_length
  · rw [h.line_eq, h.start_eq, LineIndex.lineFeeds_take_lineStart]
    omega

/-- Code outside of definitions does not overlap any of them. -/
theorem apart
    (h : CoversLines text (uncoveredLines (LineIndex.ofText text) spans) span first last)
    {other : Span} (hmem : other ∈ spans) (hplaced : other.IsPlaced text) :
  span.stop ≤ other.start ∨ other.stop ≤ span.start
  := by
  have hle : first ≤ last := h.run.le
  have hlast := h.last_lt_lineCount
  have hmax : max (other.stop - 1) other.start = other.stop - 1 := by
    have := hplaced.start_lt_stop
    omega
  -- The lines of the span and those of the other one are two ranges without a common line.
  have hmono : (LineIndex.ofText text).lineOf other.start
      ≤ (LineIndex.ofText text).lineOf (other.stop - 1) := by
    apply (LineIndex.lineStart_le_iff (LineIndex.lineOf_lt_lineCount _ _)).mp
    have := (LineIndex.lineStart_le_iff
      (LineIndex.lineOf_lt_lineCount text other.start)).mpr (Nat.le_refl _)
    have := hplaced.start_lt_stop
    omega
  have hseparate : last < (LineIndex.ofText text).lineOf other.start
      ∨ (LineIndex.ofText text).lineOf (other.stop - 1) < first := by
    by_contra hcommon
    rw [not_or, Nat.not_lt, Nat.not_lt] at hcommon
    have hmem' := h.run.mem (max first ((LineIndex.ofText text).lineOf other.start))
      (Nat.le_max_left _ _) (by dsimp only; omega)
    have := (of_mem_uncoveredLines hmem').2 other hmem
    rw [hmax] at this
    omega
  rw [h.start_eq, h.stop_eq]
  rcases hseparate with hafter | hbefore
  · left
    have hcount : last + 1 < (LineIndex.ofText text).lineCount :=
      Nat.lt_of_le_of_lt hafter (LineIndex.lineOf_lt_lineCount text other.start)
    have hend := LineIndex.lineEnd_lt_lineStart hcount
    have hstart := (LineIndex.lineStart_le_iff hcount).mpr hafter
    omega
  · right
    have hstart := mt (LineIndex.lineStart_le_iff (Nat.lt_of_le_of_lt hle hlast)).mp
      (Nat.not_le.mpr hbefore)
    omega

/-- Code outside of definitions does not end with a line feed. -/
theorem getElem?_stop_ne
    (h : CoversLines text (uncoveredLines (LineIndex.ofText text) spans) span first last) :
  text[span.stop - 1]? ≠ some '\n'
  := by
  intro hfeed
  have hlast := h.last_lt_lineCount
  have hlt := LineIndex.lineStart_lt_lineEnd (ne_nil_of_isBlankText_eq_false h.last_full)
  rw [← h.stop_eq] at hlt
  obtain ⟨stop, hstop⟩ : ∃ stop, span.stop = stop + 1 := ⟨span.stop - 1, by omega⟩
  rw [hstop, Nat.add_sub_cancel] at hfeed
  -- The line of the end of the span would be a later one.
  have hline := (LineIndex.lineStart_le_iff hlast).mp (Nat.le_of_lt_succ (hstop ▸ hlt))
  have hnext : last + 1 ≤ (LineIndex.ofText text).lineOf (stop + 1) := by
    rw [LineIndex.lineOf_eq] at hline ⊢
    rw [List.take_add_one, hfeed, lineFeeds_append]
    apply Nat.add_le_add_right hline
  have hcount := LineIndex.lineOf_lt_lineCount text (stop + 1)
  have hend := LineIndex.lineEnd_lt_lineStart (Nat.lt_of_le_of_lt hnext hcount)
  have hstart := (LineIndex.lineStart_le_iff (Nat.lt_of_le_of_lt hnext hcount)).mpr hnext
  rw [← h.stop_eq] at hend
  omega

end CoversLines

/-- Runs of code outside of definitions come in order. -/
theorem pairwise_moduleSpans :
  (moduleSpans (LineIndex.ofText text) language spans).Pairwise fun a b => a.stop ≤ b.start
  := by
  apply List.pairwise_filterMap.mpr
  apply (pairwise_runs (pairwise_uncoveredLines _ _)).imp_of_mem
  rintro ⟨first, last⟩ ⟨first', last'⟩ hrun hrun' hlt a ha b hb
  obtain ⟨f, l, -, hl, hcovers⟩ := of_moduleSpan?_eq_some (isRunOf_of_mem_runs hrun) ha
  obtain ⟨f', l', hf', -, hcovers'⟩ := of_moduleSpan?_eq_some (isRunOf_of_mem_runs hrun') hb
  have hle : f' ≤ l' := hcovers'.run.le
  have hcount := Nat.lt_of_le_of_lt hle hcovers'.last_lt_lineCount
  have hlf : l < f' := by
    dsimp only at hlt
    omega
  rw [hcovers.stop_eq, hcovers'.start_eq]
  have hend := LineIndex.lineEnd_lt_lineStart (Nat.lt_of_le_of_lt hlf hcount)
  have hmono : (LineIndex.ofText text).lineStart (l + 1)
      ≤ (LineIndex.ofText text).lineStart f' := LineIndex.lineStart_mono hlf hcount
  omega

/-! ### The spans that are selected -/

/-- Spans that are in the order of their starts and do not overlap lie one after the other. -/
theorem pairwise_of_apart {spans : List Span} (hplaced : ∀ span ∈ spans, span.start < span.stop)
    (hsorted : spans.Pairwise fun a b => a.start ≤ b.start)
    (hapart : spans.Pairwise fun a b => a.stop ≤ b.start ∨ b.stop ≤ a.start) :
  spans.Pairwise fun a b => a.stop ≤ b.start
  := by
  apply (hsorted.and hapart).imp_of_mem
  rintro a b ha hb ⟨hle, hab | hba⟩
  · apply hab
  · have := hplaced b hb
    omega

theorem pairwise_mergeSort_start (spans : List Span) :
  (spans.mergeSort fun a b => a.start ≤ b.start).Pairwise fun a b => a.start ≤ b.start
  := by
  have hsorted : (spans.mergeSort fun a b => a.start ≤ b.start).Pairwise
      fun a b => decide (a.start ≤ b.start) = true := by
    apply List.pairwise_mergeSort
    · intro a b c hab hbc
      apply decide_eq_true
      apply Nat.le_trans (of_decide_eq_true hab) (of_decide_eq_true hbc)
    · intro a b
      simp [Nat.le_total a.start b.start]
  apply hsorted.imp
  intro a b hab
  apply of_decide_eq_true hab

/-- A span that becomes a chunk is kept, or is code outside of those that are kept. -/
theorem mem_apart_of_mem_select {index : LineIndex} {withModule : Bool} {span : Span}
    (h : span ∈ select index language withModule spans) :
  span ∈ apart 0 (spans.mergeSort spanBefore)
    ∨ span ∈ moduleSpans index language (apart 0 (spans.mergeSort spanBefore))
  := by
  unfold select at h
  dsimp only at h
  split at h
  · apply List.mem_append.mp
    apply (List.mergeSort_perm _ _).mem_iff.mp h
  · exact .inl h

theorem of_mem_select {index : LineIndex} {withModule : Bool} {span : Span}
    (h : span ∈ select index language withModule spans) :
  span ∈ spans ∨ span ∈ moduleSpans index language (apart 0 (spans.mergeSort spanBefore))
  := by
  apply (mem_apart_of_mem_select h).imp_left
  intro h
  apply (List.mergeSort_perm spans spanBefore).mem_iff.mp (mem_of_mem_apart h)

/-- The spans that become chunks lie inside the text. -/
theorem isPlaced_of_mem_select (hspans : ∀ span ∈ spans, span.IsPlaced text) {withModule : Bool}
    {span : Span} (h : span ∈ select (LineIndex.ofText text) language withModule spans) :
  span.IsPlaced text
  := by
  rcases of_mem_select h with h | h
  · apply hspans span h
  · obtain ⟨first, last, hcovers⟩ := of_mem_moduleSpans h
    apply hcovers.isPlaced

/-- The spans that become chunks lie one after the other. -/
theorem pairwise_select (hspans : ∀ span ∈ spans, span.IsPlaced text) (withModule : Bool) :
  (select (LineIndex.ofText text) language withModule spans).Pairwise fun a b => a.stop ≤ b.start
  := by
  have hkept : ∀ span ∈ apart 0 (spans.mergeSort spanBefore), span.IsPlaced text := by
    intro span hspan
    apply hspans
    apply (List.mergeSort_perm spans spanBefore).mem_iff.mp (mem_of_mem_apart hspan)
  have hplaced : ∀ span ∈ select (LineIndex.ofText text) language withModule spans,
      span.start < span.stop :=
    fun span hspan => (isPlaced_of_mem_select hspans hspan).start_lt_stop
  unfold select at hplaced ⊢
  dsimp only at hplaced ⊢
  cases withModule with
  | false => apply pairwise_apart
  | true =>
      apply pairwise_of_apart hplaced
      · apply pairwise_mergeSort_start
      · apply (List.mergeSort_perm _ _).pairwise_iff (fun h => h.symm) |>.mpr
        apply List.pairwise_append.mpr
        use (pairwise_apart 0 _).imp fun h => .inl h
        use pairwise_moduleSpans.imp fun h => .inl h
        intro a ha b hb
        obtain ⟨first, last, hcovers⟩ := of_mem_moduleSpans hb
        apply (hcovers.apart ha (hkept a ha)).symm

theorem kind_of_mem_moduleSpans {index : LineIndex} {span : Span}
    (h : span ∈ moduleSpans index language spans) :
  span.kind = .moduleBlock
  := by
  obtain ⟨⟨first, last⟩, -, h⟩ := List.mem_filterMap.mp h
  unfold moduleSpan? at h
  dsimp only at h
  obtain ⟨f, -, h⟩ := Option.bind_eq_some_iff.mp h
  obtain ⟨l, -, h⟩ := Option.bind_eq_some_iff.mp h
  split at h
  · rw [← Option.some.inj h]
  · cases h

/-- Definitions that lie one after the other are all selected, and in this order. -/
theorem filter_select (hspans : ∀ span ∈ spans, span.IsPlaced text)
    (hkind : ∀ span ∈ spans, span.kind ≠ .moduleBlock)
    (h : spans.Pairwise fun a b => a.stop ≤ b.start) (withModule : Bool) :
  (select (LineIndex.ofText text) language withModule spans).filter (·.kind != .moduleBlock) = spans
  := by
  have hfull : ∀ span ∈ spans, span.start < span.stop :=
    fun span hspan => (hspans span hspan).start_lt_stop
  have hkept := apart_mergeSort_eq_self hfull h
  have hall : spans.filter (·.kind != .moduleBlock) = spans := by
    rw [List.filter_eq_self]
    intro span hspan
    rw [bne_iff_ne]
    apply hkind span hspan
  cases withModule with
  | false =>
      rw [select, if_neg (by decide), hkept]
      apply hall
  | true =>
      have hnone : (moduleSpans (LineIndex.ofText text) language spans).filter
          (·.kind != .moduleBlock) = [] := by
        rw [List.filter_eq_nil_iff]
        intro span hspan
        rw [kind_of_mem_moduleSpans hspan]
        decide
      -- What is left has the members of the definitions, and both lists are in order.
      have hperm : ((select (LineIndex.ofText text) language true spans).filter
          (·.kind != .moduleBlock)).Perm spans := by
        rw [select, if_pos rfl, hkept]
        apply ((List.mergeSort_perm _ _).filter _).trans
        rw [List.filter_append, hall, hnone, List.append_nil]
      apply hperm.eq_of_pairwise _ ((pairwise_select hspans true).filter _) h
      intro a b ha hb hab hba
      have := hfull a (hperm.mem_iff.mp ha)
      have := hfull b hb
      omega

/-- If no definition ends with a line feed, no span that becomes a chunk does. -/
theorem getElem?_stop_ne_of_mem_select
    (hspans : ∀ span ∈ spans, text[span.stop - 1]? ≠ some '\n') {withModule : Bool} {span : Span}
    (h : span ∈ select (LineIndex.ofText text) language withModule spans) :
  text[span.stop - 1]? ≠ some '\n'
  := by
  rcases of_mem_select h with h | h
  · apply hspans span h
  · obtain ⟨first, last, hcovers⟩ := of_mem_moduleSpans h
    apply hcovers.getElem?_stop_ne

/-! ### The chunks of definitions -/

/-- A chunk has the text, the line, the kind and the name of a span; the name has a number after it
if it has come before. -/
def IsCutFrom (index : LineIndex) (path : String) (span : Span) (chunk : Chunk) : Prop :=
  ∃ seen, chunk = Chunk.ofFile path (uniqueName seen span.name)
    (String.ofList (index.slice span.start span.stop)) span.line span.kind

theorem forall₂_cut (index : LineIndex) (path : String) (seen : List String) (spans : List Span) :
  List.Forall₂ (IsCutFrom index path) spans (cut index path seen spans)
  := by
  induction spans generalizing seen with
  | nil => apply List.Forall₂.nil
  | cons span rest ih =>
      rw [cut]
      apply List.Forall₂.cons
      · use seen
      · apply ih

/-- Definitions that lie one after the other become one chunk each, in this order; all other chunks
are code outside of definitions. -/
theorem forall₂_chunks (hspans : ∀ span ∈ spans, span.IsPlaced text)
    (hkind : ∀ span ∈ spans, span.kind ≠ .moduleBlock)
    (h : spans.Pairwise fun a b => a.stop ≤ b.start) (withModule : Bool) (path : String) :
  List.Forall₂ (IsCutFrom (LineIndex.ofText text) path) spans
    ((chunks (LineIndex.ofText text) language withModule path spans).filter
      (·.kind != .moduleBlock))
  := by
  have hsame ⦃span : Span⦄ ⦃chunk : Chunk⦄ (h : IsCutFrom (LineIndex.ofText text) path span chunk) :
      (span.kind != .moduleBlock) = true ↔ (chunk.kind != .moduleBlock) = true := by
    obtain ⟨seen, rfl⟩ := h
    rfl
  have hcut := forall₂_cut (LineIndex.ofText text) path []
    (select (LineIndex.ofText text) language withModule spans)
  have hfilter := List.rel_filter hsame hcut
  rw [filter_select hspans hkind h] at hfilter
  apply hfilter

end

end Assembly

end Scrutiny
