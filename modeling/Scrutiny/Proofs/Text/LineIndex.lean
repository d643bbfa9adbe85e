import Mathlib.Data.List.Pairwise
import Scrutiny.Proofs.Text.Lines

/-!
# The index of lines

Where the lines of a text start and end.  A line starts at or before an offset exactly when
its number is at most the number of line feeds before the offset.  Lines end before the next
one starts, and what stands from one to another is what the lines are when they are put together.
-/

namespace Scrutiny.Text.LineIndex

/-! ### The offsets where lines start -/

theorem lt_of_mem_startsFrom {i x : Nat} {text : List Char} (h : x ∈ startsFrom i text) :
  i < x ∧ x ≤ i + text.length
  := by
  induction text generalizing i with
  | nil => simp [startsFrom] at h
  | cons c rest ih =>
      rw [startsFrom] at h
      have hrest (hx : x ∈ startsFrom (i + 1) rest) : i < x ∧ x ≤ i + (c :: rest).length := by
        have := ih hx
        rw [List.length_cons]
        omega
      split at h
      · rcases List.mem_cons.mp h with rfl | hx
        · rw [List.length_cons]
          omega
        · apply hrest hx
      · apply hrest h

/-- Before the start of a line, the first one apart, stands a line feed. -/
theorem getElem?_of_mem_startsFrom {i x : Nat} {text : List Char} (h : x ∈ startsFrom i text) :
  text[x - 1 - i]? = some '\n'
  := by
  induction text generalizing i with
  | nil => simp [startsFrom] at h
  | cons c rest ih =>
      rw [startsFrom] at h
      have hrest (hx : x ∈ startsFrom (i + 1) rest) : (c :: rest)[x - 1 - i]? = some '\n' := by
        have hlt := (lt_of_mem_startsFrom hx).1
        rw [← ih hx, show x - 1 - i = x - 1 - (i + 1) + 1 by omega]
        apply List.getElem?_cons_succ
      split at h
      · rename_i hc
        rcases List.mem_cons.mp h with rfl | hx
        · rw [Nat.add_sub_cancel, Nat.sub_self, List.getElem?_cons_zero, eq_of_beq hc]
        · apply hrest hx
      · apply hrest h

theorem pairwise_startsFrom (i : Nat) (text : List Char) :
  (startsFrom i text).Pairwise (· < ·)
  := by
  induction text generalizing i with
  | nil => simp [startsFrom]
  | cons c rest ih =>
      rw [startsFrom]
      split
      · apply List.pairwise_cons.mpr
        use fun x hx => (lt_of_mem_startsFrom hx).1
        apply ih
      · apply ih

/-- As many lines start up to an offset, the first one not counted, as there are line feeds
before it. -/
theorem length_takeWhile_startsFrom (i offset : Nat) (text : List Char) :
  ((startsFrom i text).takeWhile (· ≤ i + offset)).length = lineFeeds (text.take offset)
  := by
  induction text generalizing i offset with
  | nil => simp [startsFrom]
  | cons c rest ih =>
      cases offset with
      | zero =>
          rw [List.take_zero, lineFeeds_nil, List.length_eq_zero_iff]
          cases hstarts : startsFrom i (c :: rest) with
          | nil => rfl
          | cons x later =>
              have hmem : x ∈ startsFrom i (c :: rest) := by simp [hstarts]
              have hx := (lt_of_mem_startsFrom hmem).1
              simp [Nat.not_le.mpr hx]
      | succ offset =>
          have ih := ih (i + 1) offset
          rw [show i + 1 + offset = i + (offset + 1) by omega] at ih
          rw [startsFrom, List.take_succ_cons, lineFeeds_cons]
          by_cases hc : c = '\n'
          · simp [hc, ih]
          · simp [hc, ih]

variable (text : List Char)

/-- The offsets where the lines of a text start, in order. -/
theorem toList_starts :
  (ofText text).starts.toList = 0 :: startsFrom 0 text
  := rfl

theorem pairwise_starts :
  (ofText text).starts.toList.Pairwise (· < ·)
  := by
  rw [toList_starts]
  apply List.pairwise_cons.mpr
  use fun x hx => (lt_of_mem_startsFrom hx).1
  apply pairwise_startsFrom

theorem le_length_of_mem_starts {x : Nat} (h : x ∈ (ofText text).starts.toList) :
  x ≤ text.length
  := by
  rw [toList_starts] at h
  rcases List.mem_cons.mp h with rfl | hx
  · apply Nat.zero_le
  · have := (lt_of_mem_startsFrom hx).2
    omega

@[simp]
theorem size_chars :
  (ofText text).chars.size = text.length
  := by
  simp [ofText]

@[simp]
theorem slice_ofText (start stop : Nat) :
  (ofText text).slice start stop = (text.take stop).drop start
  := by
  simp [slice, ofText, List.extract_eq_take_drop, List.drop_take]

/-! ### The line of an offset -/

/-- The line of an offset is the number of line feeds before it. -/
theorem lineOf_eq (offset : Nat) :
  (ofText text).lineOf offset = lineFeeds (text.take offset)
  := by
  have h := length_takeWhile_startsFrom 0 offset text
  rw [Nat.zero_add] at h
  rw [lineOf, toList_starts, List.takeWhile_cons_of_pos (by simp), List.length_cons, h]
  rfl

variable {text}

theorem getElem?_starts {line : Nat} (h : line < (ofText text).lineCount) :
  (ofText text).starts[line]? = some ((ofText text).lineStart line)
  := by
  have h : line < (ofText text).starts.size := h
  rw [lineStart, Array.getElem?_eq_getElem h]
  rfl

theorem getElem?_toList_starts {line : Nat} (h : line < (ofText text).lineCount) :
  (ofText text).starts.toList[line]? = some ((ofText text).lineStart line)
  := by
  rw [Array.getElem?_toList, getElem?_starts h]

/-- A line after another one starts after the line feed that ends it. -/
theorem getElem?_lineStart_sub_one {line : Nat} (h : line + 1 < (ofText text).lineCount) :
  text[(ofText text).lineStart (line + 1) - 1]? = some '\n'
  := by
  have hstart := getElem?_toList_starts h
  rw [toList_starts, List.getElem?_cons_succ] at hstart
  apply getElem?_of_mem_startsFrom (List.mem_of_getElem? hstart)

/-- Lines start in order. -/
theorem lineStart_lt {a b : Nat} (h : a < b) (hb : b < (ofText text).lineCount) :
  (ofText text).lineStart a < (ofText text).lineStart b
  := by
  have ha := getElem?_toList_starts (Nat.lt_trans h hb)
  have hb := getElem?_toList_starts hb
  obtain ⟨ha', ha⟩ := List.getElem?_eq_some_iff.mp ha
  obtain ⟨hb', hb⟩ := List.getElem?_eq_some_iff.mp hb
  rw [← ha, ← hb]
  apply List.pairwise_iff_getElem.mp (pairwise_starts text) a b ha' hb' h

theorem lineStart_mono {a b : Nat} (h : a ≤ b) (hb : b < (ofText text).lineCount) :
  (ofText text).lineStart a ≤ (ofText text).lineStart b
  := by
  rcases Nat.lt_or_eq_of_le h with hlt | rfl
  · apply Nat.le_of_lt (lineStart_lt hlt hb)
  · apply Nat.le_refl

theorem lineStart_le_length (text : List Char) (line : Nat) :
  (ofText text).lineStart line ≤ text.length
  := by
  rw [lineStart]
  cases h : (ofText text).starts[line]? with
  | none => simp
  | some x =>
      rw [Option.getD_some]
      apply le_length_of_mem_starts
      apply List.mem_of_getElem? (i := line)
      rw [Array.getElem?_toList, h]

/-- In an increasing list, the members up to a bound are those in front. -/
theorem lt_length_takeWhile_iff {xs : List Nat} (h : xs.Pairwise (· < ·)) {i x : Nat}
    (hi : xs[i]? = some x) (bound : Nat) :
  i < (xs.takeWhile (· ≤ bound)).length ↔ x ≤ bound
  := by
  induction xs generalizing i with
  | nil => simp at hi
  | cons y rest ih =>
      obtain ⟨hy, hrest⟩ := List.pairwise_cons.mp h
      by_cases hbound : y ≤ bound
      · rw [List.takeWhile_cons_of_pos (by simpa using hbound), List.length_cons]
        cases i with
        | zero =>
            obtain rfl : y = x := by simpa using hi
            simp [hbound]
        | succ i =>
            rw [List.getElem?_cons_succ] at hi
            rw [← ih hrest hi]
            omega
      · rw [List.takeWhile_cons_of_neg (by simpa using hbound)]
        have hx : y ≤ x := by
          cases i with
          | zero =>
              obtain rfl : y = x := by simpa using hi
              apply Nat.le_refl
          | succ i =>
              apply Nat.le_of_lt
              apply hy
              rw [List.getElem?_cons_succ] at hi
              apply List.mem_of_getElem? hi
        simp
        omega

/-- A line starts at or before an offset exactly when its number is not above that of the line
of the offset. -/
theorem lineStart_le_iff {line offset : Nat} (h : line < (ofText text).lineCount) :
  (ofText text).lineStart line ≤ offset ↔ line ≤ (ofText text).lineOf offset
  := by
  have hfirst : (ofText text).starts.toList[0]? = some 0 := rfl
  have hpos := (lt_length_takeWhile_iff (pairwise_starts text) hfirst offset).mpr (Nat.zero_le _)
  have hline := lt_length_takeWhile_iff (pairwise_starts text) (getElem?_toList_starts h) offset
  rw [← hline, lineOf]
  omega

theorem lineOf_lt_lineCount (text : List Char) (offset : Nat) :
  (ofText text).lineOf offset < (ofText text).lineCount
  := by
  have h := (List.takeWhile_prefix (· ≤ offset) (l := (ofText text).starts.toList)).length_le
  have hsize : (ofText text).starts.toList.length = (ofText text).lineCount := rfl
  have hpos : 0 < (ofText text).lineCount := by simp [lineCount, ofText]
  rw [lineOf]
  omega

/-- A line starts after as many line feeds as its number says. -/
theorem lineFeeds_take_lineStart {line : Nat} (h : line < (ofText text).lineCount) :
  lineFeeds (text.take ((ofText text).lineStart line)) = line
  := by
  rw [← lineOf_eq]
  have hle := (lineStart_le_iff h).mp (Nat.le_refl _)
  by_contra hne
  have hlt : line < (ofText text).lineOf ((ofText text).lineStart line) := by omega
  have hcount := lineOf_lt_lineCount text ((ofText text).lineStart line)
  have hback := (lineStart_le_iff hcount).mpr (Nat.le_refl _)
  have := lineStart_lt hlt hcount
  omega

/-- The text has one line more than line feeds. -/
theorem lineCount_eq (text : List Char) :
  (ofText text).lineCount = lineFeeds text + 1
  := by
  have hpos : 0 < (ofText text).lineCount := by simp [lineCount, ofText]
  have hlast : (ofText text).lineCount - 1 < (ofText text).lineCount := by omega
  have hle := (lineStart_le_iff hlast).mp (lineStart_le_length text _)
  have hlt := lineOf_lt_lineCount text text.length
  rw [lineOf_eq, List.take_length] at hle hlt
  omega

/-! ### The end of a line

A line goes up to its line feed or the end of the text, but for a carriage return there.
-/

/-- The offset after the last character of a line, a carriage return at its end included. -/
def lineStop (index : LineIndex) (line : Nat) : Nat :=
  match index.starts[line + 1]? with
  | some next => next - 1
  | none => index.chars.size

/-- A carriage return at the end of a line is left out. -/
theorem lineEnd_eq (text : List Char) (line : Nat) :
  (ofText text).lineEnd line
    = if (ofText text).lineStart line < (ofText text).lineStop line
        ∧ text[(ofText text).lineStop line - 1]? = some '\r'
      then (ofText text).lineStop line - 1 else (ofText text).lineStop line
  := by
  have heq : (ofText text).lineEnd line
      = if (ofText text).lineStart line < (ofText text).lineStop line
          && (ofText text).chars[(ofText text).lineStop line - 1]? == some '\r'
        then (ofText text).lineStop line - 1 else (ofText text).lineStop line
    := rfl
  rw [heq]
  simp only [Bool.and_eq_true, decide_eq_true_eq, beq_iff_eq]
  rw [← List.getElem?_toArray]
  rfl

theorem lineStop_of_lt {line : Nat} (h : line + 1 < (ofText text).lineCount) :
  (ofText text).lineStop line + 1 = (ofText text).lineStart (line + 1)
  := by
  have hpos : (ofText text).lineStart 0 < (ofText text).lineStart (line + 1) :=
    lineStart_lt (Nat.succ_pos line) h
  rw [lineStop, getElem?_starts h]
  dsimp only
  omega

/-- A line that another one follows goes up to its line feed. -/
theorem getElem?_lineStop {line : Nat} (h : line + 1 < (ofText text).lineCount) :
  text[(ofText text).lineStop line]? = some '\n'
  := by
  rw [← getElem?_lineStart_sub_one h, ← lineStop_of_lt h, Nat.add_sub_cancel]

theorem lineStop_of_not_lt {line : Nat} (h : ¬ line + 1 < (ofText text).lineCount) :
  (ofText text).lineStop line = text.length
  := by
  rw [lineStop, Array.getElem?_eq_none (Nat.not_lt.mp h)]
  apply size_chars

theorem lineStop_le_length (text : List Char) (line : Nat) :
  (ofText text).lineStop line ≤ text.length
  := by
  by_cases hnext : line + 1 < (ofText text).lineCount
  · have hstop := lineStop_of_lt hnext
    have hstart := lineStart_le_length text (line + 1)
    omega
  · apply Nat.le_of_eq (lineStop_of_not_lt hnext)

theorem lineStart_le_lineStop (text : List Char) (line : Nat) :
  (ofText text).lineStart line ≤ (ofText text).lineStop line
  := by
  by_cases hnext : line + 1 < (ofText text).lineCount
  · have hstop := lineStop_of_lt hnext
    have hstart := lineStart_lt (Nat.lt_add_one line) hnext
    omega
  · rw [lineStop_of_not_lt hnext]
    apply lineStart_le_length

/-- A line ends where its line feed or the end of the text is, or at a carriage return before
that. -/
theorem lineEnd_cases (text : List Char) (line : Nat) :
  (ofText text).lineEnd line = (ofText text).lineStop line
    ∨ ((ofText text).lineStart line < (ofText text).lineStop line
      ∧ (ofText text).lineEnd line = (ofText text).lineStop line - 1
      ∧ text[(ofText text).lineStop line - 1]? = some '\r')
  := by
  rw [lineEnd_eq]
  split
  · rename_i hreturn
    exact .inr ⟨hreturn.1, rfl, hreturn.2⟩
  · exact .inl rfl

theorem lineStart_le_lineEnd (text : List Char) (line : Nat) :
  (ofText text).lineStart line ≤ (ofText text).lineEnd line
  := by
  have hstop := lineStart_le_lineStop text line
  have hend := lineEnd_cases text line
  omega

theorem lineEnd_le_lineStop (text : List Char) (line : Nat) :
  (ofText text).lineEnd line ≤ (ofText text).lineStop line
  := by
  have hend := lineEnd_cases text line
  omega

theorem lineEnd_le_length (text : List Char) (line : Nat) :
  (ofText text).lineEnd line ≤ text.length
  := Nat.le_trans (lineEnd_le_lineStop text line) (lineStop_le_length text line)

theorem lineEnd_lt_lineStart {line : Nat} (h : line + 1 < (ofText text).lineCount) :
  (ofText text).lineEnd line < (ofText text).lineStart (line + 1)
  := by
  rw [← lineStop_of_lt h]
  apply Nat.lt_succ_of_le (lineEnd_le_lineStop text line)

/-- A later line ends later. -/
theorem lineEnd_mono {a b : Nat} (h : a ≤ b) (hb : b < (ofText text).lineCount) :
  (ofText text).lineEnd a ≤ (ofText text).lineEnd b
  := by
  rcases Nat.lt_or_eq_of_le h with hlt | rfl
  · have hend := lineEnd_lt_lineStart (Nat.lt_of_le_of_lt hlt hb)
    have hstart := lineStart_le_lineEnd text b
    have hmono : (ofText text).lineStart (a + 1) ≤ (ofText text).lineStart b :=
      lineStart_mono hlt hb
    omega
  · apply Nat.le_refl

/-- A character that ends no line stands on its line. -/
theorem lt_lineEnd {offset : Nat} {c : Char} (h : text[offset]? = some c) (hfeed : c ≠ '\n')
    (hreturn : c ≠ '\r') :
  offset < (ofText text).lineEnd ((ofText text).lineOf offset)
  := by
  obtain ⟨hlt, -⟩ := List.getElem?_eq_some_iff.mp h
  have hne {other : Nat} {d : Char} (hother : text[other]? = some d) (hd : c ≠ d) :
      offset ≠ other := by
    rintro rfl
    exact hd (Option.some.inj (h.symm.trans hother))
  have hstop : offset < (ofText text).lineStop ((ofText text).lineOf offset) := by
    by_cases hnext : (ofText text).lineOf offset + 1 < (ofText text).lineCount
    · have hstart : offset < (ofText text).lineStart ((ofText text).lineOf offset + 1) := by
        rw [← Nat.not_le, lineStart_le_iff hnext]
        omega
      have hfeed := hne (getElem?_lineStop hnext) hfeed
      have := lineStop_of_lt hnext
      omega
    · rwa [lineStop_of_not_lt hnext]
  rcases lineEnd_cases text ((ofText text).lineOf offset) with heq | ⟨-, heq, hback⟩
  · rwa [heq]
  · have hreturn := hne hback hreturn
    omega

/-- A line that has anything on it ends after its start. -/
theorem lineStart_lt_lineEnd {line : Nat} (h : (ofText text).line line ≠ []) :
  (ofText text).lineStart line < (ofText text).lineEnd line
  := by
  by_contra hle
  apply h
  rw [LineIndex.line, slice_ofText, List.drop_eq_nil_iff, List.length_take]
  omega

/-! ### The text of lines

Line feeds stand around the text of some lines, so it is cut into lines as it is in the whole text.
-/

/-- What stands before a line ends with a line feed, unless the text starts with the line. -/
theorem take_lineStart {line : Nat} (h : line < (ofText text).lineCount) :
  text.take ((ofText text).lineStart line) = []
    ∨ (text.take ((ofText text).lineStart line)).getLast? = some '\n'
  := by
  cases line with
  | zero => exact .inl rfl
  | succ line =>
      right
      have hpos : (ofText text).lineStart 0 < (ofText text).lineStart (line + 1) :=
        lineStart_lt (Nat.succ_pos line) h
      rw [List.getLast?_take, getElem?_lineStart_sub_one h, if_neg (by omega)]
      rfl

/-- The last character of a part of a text. -/
theorem getLast?_drop_take {start stop : Nat} (hlt : start < stop) (hstop : stop ≤ text.length) :
  ((text.take stop).drop start).getLast? = text[stop - 1]?
  := by
  have hlast : stop - 1 < text.length := by omega
  rw [List.getLast?_drop, if_neg, List.getLast?_take, if_neg (by omega),
    List.getElem?_eq_getElem hlast]
  · rfl
  · rw [List.length_take]
    omega

/-- What stands after a line starts with a line feed, unless the text ends with the line. -/
theorem drop_lineStop (text : List Char) (line : Nat) :
  text.drop ((ofText text).lineStop line) = []
    ∨ (text.drop ((ofText text).lineStop line)).head? = some '\n'
  := by
  by_cases hnext : line + 1 < (ofText text).lineCount
  · right
    rw [List.head?_drop, getElem?_lineStop hnext]
  · left
    rw [lineStop_of_not_lt hnext, List.drop_length]

/-- A line ends after as many line feeds as its number says. -/
theorem lineFeeds_take_lineStop {line : Nat} (h : line < (ofText text).lineCount) :
  lineFeeds (text.take ((ofText text).lineStop line)) = line
  := by
  by_cases hnext : line + 1 < (ofText text).lineCount
  · have hfeeds := lineFeeds_take_lineStart hnext
    rw [← lineStop_of_lt hnext, List.take_add_one, getElem?_lineStop hnext, lineFeeds_append]
      at hfeeds
    apply Nat.succ.inj hfeeds
  · rw [lineStop_of_not_lt hnext, List.take_length]
    have := lineCount_eq text
    omega

/-- A part of a text without its last character. -/
theorem dropLast_drop_take {start stop : Nat} (hstop : stop ≤ text.length) :
  ((text.take stop).drop start).dropLast = (text.take (stop - 1)).drop start
  := by
  rw [List.dropLast_eq_take, List.length_drop, List.length_take, List.drop_take, List.drop_take,
    List.take_take]
  congr 1
  omega

/-- Up to the end of a line stands what stands up to its line feed, without a carriage return at
the end. -/
theorem slice_lineEnd {start line : Nat} (hstart : start ≤ (ofText text).lineStart line)
    (h : line < (ofText text).lineCount) :
  (ofText text).slice start ((ofText text).lineEnd line)
    = dropReturn ((ofText text).slice start ((ofText text).lineStop line))
  := by
  have hle := lineStart_le_lineStop text line
  have hlength := lineStop_le_length text line
  have hbefore := take_lineStart h
  rw [lineEnd_eq, slice_ofText, slice_ofText, dropReturn]
  generalize (ofText text).lineStart line = begin at *
  generalize (ofText text).lineStop line = stop at *
  by_cases hreturn : begin < stop ∧ text[stop - 1]? = some '\r'
  · have hlast := getLast?_drop_take (Nat.lt_of_le_of_lt hstart hreturn.1) hlength
    rw [if_pos hreturn, hlast, hreturn.2, if_pos (by rfl), dropLast_drop_take hlength]
  · have hlast : ((text.take stop).drop start).getLast? ≠ some '\r' := by
      intro hlast
      have hlt : start < stop := by
        by_contra hle
        rw [List.drop_of_length_le (by rw [List.length_take]; omega)] at hlast
        cases hlast
      rw [getLast?_drop_take hlt hlength] at hlast
      -- The line is empty, so what stands before the carriage return is no line feed.
      obtain rfl : begin = stop := by
        by_contra hne
        apply hreturn ⟨by omega, hlast⟩
      rw [← getLast?_drop_take (Nat.zero_lt_of_lt hlt) hlength, List.drop_zero] at hlast
      rcases hbefore with hnil | hfeed
      · rw [hnil] at hlast
        cases hlast
      · rw [hfeed] at hlast
        cases hlast
    rw [if_neg hreturn, if_neg (by simpa using hlast)]

/-- From the start of a line to the end of a later one stand the lines from the one to the
other, the last one without a carriage return at its end. -/
theorem slice_lines {first last : Nat} (h : first ≤ last) (hlast : last < (ofText text).lineCount) :
  (ofText text).slice ((ofText text).lineStart first) ((ofText text).lineEnd last)
    = dropReturn (joinWith ['\n'] (((splitAt '\n' text).drop first).take (last - first + 1)))
  := by
  have hfirst := Nat.lt_of_le_of_lt h hlast
  have hle : (ofText text).lineStart first ≤ (ofText text).lineStop last :=
    Nat.le_trans (lineStart_mono h hlast) (lineStart_le_lineStop text last)
  have hbefore := take_lineStart hfirst
  have hafter := drop_lineStop text last
  have hfeeds := lineFeeds_take_lineStart hfirst
  have hfeeds' := lineFeeds_take_lineStop hlast
  rw [slice_lineEnd (lineStart_mono h hlast) hlast, slice_ofText]
  generalize (ofText text).lineStart first = start at *
  generalize (ofText text).lineStop last = stop at *
  congr 1
  have hfront : (text.take stop).take start = text.take start := by
    rw [List.take_take, Nat.min_eq_left hle]
  have hsplit : text.take start ++ (text.take stop).drop start = text.take stop := by
    rw [← hfront, List.take_append_drop]
  have htext : text = text.take start ++ ((text.take stop).drop start ++ text.drop stop) := by
    rw [← List.append_assoc, hsplit, List.take_append_drop]
  have hmiddle : lineFeeds ((text.take stop).drop start) = last - first := by
    rw [← hsplit, lineFeeds_append, hfeeds] at hfeeds'
    omega
  calc (text.take stop).drop start
    _ = joinWith ['\n'] (splitAt '\n' ((text.take stop).drop start)) := (joinWith_splitAt _ _).symm
    _ = joinWith ['\n'] ((splitAt '\n' ((text.take stop).drop start ++ text.drop stop)).take
          (last - first + 1)) := by
        rw [← hmiddle, take_splitAt hafter]
    _ = joinWith ['\n'] (((splitAt '\n' (text.take start ++ ((text.take stop).drop start
          ++ text.drop stop))).drop first).take (last - first + 1)) := by
        rw [← hfeeds, drop_splitAt hbefore]
    _ = joinWith ['\n'] (((splitAt '\n' text).drop first).take (last - first + 1)) := by
        rw [← htext]

end Scrutiny.Text.LineIndex
