import Mathlib.Data.List.DropRight
import Mathlib.Data.List.Induction
import Scrutiny.Text.Lines

/-!
# Trimmed texts and lines

What is left of a text without the blank characters at its ends, and what the lines of a text are.
-/

namespace Scrutiny.Text

/-!
## Trimmed texts

A text is blank if nothing is left of it when it is trimmed; what is trimmed already stays as it is.
-/

theorem trimEnd_eq_rdropWhile (text : List Char) :
  trimEnd text = text.rdropWhile isBlank
  := rfl

theorem trimStart_trimStart (text : List Char) :
  trimStart (trimStart text) = trimStart text
  := List.dropWhile_idempotent isBlank text

/-- Trimming at the end leaves nothing to be trimmed at the start. -/
theorem trimStart_trim (text : List Char) :
  trimStart (trim text) = trim text
  := by
  rw [trim, trimEnd_eq_rdropWhile, trimStart, List.dropWhile_eq_self_iff]
  intro hlength
  have hfront := List.rdropWhile_prefix isBlank (trimStart text)
  rw [hfront.getElem hlength]
  apply List.dropWhile_eq_self_iff.mp (trimStart_trimStart text)

theorem trim_trim (text : List Char) :
  trim (trim text) = trim text
  := by
  rw [trim, trimStart_trim, trim]
  apply List.rdropWhile_idempotent

theorem isBlankText_iff {text : List Char} :
  isBlankText text ↔ trim text = []
  := by
  rw [isBlankText, List.all_eq_true, trim, trimEnd_eq_rdropWhile, List.rdropWhile_eq_nil_iff]
  constructor
  · intro h c hc
    apply h c (List.dropWhile_suffix isBlank |>.mem hc)
  · intro h
    have hstart := trimStart_trimStart text
    rw [trimStart, List.dropWhile_eq_nil_iff.mpr h] at hstart
    apply List.dropWhile_eq_nil_iff.mp hstart.symm

theorem isBlankText_trim (text : List Char) :
  isBlankText (trim text) = isBlankText text
  := by
  rw [Bool.eq_iff_iff, isBlankText_iff, isBlankText_iff, trim_trim]

theorem trimStart_append_of_forall {front : List Char} (h : ∀ c ∈ front, isBlank c) (text : List Char) :
  trimStart (front ++ text) = trimStart text
  := List.dropWhile_append_of_pos h

/-- A text that ends with a character that is not blank is not trimmed where it ends. -/
theorem trimEnd_append {text : List Char} {c : Char} (hlast : text.getLast? = some c)
    (hc : isBlank c = false) (back : List Char) :
  trimEnd (text ++ back) = text ++ trimEnd back
  := by
  obtain ⟨front, rfl⟩ := List.getLast?_eq_some_iff.mp hlast
  rw [trimEnd, trimEnd, List.reverse_append, List.dropWhile_append]
  split
  · rename_i hback
    rw [List.isEmpty_iff.mp hback, List.reverse_append, List.reverse_singleton, List.singleton_append,
      List.dropWhile_cons_of_neg (by simp [hc])]
    simp
  · rw [List.reverse_append, List.reverse_reverse]

theorem trim_infix (text : List Char) :
  trim text <:+: text
  := by
  apply List.IsInfix.trans (List.rdropWhile_prefix isBlank (trimStart text)).isInfix
  apply (List.dropWhile_suffix isBlank).isInfix

/-- What a text starts with after the blank characters at its start is left when it is trimmed. -/
theorem exists_trim_eq_cons {c : Char} {text rest : List Char} (h : trimStart text = c :: rest) :
  isBlank c = false ∧ ∃ later, trim text = c :: later
  := by
  have hc : isBlank c = false := by
    have hhead := List.head?_dropWhile_not isBlank text
    rw [← trimStart, h] at hhead
    apply hhead
  use hc
  rw [trim, h, ← List.singleton_append, trimEnd_append rfl hc]
  use trimEnd rest
  rfl

/-!
## Lines of a text

Splitting at a separator and joining with it are the splitting and joining of lists, so
each undoes the other.  The line with the number `n` is the part without line feeds that
stands after `n` line feeds and reaches as far as it can on both sides.

The index of a text is a faithful map: a line starts at or before an offset exactly when
its number is at most the number of line feeds before the offset.
-/

/-! ### Splitting and joining -/

theorem splitFrom_eq_splitOnPPrepend {α : Type} [BEq α] (separator : α) (current text : List α) :
  splitFrom separator current text = text.splitOnPPrepend (· == separator) current
  := by
  induction text generalizing current with
  | nil => rfl
  | cons c rest ih =>
      rw [splitFrom, List.splitOnPPrepend, ih, ih]

theorem splitAt_eq_splitOn {α : Type} [BEq α] (separator : α) (text : List α) :
  splitAt separator text = text.splitOn separator
  := splitFrom_eq_splitOnPPrepend separator [] text

theorem joinWith_eq_intercalate (separator : List Char) (pieces : List (List Char)) :
  joinWith separator pieces = separator.intercalate pieces
  := by
  induction pieces with
  | nil => rfl
  | cons piece rest ih =>
      cases rest with
      | nil => simp [joinWith]
      | cons next rest =>
          rw [joinWith, ih, List.intercalate_cons_cons]
          simp

@[simp]
theorem joinWith_splitAt (c : Char) (text : List Char) :
  joinWith [c] (splitAt c text) = text
  := by
  rw [joinWith_eq_intercalate, splitAt_eq_splitOn]
  apply List.intercalate_splitOn

theorem splitAt_ne_nil (c : Char) (text : List Char) :
  splitAt c text ≠ []
  := by
  rw [splitAt_eq_splitOn]
  apply List.splitOn_ne_nil

/-- Putting pieces in front of others puts a separator between the two joins. -/
theorem joinWith_append (separator : List Char) {before after : List (List Char)}
    (hbefore : before ≠ []) (hafter : after ≠ []) :
  joinWith separator (before ++ after)
    = joinWith separator before ++ separator ++ joinWith separator after
  := by
  simp only [joinWith_eq_intercalate]
  induction before with
  | nil => contradiction
  | cons piece rest ih =>
      cases rest with
      | nil =>
          obtain ⟨next, later, rfl⟩ := List.exists_cons_of_ne_nil hafter
          rw [List.singleton_append, List.intercalate_cons_cons, List.intercalate_singleton]
      | cons next rest =>
          have ih := ih (List.cons_ne_nil _ _)
          rw [List.cons_append] at ih
          rw [List.cons_append, List.cons_append, List.intercalate_cons_cons, ih,
            List.intercalate_cons_cons]
          simp only [List.append_assoc]

/-! ### Line feeds -/

@[simp]
theorem lineFeeds_nil :
  lineFeeds [] = 0
  := rfl

@[simp]
theorem lineFeeds_append (a b : List Char) :
  lineFeeds (a ++ b) = lineFeeds a + lineFeeds b
  := List.count_append

theorem lineFeeds_cons (c : Char) (rest : List Char) :
  lineFeeds (c :: rest) = lineFeeds rest + if c = '\n' then 1 else 0
  := by
  simp [lineFeeds, List.count_cons]

theorem lineFeeds_eq_zero {text : List Char} :
  lineFeeds text = 0 ↔ '\n' ∉ text
  := List.count_eq_zero

/-- A text has one line more than line feeds. -/
theorem length_splitAt (text : List Char) :
  (splitAt '\n' text).length = lineFeeds text + 1
  := by
  rw [splitAt_eq_splitOn]
  induction text with
  | nil => rfl
  | cons c rest ih =>
      rw [List.splitOn_cons_eq_if_modifyHead, lineFeeds_cons]
      by_cases h : c = '\n'
      · simp [h, ih]
      · simp [h, ih]

/-- No piece has a separator. -/
theorem not_mem_of_mem_splitAt {separator : Char} {text piece : List Char}
    (h : piece ∈ splitAt separator text) :
  separator ∉ piece
  := by
  rw [splitAt_eq_splitOn] at h
  induction text generalizing piece with
  | nil =>
      rw [List.splitOn_nil, List.mem_singleton] at h
      simp [h]
  | cons c rest ih =>
      obtain ⟨first, later, heq⟩ :=
        List.exists_cons_of_ne_nil (List.splitOn_ne_nil separator rest)
      rw [List.splitOn_cons_eq_if_modifyHead, heq] at h
      rw [heq] at ih
      by_cases hc : c = separator
      · simp only [hc, beq_self_eq_true, if_true, List.mem_cons] at h
        rcases h with rfl | h
        · simp
        · apply ih
          simpa using h
      · simp only [beq_eq_false_iff_ne.mpr hc, Bool.false_eq_true, if_false,
          List.modifyHead_cons, List.mem_cons] at h
        rcases h with rfl | h
        · have := ih (List.mem_cons_self ..)
          simp [this, Ne.symm hc]
        · apply ih (List.mem_cons_of_mem _ h)

/-! ### The line with a given number -/

/-- The characters `line` between `before` and `after` are a line: they have no line feed, and
there is one right before and right after them unless the text starts or ends there. -/
structure IsLine (before line after : List Char) : Prop where
  /-- The line has no line feed. -/
  unbroken : '\n' ∉ line
  /-- The line starts at the start of the text or after a line feed. -/
  starts : before = [] ∨ before.getLast? = some '\n'
  /-- The line ends at the end of the text or before a line feed. -/
  ends : after = [] ∨ after.head? = some '\n'

/-- A text is one line, or a first line that is followed by further ones. -/
theorem splitAt_cases (text : List Char) :
  ('\n' ∉ text ∧ splitAt '\n' text = [text])
    ∨ ∃ first rest, text = first ++ '\n' :: rest ∧ '\n' ∉ first
      ∧ splitAt '\n' text = first :: splitAt '\n' rest
  := by
  simp only [splitAt_eq_splitOn]
  by_cases h : '\n' ∈ text
  · obtain ⟨first, rest, heq, hfirst⟩ := List.eq_append_cons_of_mem h
    right
    use first, rest, heq, hfirst
    rw [heq, List.splitOn_append_cons_self_of_not_mem hfirst]
  · left
    use h, List.splitOn_eq_singleton h

/-- What is left of the lines of a text after a number of whole ones. -/
theorem drop_splitAt {before : List Char} (h : before = [] ∨ before.getLast? = some '\n')
    (rest : List Char) :
  (splitAt '\n' (before ++ rest)).drop (lineFeeds before) = splitAt '\n' rest
  := by
  rcases h with rfl | hlast
  · rfl
  · obtain ⟨front, rfl⟩ := List.getLast?_eq_some_iff.mp hlast
    have hfeeds : lineFeeds (front ++ ['\n']) = (splitAt '\n' front).length := by
      rw [length_splitAt, lineFeeds_append]
      rfl
    rw [hfeeds, List.append_assoc, List.singleton_append]
    simp only [splitAt_eq_splitOn]
    rw [List.splitOn_append_cons_self, List.drop_left]

/-- The lines of a text up to the end of one of them. -/
theorem take_splitAt {after : List Char} (h : after = [] ∨ after.head? = some '\n')
    (front : List Char) :
  (splitAt '\n' (front ++ after)).take (lineFeeds front + 1) = splitAt '\n' front
  := by
  rw [← length_splitAt]
  rcases h with rfl | hfirst
  · rw [List.append_nil, List.take_length]
  · obtain ⟨rest, rfl⟩ := List.head?_eq_some_iff.mp hfirst
    simp only [splitAt_eq_splitOn]
    rw [List.splitOn_append_cons_self, List.take_left]

/-- The first line of what starts with a line. -/
theorem getElem?_zero_splitAt {line after : List Char} (h : IsLine [] line after) :
  (splitAt '\n' (line ++ after))[0]? = some line
  := by
  rw [splitAt_eq_splitOn]
  rcases h.ends with rfl | hafter
  · rw [List.append_nil, List.splitOn_eq_singleton h.unbroken]
    rfl
  · obtain ⟨rest, rfl⟩ := List.head?_eq_some_iff.mp hafter
    rw [List.splitOn_append_cons_self_of_not_mem h.unbroken]
    rfl

/-- The line with the number `n` is the one that stands after `n` line feeds. -/
theorem getElem?_splitAt_iff {text line : List Char} {n : Nat} :
  (splitAt '\n' text)[n]? = some line
    ↔ ∃ before after, text = before ++ (line ++ after) ∧ lineFeeds before = n
      ∧ IsLine before line after
  := by
  constructor
  · intro h
    induction n generalizing text with
    | zero =>
        rcases splitAt_cases text with ⟨hnone, heq⟩ | ⟨first, rest, rfl, hfirst, heq⟩
        · obtain rfl : text = line := by simpa [heq] using h
          use [], []
          simp only [List.append_nil, List.nil_append, lineFeeds_nil, true_and]
          use hnone, .inl rfl, .inl rfl
        · obtain rfl : first = line := by simpa [heq] using h
          use [], '\n' :: rest, rfl, rfl, hfirst, .inl rfl, .inr rfl
    | succ n ih =>
        rcases splitAt_cases text with ⟨hnone, heq⟩ | ⟨first, rest, rfl, hfirst, heq⟩
        · simp [heq] at h
        · rw [heq, List.getElem?_cons_succ] at h
          obtain ⟨before, after, rfl, hfeeds, hline⟩ := ih h
          use first ++ '\n' :: before, after
          constructor
          · simp
          constructor
          · rw [lineFeeds_append, lineFeeds_cons, lineFeeds_eq_zero.mpr hfirst, hfeeds]
            simp
          · have hstarts : (first ++ '\n' :: before).getLast? = some '\n' := by
              rcases hline.starts with rfl | hlast
              · simp
              · simp [List.getLast?_append, List.getLast?_cons, hlast]
            use hline.unbroken, .inr hstarts, hline.ends
  · rintro ⟨before, after, rfl, rfl, hline⟩
    have hrest : IsLine [] line after := ⟨hline.unbroken, .inl rfl, hline.ends⟩
    have hfirst := getElem?_zero_splitAt hrest
    rw [← drop_splitAt hline.starts, List.getElem?_drop, Nat.add_zero] at hfirst
    apply hfirst

/-- A line without a carriage return at its end. -/
def dropReturn (line : List Char) : List Char :=
  if line.getLast? == some '\r' then line.dropLast else line

/-- Every text ends with a part of a line, which goes back as far as that line does. -/
theorem exists_lineStart (text : List Char) :
  ∃ before tail, text = before ++ tail ∧ '\n' ∉ tail
    ∧ (before = [] ∨ before.getLast? = some '\n')
  := by
  induction text using List.reverseRecOn with
  | nil => use [], [], rfl, by simp, .inl rfl
  | append_singleton front c ih =>
      by_cases hc : c = '\n'
      · use front ++ [c], [], by simp, by simp
        right
        simp [hc]
      · obtain ⟨before, tail, rfl, htail, hbefore⟩ := ih
        use before, tail ++ [c], by simp, by simp [htail, Ne.symm hc], hbefore

/-- Every text starts with a part of a line, which goes on as far as that line does. -/
theorem exists_lineEnd (text : List Char) :
  ∃ head after, text = head ++ after ∧ '\n' ∉ head ∧ (after = [] ∨ after.head? = some '\n')
  := by
  induction text with
  | nil => use [], [], rfl, by simp, .inl rfl
  | cons c rest ih =>
      by_cases hc : c = '\n'
      · use [], c :: rest, rfl, by simp
        right
        simp [hc]
      · obtain ⟨head, after, rfl, hhead, hafter⟩ := ih
        use c :: head, after, rfl, by simp [hhead, Ne.symm hc], hafter

end Scrutiny.Text
