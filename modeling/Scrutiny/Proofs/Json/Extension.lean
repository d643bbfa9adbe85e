import Mathlib.Data.List.TakeWhile
import Mathlib.Tactic.SplitIfs
import Scrutiny.Proofs.Json.Fits

/-!
# Texts that go on

A reader never looks further than it must: what was read of a text is read of it with more text
after it as well, and what was left of the text is left with that behind it.  Only a number at the
very end of a text may become longer.
-/

namespace Scrutiny.Json

/-- What was read of a text is read of it with `more` after it as well. -/
def GoesOn {α : Type} (more : List Char) (reading longer : Reading α) : Prop :=
  ∀ a rest, reading = .ok (a, rest) → longer = .ok (a, rest ++ more)

/-- What was read of a text is read of it with `more` after it as well, if something was left of the
text. -/
def GoesOnInside {α : Type} (more : List Char) (reading longer : Reading α) : Prop :=
  ∀ a rest, rest ≠ [] → reading = .ok (a, rest) → longer = .ok (a, rest ++ more)

section

variable {α β : Type} {more : List Char} {reading longer : Reading α}

theorem GoesOn.inside (h : GoesOn more reading longer) :
  GoesOnInside more reading longer
  := fun a rest _ heq => h a rest heq

theorem goesOn_ok (a : α) (rest : List Char) :
  GoesOn more (.ok (a, rest)) (.ok (a, rest ++ more))
  := by
  intro b later heq
  cases heq
  rfl

theorem goesOn_error (e : ReadError) :
  GoesOn more (.error e) longer
  := by
  intro a rest heq
  cases heq

/-- A text that is read to its end is not read inside. -/
theorem goesOnInside_end (a : α) :
  GoesOnInside more (.ok (a, [])) longer
  := by
  intro b rest hrest heq
  cases heq
  exact absurd rfl hrest

theorem GoesOn.map (h : GoesOn more reading longer) (f : α → β) :
  GoesOn more (reading.map fun (a, rest) => (f a, rest)) (longer.map fun (a, rest) => (f a, rest))
  := by
  intro b rest heq
  cases reading with
  | error e => cases heq
  | ok found =>
      cases heq
      rw [h found.1 found.2 rfl]
      rfl

theorem GoesOnInside.map (h : GoesOnInside more reading longer) (f : α → β) :
  GoesOnInside more (reading.map fun (a, rest) => (f a, rest))
    (longer.map fun (a, rest) => (f a, rest))
  := by
  intro b rest hrest heq
  cases reading with
  | error e => cases heq
  | ok found =>
      cases heq
      rw [h found.1 found.2 hrest rfl]
      rfl

end

/-! ### Blanks and digits -/

theorem skipGaps_append {c : Char} {text rest : List Char} (h : skipGaps text = c :: rest)
    (more : List Char) :
  skipGaps (text ++ more) = c :: (rest ++ more)
  := by
  have hne : (skipGaps text).isEmpty = false := by rw [h, List.isEmpty_cons]
  rw [skipGaps, List.dropWhile_append, ← skipGaps, hne, if_neg Bool.false_ne_true, h,
    List.cons_append]

/-- Blanks at the end of a text are skipped with those after them. -/
theorem skipGaps_append_of_nil {text : List Char} (h : skipGaps text = []) (more : List Char) :
  skipGaps (text ++ more) = skipGaps more
  := by
  rw [skipGaps, List.dropWhile_append, ← skipGaps, h, List.isEmpty_nil, if_pos rfl, skipGaps]

theorem dropWhile_isDigit_append {text : List Char} (h : text.dropWhile Char.isDigit ≠ [])
    (more : List Char) :
  (text ++ more).dropWhile Char.isDigit = text.dropWhile Char.isDigit ++ more
  := by
  rw [List.dropWhile_append, if_neg (by rwa [List.isEmpty_iff])]

theorem takeWhile_isDigit_append {text : List Char} (h : text.dropWhile Char.isDigit ≠ [])
    (more : List Char) :
  (text ++ more).takeWhile Char.isDigit = text.takeWhile Char.isDigit
  := by
  have hlength : (text.takeWhile Char.isDigit).length ≠ text.length := by
    intro hlength
    apply h
    rw [List.dropWhile_eq_nil_iff, ← List.takeWhile_eq_self_iff]
    apply (List.takeWhile_prefix _).eq_of_length hlength
  rw [List.takeWhile_append, if_neg hlength]

theorem readDigits_append_more (n count : Nat) (text more : List Char)
    (h : (readDigits n count text).2.2 ≠ []) :
  readDigits n count (text ++ more)
    = ((readDigits n count text).1, (readDigits n count text).2.1, (readDigits n count text).2.2 ++ more)
  := by
  induction text generalizing n count with
  | nil => exact absurd rfl h
  | cons c rest ih =>
      rw [List.cons_append]
      rw [readDigits] at h ⊢
      rw [readDigits]
      by_cases hc : c.isDigit = true
      · rw [if_pos hc] at h ⊢
        rw [if_pos hc]
        dsimp only at h ⊢
        split
        · rfl
        · rw [if_neg ‹_›] at h
          apply ih _ _ h
      · rw [if_neg hc, if_neg hc]
        rfl

theorem readExponentDigits_append_more (n : Nat) (text more : List Char)
    (h : (readExponentDigits n text).2 ≠ []) :
  readExponentDigits n (text ++ more)
    = ((readExponentDigits n text).1, (readExponentDigits n text).2 ++ more)
  := by
  induction text generalizing n with
  | nil => exact absurd rfl h
  | cons c rest ih =>
      rw [List.cons_append]
      rw [readExponentDigits] at h ⊢
      rw [readExponentDigits]
      by_cases hc : c.isDigit = true
      · rw [if_pos hc] at h ⊢
        rw [if_pos hc]
        dsimp only at h ⊢
        split
        · rfl
        · rw [if_neg ‹_›] at h
          apply ih _ h
      · rw [if_neg hc, if_neg hc]
        rfl

/-! ### Numbers -/

section

variable {more : List Char} (negative : Bool) (n : Nat) (e : Int)

theorem goesOn_makeDouble (rest : List Char) :
  GoesOn more (makeDouble negative n e rest) (makeDouble negative n e (rest ++ more))
  := by
  rw [makeDouble, makeDouble]
  split
  · apply goesOn_ok
  · apply goesOn_error

theorem goesOnInside_makeDouble_nil (longer : Reading Number) :
  GoesOnInside more (makeDouble negative n e []) longer
  := by
  rw [makeDouble]
  split
  · apply goesOnInside_end
  · apply (goesOn_error _).inside

/-- Reads an exponent after its sign, and the number with it. -/
def readExponentAfter (downward : Bool) : List Char → Reading Number
  | [] => failLast .endInValue []
  | c :: rest =>
    if c.isDigit then
      match readExponentDigits (c.toNat - 48) rest with
      | (some k, later) => makeDouble negative n (if downward then e - k else e + k) later
      | (none, later) =>
        if n != 0 && !downward then failLast .numberOutOfRange later
        else .ok (.double (Decimal.signedBits negative 0), later.dropWhile Char.isDigit)
    else failLast .badNumber rest

theorem readExponent_of_ne {text : List Char} (hplus : ∀ rest, text = '+' :: rest → False)
    (hminus : ∀ rest, text = '-' :: rest → False) :
  readExponent negative n e text = readExponentAfter negative n e false text
  := by
  rw [readExponent.eq_def]
  split
  · rename_i heq
    split at heq
    · exact absurd rfl (hplus _)
    · exact absurd rfl (hminus _)
    · cases heq
      rfl

theorem goesOnInside_readExponentAfter (downward : Bool) (digits : List Char) :
  GoesOnInside more (readExponentAfter negative n e downward digits)
    (readExponentAfter negative n e downward (digits ++ more))
  := by
  cases digits with
  | nil => apply (goesOn_error _).inside
  | cons c rest =>
      rw [List.cons_append, readExponentAfter, readExponentAfter]
      split
      · have hmore := readExponentDigits_append_more (c.toNat - 48) rest more
        rcases hdigits : readExponentDigits (c.toNat - 48) rest with ⟨_ | k, later⟩
        · rw [hdigits] at hmore
          dsimp only
          split
          · apply (goesOn_error _).inside
          · by_cases hlater : later.dropWhile Char.isDigit = []
            · rw [hlater]
              apply goesOnInside_end
            · rw [hmore (by rintro rfl; exact hlater rfl)]
              dsimp only
              rw [dropWhile_isDigit_append hlater]
              apply (goesOn_ok _ _).inside
        · rw [hdigits] at hmore
          dsimp only
          by_cases hlater : later = []
          · rw [hlater]
            apply goesOnInside_makeDouble_nil
          · rw [hmore hlater]
            apply (goesOn_makeDouble _ _ _ _).inside
      · apply (goesOn_error _).inside

theorem goesOnInside_readExponent (text : List Char) :
  GoesOnInside more (readExponent negative n e text) (readExponent negative n e (text ++ more))
  := by
  rcases text with _ | ⟨c, rest⟩
  · apply (goesOn_error _).inside
  · by_cases hplus : c = '+'
    · rw [hplus]
      apply goesOnInside_readExponentAfter
    · by_cases hminus : c = '-'
      · rw [hminus]
        apply goesOnInside_readExponentAfter
      · have hne (later : List Char) :
            readExponent negative n e (c :: later) = readExponentAfter negative n e false (c :: later) := by
          apply readExponent_of_ne
          · intro rest heq
            apply hplus (List.cons.inj heq).1
          · intro rest heq
            apply hminus (List.cons.inj heq).1
        rw [List.cons_append, hne, hne]
        apply goesOnInside_readExponentAfter _ _ _ _ (c :: rest)

theorem goesOnInside_readTail (text : List Char) :
  GoesOnInside more (readTail negative n e text) (readTail negative n e (text ++ more))
  := by
  rw [readTail.eq_def negative n e text]
  split
  · apply goesOnInside_readExponent
  · apply goesOnInside_readExponent
  · rename_i hsmall hlarge
    cases text with
    | nil => apply goesOnInside_makeDouble_nil
    | cons c rest =>
        rw [List.cons_append, readTail]
        · apply (goesOn_makeDouble _ _ _ (c :: rest)).inside
        · intro later heq
          rw [(List.cons.inj heq).1] at hsmall
          apply hsmall rest rfl
        · intro later heq
          rw [(List.cons.inj heq).1] at hlarge
          apply hlarge rest rfl

theorem goesOnInside_readFraction (text : List Char) :
  GoesOnInside more (readFraction negative n e text) (readFraction negative n e (text ++ more))
  := by
  have hmore := readDigits_append_more n 0 text more
  rcases hdigits : readDigits n 0 text with ⟨m, count, rest⟩
  rw [hdigits] at hmore
  rw [readFraction, readFraction, hdigits]
  dsimp only at hmore ⊢
  by_cases hrest : rest = []
  · rw [hrest]
    split
    · rename_i hdigit
      cases hdigit
    · split
      · apply (goesOn_error _).inside
      · apply goesOnInside_makeDouble_nil
  · rw [hmore hrest]
    dsimp only
    rw [List.head?_append_of_ne_nil _ hrest]
    split
    · by_cases hlater : rest.dropWhile Char.isDigit = []
      · rw [hlater]
        apply goesOnInside_makeDouble_nil
      · rw [dropWhile_isDigit_append hlater]
        apply goesOnInside_readTail
    · split
      · split
        · apply (goesOn_error _).inside
        · apply (goesOn_error _).inside
      · apply goesOnInside_readTail

theorem goesOnInside_readNumberTail_nil (longer : Reading Number) :
  GoesOnInside more (readNumberTail negative n []) longer
  := by
  rw [readNumberTail]
  · split
    · apply goesOnInside_end
    · split
      · apply goesOnInside_end
      · apply goesOnInside_end
  all_goals
    intro rest heq
    cases heq

theorem goesOnInside_readNumberTail (text : List Char) :
  GoesOnInside more (readNumberTail negative n text) (readNumberTail negative n (text ++ more))
  := by
  rw [readNumberTail.eq_def negative n text]
  split
  · apply goesOnInside_readFraction
  · apply goesOnInside_readExponent
  · apply goesOnInside_readExponent
  · rename_i hpoint hsmall hlarge
    cases text with
    | nil => apply goesOnInside_readNumberTail_nil
    | cons c rest =>
        rw [List.cons_append, readNumberTail]
        · split
          · apply (goesOn_ok _ (c :: rest)).inside
          · split
            · apply (goesOn_ok _ (c :: rest)).inside
            · apply (goesOn_ok _ (c :: rest)).inside
        · intro later heq
          rw [(List.cons.inj heq).1] at hpoint
          apply hpoint rest rfl
        · intro later heq
          rw [(List.cons.inj heq).1] at hsmall
          apply hsmall rest rfl
        · intro later heq
          rw [(List.cons.inj heq).1] at hlarge
          apply hlarge rest rfl

/-- Reads what follows more whole digits than are counted. -/
def readAfterExtra : List Char → Reading Number
  | '.' :: rest => readFraction negative n e rest
  | rest => readTail negative n e rest

theorem goesOnInside_readAfterExtra (text : List Char) :
  GoesOnInside more (readAfterExtra negative n e text) (readAfterExtra negative n e (text ++ more))
  := by
  cases text with
  | nil => apply goesOnInside_makeDouble_nil
  | cons c rest =>
      by_cases hc : c = '.'
      · rw [hc]
        apply goesOnInside_readFraction
      · have hne (later : List Char) :
            readAfterExtra negative n e (c :: later) = readTail negative n e (c :: later) := by
          rw [readAfterExtra]
          intro rest heq
          apply hc (List.cons.inj heq).1
        rw [List.cons_append, hne, hne]
        apply goesOnInside_readTail _ _ _ (c :: rest)

theorem goesOnInside_readNumber (text : List Char) :
  GoesOnInside more (readNumber negative text) (readNumber negative (text ++ more))
  := by
  rw [readNumber.eq_def negative text]
  split
  · apply (goesOn_error _).inside
  · rename_i rest
    rw [List.cons_append, readNumber]
    split
    · apply (goesOn_error _).inside
    · by_cases hrest : rest = []
      · rw [hrest]
        apply goesOnInside_readNumberTail_nil
      · rw [List.head?_append_of_ne_nil _ hrest, if_neg ‹_›]
        apply goesOnInside_readNumberTail
  · rename_i c rest hzero
    rw [List.cons_append, readNumber]
    · split
      · have hmore := readDigits_append_more (c.toNat - 48) 0 rest more
        rcases hdigits : readDigits (c.toNat - 48) 0 rest with ⟨n, count, later⟩
        rw [hdigits] at hmore
        dsimp only at hmore ⊢
        by_cases hlater : later = []
        · rw [hlater]
          apply goesOnInside_readNumberTail_nil
        · rw [hmore hlater]
          dsimp only
          rw [List.head?_append_of_ne_nil _ hlater]
          split
          · by_cases hdrop : later.dropWhile Char.isDigit = []
            · rw [hdrop]
              apply goesOnInside_makeDouble_nil
            · rw [dropWhile_isDigit_append hdrop, takeWhile_isDigit_append hdrop]
              apply goesOnInside_readAfterExtra
          · apply goesOnInside_readNumberTail
      · apply (goesOn_error _).inside
    · apply hzero

end

/-! ### Words and strings -/

section

variable {more : List Char}

theorem goesOn_readWord (value : Json) (word text : List Char) :
  GoesOn more (readWord value word text) (readWord value word (text ++ more))
  := by
  induction word generalizing text with
  | nil => apply goesOn_ok
  | cons w word ih =>
      cases text with
      | nil => apply goesOn_error
      | cons c text =>
          rw [List.cons_append, readWord, readWord]
          split
          · apply ih
          · apply goesOn_error

theorem goesOn_readHex (text : List Char) :
  GoesOn more (readHex text) (readHex (text ++ more))
  := by
  rw [readHex.eq_def text]
  split
  · rename_i a b c d rest
    rw [List.cons_append, List.cons_append, List.cons_append, List.cons_append, readHex]
    split
    · apply goesOn_ok
    · apply goesOn_error
  · split
    · apply goesOn_error
    · apply goesOn_error

theorem goesOn_readUnicode (text : List Char) :
  GoesOn more (readUnicode text) (readUnicode (text ++ more))
  := by
  have hhex : ∀ rest, GoesOn more (readHex rest) (readHex (rest ++ more)) := goesOn_readHex
  rw [readUnicode, readUnicode]
  cases hread : readHex text with
  | error e => apply goesOn_error
  | ok found =>
      obtain ⟨n, rest⟩ := found
      rw [hhex text n rest hread]
      dsimp only
      split
      · apply goesOn_error
      · split
        · apply goesOn_ok
        · split
          · apply goesOn_error
          · apply goesOn_error
          · rename_i later
            simp only [List.cons_append]
            cases hlater : readHex later with
            | error e => apply goesOn_error
            | ok found =>
                obtain ⟨m, after⟩ := found
                rw [hhex later m after hlater]
                dsimp only
                split
                · apply goesOn_error
                · apply goesOn_ok
          · apply goesOn_error
          · apply goesOn_error

theorem goesOn_readEscape (text : List Char) :
  GoesOn more (readEscape text) (readEscape (text ++ more))
  := by
  rw [readEscape.eq_def text]
  split
  · apply goesOn_error
  · split
    · apply goesOn_ok
    · apply goesOn_ok
    · apply goesOn_ok
    · apply goesOn_ok
    · apply goesOn_ok
    · apply goesOn_ok
    · apply goesOn_ok
    · apply goesOn_ok
    · apply goesOn_readUnicode
    · apply goesOn_error

/-- A string ends at its quotation mark, however much fuel is left. -/
theorem goesOn_readString (read : List Char) {fuel ample : Nat} (h : fuel ≤ ample) (text : List Char) :
  GoesOn more (readString read fuel text) (readString read ample (text ++ more))
  := by
  induction fuel generalizing read ample text with
  | zero => apply goesOn_error
  | succ fuel ih =>
      obtain ⟨ample, rfl⟩ : ∃ k, ample = k + 1 := ⟨ample - 1, by omega⟩
      have hfuel : fuel ≤ ample := by omega
      rw [readString.eq_def read (fuel + 1)]
      dsimp only
      split
      · apply goesOn_error
      · apply goesOn_ok
      · rename_i rest
        rw [List.cons_append, readString]
        cases hread : readEscape rest with
        | error e => apply goesOn_error
        | ok found =>
            obtain ⟨c, later⟩ := found
            rw [goesOn_readEscape rest c later hread]
            apply ih (c :: read) hfuel
      · rename_i c rest hquote hescape
        rw [List.cons_append, readString]
        · split
          · apply goesOn_error
          · apply ih (c :: read) hfuel
        · apply hquote
        · apply hescape

end

/-! ### Items and fields -/

section

variable {more : List Char} {value : List Char → Reading Json}

/-- Reads an item after a comma, and those after it. -/
def readItemAfterComma (value : List Char → Reading Json) (fuel : Nat) :
    List Char → Reading (List Json)
  | [] => failNext .endInValue []
  | ']' :: later => failNext .trailingComma (']' :: later)
  | later => readNextItem value fuel later

theorem readItemAfterComma_of_ne (value : List Char → Reading Json) (fuel : Nat) {c : Char}
    (hc : c ≠ ']') (rest : List Char) :
  readItemAfterComma value fuel (c :: rest) = readNextItem value fuel (c :: rest)
  := by
  rw [readItemAfterComma]
  · intro heq
    cases heq
  · intro later heq
    apply hc (List.cons.inj heq).1

theorem readItems_of_skipGaps (value : List Char → Reading Json) (first : Bool) (fuel : Nat) {c : Char}
    {text rest : List Char} (hskip : skipGaps text = c :: rest) (hc : c ≠ ']') :
  readItems value first (fuel + 1) text
    = if first then readNextItem value fuel (c :: rest)
      else if c == ',' then readItemAfterComma value fuel (skipGaps rest)
      else failNext .expectedListEnd (c :: rest)
  := by
  rw [readItems, hskip]
  split
  · rename_i heq
    cases heq
  · rename_i heq
    exact absurd (List.cons.inj heq).1 hc
  · rename_i heq
    cases heq
    rfl

theorem readItems_nil (first : Bool) (fuel : Nat) :
  ∃ e, readItems value first fuel [] = .error e
  := by
  cases fuel with
  | zero => exact ⟨_, rfl⟩
  | succ fuel => exact ⟨_, rfl⟩

theorem goesOn_readNextItem (hvalue : ∀ text, GoesOnInside more (value text) (value (text ++ more)))
    {fuel ample : Nat}
    (hitems : ∀ text, GoesOn more (readItems value false fuel text)
      (readItems value false ample (text ++ more))) (text : List Char) :
  GoesOn more (readNextItem value fuel text) (readNextItem value ample (text ++ more))
  := by
  rw [readNextItem, readNextItem]
  cases hv : value text with
  | error e => apply goesOn_error
  | ok found =>
      obtain ⟨v, later⟩ := found
      dsimp only
      cases hvs : readItems value false fuel later with
      | error e => apply goesOn_error
      | ok others =>
          have hlater : later ≠ [] := by
            rintro rfl
            obtain ⟨e, he⟩ : ∃ e, readItems value false fuel [] = .error e := readItems_nil false fuel
            rw [he] at hvs
            cases hvs
          rw [hvalue text v later hlater hv]
          dsimp only
          rw [hitems later others.1 others.2 hvs]
          apply goesOn_ok

/-- An array ends at its bracket, however much fuel is left. -/
theorem goesOn_readItems (hvalue : ∀ text, GoesOnInside more (value text) (value (text ++ more)))
    (first : Bool) {fuel ample : Nat} (h : fuel ≤ ample) (text : List Char) :
  GoesOn more (readItems value first fuel text) (readItems value first ample (text ++ more))
  := by
  induction fuel generalizing first ample text with
  | zero => apply goesOn_error
  | succ fuel ih =>
      obtain ⟨ample, rfl⟩ : ∃ k, ample = k + 1 := ⟨ample - 1, by omega⟩
      have hrest : ∀ text, GoesOn more (readItems value false fuel text)
          (readItems value false ample (text ++ more)) :=
        ih false (Nat.le_of_succ_le_succ h)
      have hitem := goesOn_readNextItem hvalue hrest
      cases hskip : skipGaps text with
      | nil =>
          rw [readItems, hskip]
          apply goesOn_error
      | cons c rest =>
          have hmore := skipGaps_append hskip more
          by_cases hc : c = ']'
          · rw [readItems, readItems, hskip, hmore, hc]
            apply goesOn_ok
          · rw [readItems_of_skipGaps _ _ _ hskip hc, readItems_of_skipGaps _ _ _ hmore hc]
            split
            · apply hitem (c :: rest)
            · split
              · cases hlater : skipGaps rest with
                | nil => apply goesOn_error
                | cons d later =>
                    rw [skipGaps_append hlater more]
                    by_cases hd : d = ']'
                    · rw [hd]
                      apply goesOn_error
                    · rw [readItemAfterComma_of_ne _ _ hd, readItemAfterComma_of_ne _ _ hd]
                      apply hitem (d :: later)
              · apply goesOn_error

/-- Reads a field after a comma, and those after it. -/
def readFieldAfterComma (value : List Char → Reading Json) (fuel : Nat) :
    List Char → Reading (List (String × Json))
  | [] => failNext .endInValue []
  | '"' :: later => readNextField value fuel later
  | '\x7d' :: later => failNext .trailingComma ('\x7d' :: later)
  | later => failNext .keyNoString later

theorem readFields_of_skipGaps (value : List Char → Reading Json) (first : Bool) (fuel : Nat) {c : Char}
    {text rest : List Char} (hskip : skipGaps text = c :: rest) (hc : c ≠ '\x7d') :
  readFields value first (fuel + 1) text
    = if first then
        if c == '"' then readNextField value fuel rest else failNext .keyNoString (c :: rest)
      else if c == ',' then readFieldAfterComma value fuel (skipGaps rest)
      else failNext .expectedObjectEnd (c :: rest)
  := by
  rw [readFields, hskip]
  split
  · rename_i heq
    cases heq
  · rename_i heq
    exact absurd (List.cons.inj heq).1 hc
  · rename_i heq
    cases heq
    rfl

theorem readFields_nil (first : Bool) (fuel : Nat) :
  ∃ e, readFields value first fuel [] = .error e
  := by
  cases fuel with
  | zero => exact ⟨_, rfl⟩
  | succ fuel => exact ⟨_, rfl⟩

theorem goesOn_readNextField (hvalue : ∀ text, GoesOnInside more (value text) (value (text ++ more)))
    {fuel ample : Nat}
    (hfields : ∀ text, GoesOn more (readFields value false fuel text)
      (readFields value false ample (text ++ more))) (text : List Char) :
  GoesOn more (readNextField value fuel text) (readNextField value ample (text ++ more))
  := by
  rw [readNextField, readNextField]
  cases hname : readString [] (text.length + 1) text with
  | error e => apply goesOn_error
  | ok found =>
      obtain ⟨name, later⟩ := found
      have hlength : text.length + 1 ≤ (text ++ more).length + 1 := by
        rw [List.length_append]
        omega
      rw [goesOn_readString [] hlength text name later hname]
      dsimp only
      cases hskip : skipGaps later with
      | nil => apply goesOn_error
      | cons c after =>
          rw [skipGaps_append hskip more]
          by_cases hc : c = ':'
          · simp only [hc]
            cases hv : value after with
            | error e => apply goesOn_error
            | ok found =>
                obtain ⟨v, next⟩ := found
                dsimp only
                cases hothers : readFields value false fuel next with
                | error e => apply goesOn_error
                | ok others =>
                    have hnext : next ≠ [] := by
                      rintro rfl
                      obtain ⟨e, he⟩ : ∃ e, readFields value false fuel [] = .error e := readFields_nil false fuel
                      rw [he] at hothers
                      cases hothers
                    rw [hvalue after v next hnext hv]
                    dsimp only
                    rw [hfields next others.1 others.2 hothers]
                    apply goesOn_ok
          · split
            · apply goesOn_error
            · rename_i heq
              exact absurd (List.cons.inj heq).1 hc
            · apply goesOn_error

/-- An object ends at its brace, however much fuel is left. -/
theorem goesOn_readFields (hvalue : ∀ text, GoesOnInside more (value text) (value (text ++ more)))
    (first : Bool) {fuel ample : Nat} (h : fuel ≤ ample) (text : List Char) :
  GoesOn more (readFields value first fuel text) (readFields value first ample (text ++ more))
  := by
  induction fuel generalizing first ample text with
  | zero => apply goesOn_error
  | succ fuel ih =>
      obtain ⟨ample, rfl⟩ : ∃ k, ample = k + 1 := ⟨ample - 1, by omega⟩
      have hrest : ∀ text, GoesOn more (readFields value false fuel text)
          (readFields value false ample (text ++ more)) :=
        ih false (Nat.le_of_succ_le_succ h)
      have hfield := goesOn_readNextField hvalue hrest
      cases hskip : skipGaps text with
      | nil =>
          rw [readFields, hskip]
          apply goesOn_error
      | cons c rest =>
          have hmore := skipGaps_append hskip more
          by_cases hc : c = '\x7d'
          · rw [readFields, readFields, hskip, hmore, hc]
            apply goesOn_ok
          · rw [readFields_of_skipGaps _ _ _ hskip hc, readFields_of_skipGaps _ _ _ hmore hc]
            split
            · split
              · apply hfield
              · apply goesOn_error
            · split
              · cases hlater : skipGaps rest with
                | nil => apply goesOn_error
                | cons d later =>
                    rw [skipGaps_append hlater more]
                    by_cases hd : d = '"'
                    · rw [hd]
                      apply hfield
                    · rw [readFieldAfterComma.eq_def value fuel (d :: later)]
                      split
                      · apply goesOn_error
                      · rename_i heq
                        exact absurd (List.cons.inj heq).1 hd
                      · apply goesOn_error
                      · apply goesOn_error
              · apply goesOn_error

end

/-! ### Values -/

/-- What was read of a text is read of it with more text after it as well. -/
theorem goesOnInside_readValue (more : List Char) (depth : Nat) (text : List Char) :
  GoesOnInside more (readValue depth text) (readValue depth (text ++ more))
  := by
  induction depth generalizing text with
  | zero => apply (goesOn_error _).inside
  | succ depth ih =>
      cases hskip : skipGaps text with
      | nil =>
          rw [readValue, hskip]
          apply (goesOn_error _).inside
      | cons c rest =>
          have hlength : rest.length + 1 ≤ (rest ++ more).length + 1 := by
            rw [List.length_append]
            omega
          rw [readValue, readValue, hskip, skipGaps_append hskip more]
          dsimp only
          split
          · apply (goesOn_readWord _ _ _).inside
          · apply (goesOn_readWord _ _ _).inside
          · apply (goesOn_readWord _ _ _).inside
          · apply ((goesOn_readString _ hlength _).map _).inside
          · apply (goesOnInside_readNumber _ _).map
          · split
            · apply (goesOn_error _).inside
            · apply ((goesOn_readItems ih _ hlength _).map _).inside
          · split
            · apply (goesOn_error _).inside
            · apply ((goesOn_readFields ih _ hlength _).map _).inside
          · split
            · apply (goesOnInside_readNumber _ (c :: rest)).map
            · apply (goesOn_error _).inside

theorem readValue_brace (depth : Nat) (rest : List Char) :
  readValue (depth + 1) ('\x7b' :: rest)
    = if depth == 0 then failNext .tooDeep ('\x7b' :: rest)
      else (readFields (readValue depth) true (rest.length + 1) rest).map fun (fields, later) =>
        (.object fields, later)
  := rfl

/-- An object is read in full, whatever follows it. -/
theorem goesOn_readValue_brace (more : List Char) (depth : Nat) (rest : List Char) :
  GoesOn more (readValue depth ('\x7b' :: rest)) (readValue depth ('\x7b' :: (rest ++ more)))
  := by
  cases depth with
  | zero => apply goesOn_error
  | succ depth =>
      have hlength : rest.length + 1 ≤ (rest ++ more).length + 1 := by
        rw [List.length_append]
        omega
      rw [readValue_brace, readValue_brace]
      split
      · apply goesOn_error
      · apply (goesOn_readFields (goesOnInside_readValue more depth) _ hlength _).map

/-- Only a text that starts with a brace is read as an object. -/
theorem gives_readValue_object (depth : Nat) (text : List Char) :
  Gives (readValue depth text) fun value => ∀ fields, value = .object fields →
    ∃ later, skipGaps text = '\x7b' :: later
  := by
  have hother {α : Type} (reading : Reading α) (f : α → Json) (hf : ∀ a fields, f a ≠ .object fields) :
      Gives (reading.map fun (a, rest) => (f a, rest)) fun value => ∀ fields, value = .object fields →
        ∃ later, skipGaps text = '\x7b' :: later := by
    apply Gives.map
    intro a rest _ fields heq
    exact absurd heq (hf a fields)
  cases depth with
  | zero => apply gives_failNext
  | succ depth =>
      rw [readValue]
      split
      · apply gives_failNext
      · split
        · apply gives_readWord
          intro fields heq
          cases heq
        · apply gives_readWord
          intro fields heq
          cases heq
        · apply gives_readWord
          intro fields heq
          cases heq
        · apply hother
          intro s fields heq
          cases heq
        · apply hother
          intro n fields heq
          cases heq
        · split
          · apply gives_failNext
          · apply hother
            intro items fields heq
            cases heq
        · rename_i later _ hskip
          intro value rest _ fields _
          use later
        · split
          · apply hother
            intro n fields heq
            cases heq
          · apply gives_failNext

/-! ### Whole texts -/

theorem read_eq_ok_iff {text : List Char} {value : Json} :
  read text = .ok value
    ↔ ∃ original rest, readValue levels text = .ok (original, rest) ∧ skipGaps rest = []
      ∧ original.normal = value
  := by
  rw [read, readFaithfully]
  cases hread : readValue levels text with
  | error e => simp [Except.map]
  | ok found =>
      obtain ⟨original, rest⟩ := found
      cases hrest : skipGaps rest with
      | nil => simp [hrest, Except.map]
      | cons c later => simp [hrest, Except.map, failNext]

theorem exists_of_normal_eq_object {value : Json} {fields : List (String × Json)}
    (h : value.normal = .object fields) :
  ∃ original, value = .object original
  := by
  cases value with
  | object original => use original
  | null | bool | number | string | array =>
      rw [normal] at h
      · cases h
      all_goals
        intro _ heq
        cases heq

/-- Only a text that starts with a brace is read as an object. -/
theorem exists_of_read_eq_object {text : List Char} {fields : List (String × Json)}
    (h : read text = .ok (.object fields)) :
  ∃ later, skipGaps text = '\x7b' :: later
  := by
  obtain ⟨original, rest, hvalue, -, hnormal⟩ := read_eq_ok_iff.mp h
  obtain ⟨found, rfl⟩ := exists_of_normal_eq_object hnormal
  apply gives_readValue_object levels text _ rest hvalue found rfl

/-- A text that is read and starts with a brace may be followed by blanks, and by nothing else. -/
theorem toOption_read_brace_append {rest : List Char} {value : Json}
    (h : read ('\x7b' :: rest) = .ok value) (more : List Char) :
  (read ('\x7b' :: (rest ++ more))).toOption = if skipGaps more = [] then some value else none
  := by
  obtain ⟨original, left, hvalue, hleft, rfl⟩ := read_eq_ok_iff.mp h
  have hlonger := goesOn_readValue_brace more levels rest original left hvalue
  split
  · rename_i hmore
    have hread : read ('\x7b' :: (rest ++ more)) = .ok original.normal := by
      rw [read_eq_ok_iff]
      use original, left ++ more, hlonger
      rw [skipGaps_append_of_nil hleft]
      use hmore
    rw [hread]
    rfl
  · rename_i hmore
    cases hread : read ('\x7b' :: (rest ++ more)) with
    | error e => rfl
    | ok other =>
        obtain ⟨original', left', hvalue', hleft', -⟩ := read_eq_ok_iff.mp hread
        rw [hlonger] at hvalue'
        obtain ⟨-, rfl⟩ := Prod.mk.inj (Except.ok.inj hvalue')
        rw [skipGaps_append_of_nil hleft] at hleft'
        exact absurd hleft' hmore

end Scrutiny.Json
