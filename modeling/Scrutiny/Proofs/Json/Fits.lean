import Mathlib.Algebra.Group.Int.Defs
import Mathlib.Tactic.SplitIfs
import Scrutiny.Proofs.Json.Normal
import Scrutiny.Proofs.Json.Scalars

/-!
# Numbers of 64 bits

Whole numbers in a value that was read can be held with 64 bits.
-/

namespace Scrutiny.Json

/-- A whole number can be held with 64 bits. -/
def Number.Fits : Number → Prop
  | .int n => -2 ^ 63 ≤ n ∧ n < 2 ^ 64
  | .double _ => True

theorem Number.fits_double (bits : UInt64) :
  (Number.double bits).Fits
  := trivial

/-- All that can be read has a property. -/
def Gives {α : Type} (reading : Reading α) (P : α → Prop) : Prop :=
  ∀ a rest, reading = .ok (a, rest) → P a

section

variable {α : Type} {P : α → Prop}

theorem gives_failNext (cause : Cause) (rest : List Char) :
  Gives (failNext cause rest) P
  := by
  intro a later h
  cases h

theorem gives_failLast (cause : Cause) (rest : List Char) :
  Gives (failLast cause rest) P
  := by
  intro a later h
  cases h

theorem gives_ok {a : α} (h : P a) (rest : List Char) :
  Gives (.ok (a, rest)) P
  := by
  intro b later heq
  cases heq
  apply h

theorem Gives.map {β : Type} {Q : β → Prop} {reading : Reading α} {f : α → β}
    (h : Gives reading fun a => Q (f a)) :
  Gives (reading.map fun (a, rest) => (f a, rest)) Q
  := by
  intro b later heq
  cases reading with
  | error e => cases heq
  | ok found =>
      cases heq
      apply h found.1 found.2 rfl

end

/-! ### Numbers -/

theorem readDigits_le {n : Nat} (h : n ≤ maxWhole) (count : Nat) (text : List Char) :
  (readDigits n count text).1 ≤ maxWhole
  := by
  induction text generalizing n count with
  | nil => apply h
  | cons c rest ih =>
      rw [readDigits]
      split
      · dsimp only
        split
        · apply h
        · rename_i hle
          apply ih (Nat.le_of_not_lt hle)
      · apply h

theorem gives_makeDouble (negative : Bool) (n : Nat) (e : Int) (rest : List Char) :
  Gives (makeDouble negative n e rest) Number.Fits
  := by
  rw [makeDouble]
  split
  · apply gives_ok (Number.fits_double _)
  · apply gives_failLast

theorem gives_readExponent (negative : Bool) (n : Nat) (e : Int) (text : List Char) :
  Gives (readExponent negative n e text) Number.Fits
  := by
  rw [readExponent.eq_def]
  dsimp only
  split
  · apply gives_failLast
  · split
    · split
      · apply gives_makeDouble
      · split_ifs
        · apply gives_failLast
        · apply gives_ok (Number.fits_double _)
    · apply gives_failLast

theorem gives_readTail (negative : Bool) (n : Nat) (e : Int) (text : List Char) :
  Gives (readTail negative n e text) Number.Fits
  := by
  rw [readTail.eq_def]
  split
  · apply gives_readExponent
  · apply gives_readExponent
  · apply gives_makeDouble

theorem gives_readFraction (negative : Bool) (n : Nat) (e : Int) (text : List Char) :
  Gives (readFraction negative n e text) Number.Fits
  := by
  rw [readFraction]
  dsimp only
  split
  · apply gives_readTail
  · split
    · split
      · apply gives_failNext
      · apply gives_failNext
    · apply gives_readTail

theorem gives_readNumberTail (negative : Bool) {n : Nat} (h : n ≤ maxWhole) (text : List Char) :
  Gives (readNumberTail negative n text) Number.Fits
  := by
  have hmax : maxWhole = 2 ^ 64 - 1 := rfl
  rw [readNumberTail.eq_def]
  split
  · apply gives_readFraction
  · apply gives_readExponent
  · apply gives_readExponent
  · split
    · apply gives_ok
      rw [Number.Fits]
      omega
    · split
      · apply gives_ok (Number.fits_double _)
      · rename_i hlarge
        have hpow : Nat.pow 2 63 = 2 ^ 63 := rfl
        simp only [Bool.or_eq_true, beq_iff_eq, decide_eq_true_eq, not_or, Nat.not_lt, hpow] at hlarge
        apply gives_ok
        rw [Number.Fits]
        omega

theorem gives_readNumber (negative : Bool) (text : List Char) :
  Gives (readNumber negative text) Number.Fits
  := by
  rw [readNumber.eq_def]
  split
  · apply gives_failLast
  · split
    · apply gives_failNext
    · apply gives_readNumberTail negative (Nat.zero_le _)
  · rename_i c rest _
    split
    · rename_i hc
      have hdigits : (readDigits (c.toNat - 48) 0 rest).1 ≤ maxWhole := by
        apply readDigits_le
        have hdigit : c.toNat ≤ 57 := by
          simp [Char.isDigit] at hc
          exact hc.2
        have hmax : maxWhole = 2 ^ 64 - 1 := rfl
        omega
      dsimp only
      split
      · split
        · apply gives_readFraction
        · apply gives_readTail
      · apply gives_readNumberTail negative hdigits
    · apply gives_failLast

/-! ### Values -/

/-- All numbers in a value can be held. -/
def Fits (value : Json) : Prop :=
  ∀ n ∈ value.numbers, n.Fits

theorem gives_readWord {P : Json → Prop} {value : Json} (h : P value) (word text : List Char) :
  Gives (readWord value word text) P
  := by
  induction word generalizing text with
  | nil => apply gives_ok h
  | cons w word ih =>
      cases text with
      | nil => apply gives_failLast
      | cons c text =>
          rw [readWord]
          split
          · apply ih
          · apply gives_failLast

/-- Reads an item and those after it, as a reader of items does. -/
def readNextItem (value : List Char → Reading Json) (fuel : Nat) (text : List Char) :
    Reading (List Json) :=
  match value text with
  | .error e => .error e
  | .ok (v, later) =>
    match readItems value false fuel later with
    | .error e => .error e
    | .ok (vs, after) => .ok (v :: vs, after)

/-- Reads a field and those after it, as a reader of fields does. -/
def readNextField (value : List Char → Reading Json) (fuel : Nat) (text : List Char) :
    Reading (List (String × Json)) :=
  match readString [] (text.length + 1) text with
  | .error e => .error e
  | .ok (name, later) =>
    match skipGaps later with
    | [] => failNext .endInObject []
    | ':' :: after =>
      match value after with
      | .error e => .error e
      | .ok (v, next) =>
        match readFields value false fuel next with
        | .error e => .error e
        | .ok (fields, last) => .ok ((name, v) :: fields, last)
    | after => failNext .expectedColon after

theorem gives_readItems {P : Json → Prop} {value : List Char → Reading Json}
    (h : ∀ text, Gives (value text) P) (first : Bool) (fuel : Nat) (text : List Char) :
  Gives (readItems value first fuel text) fun items => ∀ item ∈ items, P item
  := by
  induction fuel generalizing first text with
  | zero => apply gives_failNext
  | succ fuel ih =>
      have hitem (text : List Char) :
          Gives (readNextItem value fuel text) fun items => ∀ item ∈ items, P item := by
        intro items rest heq
        rw [readNextItem] at heq
        split at heq
        · cases heq
        · rename_i v later hv
          split at heq
          · cases heq
          · rename_i vs after hvs
            cases heq
            intro item hitem
            rcases List.mem_cons.mp hitem with rfl | hitem
            · apply h text item later hv
            · apply ih false later vs rest hvs item hitem
      rw [readItems]
      split
      · apply gives_failNext
      · apply gives_ok
        simp
      · dsimp only
        split
        · apply hitem
        · split
          · split
            · apply gives_failNext
            · apply gives_failNext
            · apply hitem
          · apply gives_failNext

theorem gives_readFields {P : Json → Prop} {value : List Char → Reading Json}
    (h : ∀ text, Gives (value text) P) (first : Bool) (fuel : Nat) (text : List Char) :
  Gives (readFields value first fuel text) fun fields => ∀ field ∈ fields, P field.2
  := by
  induction fuel generalizing first text with
  | zero => apply gives_failNext
  | succ fuel ih =>
      have hfield (text : List Char) :
          Gives (readNextField value fuel text) fun fields => ∀ field ∈ fields, P field.2 := by
        intro fields rest heq
        rw [readNextField] at heq
        split at heq
        · cases heq
        · split at heq
          · cases heq
          · rename_i after _
            split at heq
            · cases heq
            · rename_i v next hv
              split at heq
              · cases heq
              · rename_i others last hothers
                cases heq
                intro field hfield
                rcases List.mem_cons.mp hfield with rfl | hfield
                · apply h after v next hv
                · apply ih false next others rest hothers field hfield
          · cases heq
      rw [readFields]
      split
      · apply gives_failNext
      · apply gives_ok
        simp
      · dsimp only
        split
        · split
          · apply hfield
          · apply gives_failNext
        · split
          · split
            · apply gives_failNext
            · apply hfield
            · apply gives_failNext
            · apply gives_failNext
          · apply gives_failNext

/-- A value that was read holds whole numbers of 64 bits. -/
theorem gives_readValue (depth : Nat) (text : List Char) :
  Gives (readValue depth text) Fits
  := by
  have hnumber (negative : Bool) (text : List Char) : Gives
      ((readNumber negative text).map fun read => (.number read.1, read.2)) Fits := by
    apply Gives.map
    intro n rest hn m hm
    rw [List.mem_singleton.mp hm]
    apply gives_readNumber negative text n rest hn
  induction depth generalizing text with
  | zero => apply gives_failNext
  | succ depth ih =>
      rw [readValue]
      split
      · apply gives_failNext
      · split
        · apply gives_readWord
          simp [Fits, numbers]
        · apply gives_readWord
          simp [Fits, numbers]
        · apply gives_readWord
          simp [Fits, numbers]
        · apply Gives.map
          intro s rest hs
          simp [Fits, numbers]
        · apply hnumber
        · split
          · apply gives_failNext
          · apply Gives.map
            intro items rest hitems n hn
            obtain ⟨item, hitem, hn⟩ := exists_of_mem_numbers_array hn
            apply gives_readItems ih true _ _ items rest hitems item hitem n hn
        · split
          · apply gives_failNext
          · apply Gives.map
            intro fields rest hfields n hn
            obtain ⟨field, hfield, hn⟩ := exists_of_mem_numbers_object hn
            apply gives_readFields ih true _ _ fields rest hfields field hfield n hn
        · split
          · apply hnumber
          · apply gives_failNext

/-- A text that is read as a whole starts with a value; its fields are put in order. -/
theorem exists_of_read_eq_ok {text : List Char} {value : Json} (h : read text = .ok value) :
  ∃ original rest, readValue levels text = .ok (original, rest) ∧ value = original.normal
  := by
  rw [read] at h
  cases hread : readFaithfully text with
  | error e =>
      rw [hread] at h
      cases h
  | ok found =>
      rw [hread] at h
      rw [readFaithfully] at hread
      split at hread
      · cases hread
      · rename_i original rest hvalue
        split at hread
        · obtain rfl := Except.ok.inj hread
          use original, rest, hvalue, (Except.ok.inj h).symm
        · cases hread

/-- A text that is read as a whole gives a value that can be held, with its fields in order. -/
theorem of_read_eq_ok {text : List Char} {value : Json} (h : read text = .ok value) :
  value.IsNormal ∧ value.Fits
  := by
  obtain ⟨original, rest, hvalue, rfl⟩ := exists_of_read_eq_ok h
  use isNormal_normal original
  intro n hn
  apply gives_readValue levels text original rest hvalue n (mem_numbers_of_normal hn)

end Scrutiny.Json
