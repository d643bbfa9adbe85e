import Mathlib.Data.List.DropRight
import Mathlib.Order.Nat
import Mathlib.Tactic.Use
import Scrutiny.Chunk.Fallback

/-!
# Scopes by indentation

The definitions of a text whose blocks are marked by indentation, as its lines tell them: a line
encloses a later one if all lines of code after it, up to that one, are indented deeper.  A header
that no function encloses starts a definition, named after the classes that enclose it.  It ends
before the first line of code that its header does not enclose, and a class ends before the first
header in it.
-/

namespace Scrutiny.Fallback

open Text

/-! ### Lines that enclose others -/

/-- All lines of code after the line `i` and before the line `n` are indented deeper than `i`. -/
def IsDeeper (index : LineIndex) (i n : Nat) : Prop :=
  ∀ m < n, i < m → isCode (index.line m) → indentWidth (index.line i) < indentWidth (index.line m)

instance (index : LineIndex) (i n : Nat) : Decidable (IsDeeper index i n) :=
  inferInstanceAs (Decidable (∀ m < n, _ → _ → _))

/-- All lines of code after the line `i`, up to the line `j`, are indented deeper than `i`. -/
def Encloses (index : LineIndex) (i j : Nat) : Prop :=
  i < j ∧ IsDeeper index i (j + 1)

instance (index : LineIndex) (i j : Nat) : Decidable (Encloses index i j) :=
  inferInstanceAs (Decidable (_ ∧ _))

/-- Whether the header of a function encloses a line. -/
def isInFunction (index : LineIndex) (j : Nat) : Bool :=
  (List.range j).any fun i =>
    match header? (index.line i) with
    | some (.function, _) => decide (Encloses index i j)
    | _ => false

/-- The name of the class that starts on the line `i` if it encloses the line `j`. -/
def classAround? (index : LineIndex) (j i : Nat) : Option String :=
  match header? (index.line i) with
  | some (.type, name) => if Encloses index i j then some name else none
  | _ => none

/-- The name of what the line `j` defines, after the names of the classes that enclose it. -/
def pathAt (index : LineIndex) (j : Nat) (own : String) : String :=
  ".".intercalate ((List.range j).filterMap (classAround? index j) ++ [own])

/-! ### The lines of a definition -/

/-- The first of `count` lines with a property, or `count` if there is none. -/
def firstLine (count : Nat) (p : Nat → Bool) : Nat :=
  ((List.range count).find? p).getD count

/-- The last line of code before the line `n`, or zero if there is none. -/
def lastCodeBefore (index : LineIndex) : Nat → Nat
  | 0 => 0
  | n + 1 => if isCode (index.line n) then n else lastCodeBefore index n

/-- The first line of code after the line `j` that is not indented deeper, or the number of lines if
there is none. -/
def closingLine (index : LineIndex) (j : Nat) : Nat :=
  firstLine index.lineCount fun n =>
    decide (j < n) && isCode (index.line n)
      && decide (indentWidth (index.line n) ≤ indentWidth (index.line j))

/-- The first header that the line `j` encloses, or the number of lines if there is none. -/
def innerHeader (index : LineIndex) (j : Nat) : Nat :=
  firstLine index.lineCount fun n => (header? (index.line n)).isSome && decide (Encloses index j n)

/-- The line before which a definition ends: the closing line of its header, and for a class the
first header in it if that comes earlier. -/
def stopLine (index : LineIndex) (j : Nat) (kind : ChunkKind) : Nat :=
  if kind = .function then closingLine index j else min (closingLine index j) (innerHeader index j)

/-- The definition that starts on the line `j`, if a header stands there that is in no function. -/
def scopeUnit? (index : LineIndex) (j : Nat) : Option LineUnit :=
  (header? (index.line j)).bind fun (kind, own) =>
    if isInFunction index j then none
    else some { name := pathAt index j own, kind, first := j,
                last := lastCodeBefore index (stopLine index j kind) }

variable {index : LineIndex} {i j m n : Nat} {kind : ChunkKind} {own : String}

/-! ### Headers -/

theorem head_of_after? {mark text rest : List Char} {c : Char}
    (h : after? (c :: mark) text = some rest) :
  ∃ later, text = c :: later
  := by
  cases text with
  | nil => cases h
  | cons d later =>
      rw [after?] at h
      split at h
      · rename_i heq
        use later
        rw [eq_of_beq heq]
      · cases h

/-- A header starts with one of three letters. -/
theorem exists_trimStart_eq {line : List Char} (h : header? line = some (kind, own)) :
  ∃ c later, trimStart line = c :: later ∧ isBlank c = false ∧ c ≠ '#'
  := by
  unfold header? at h
  dsimp only at h
  obtain ⟨⟨found, later⟩, hfound, -⟩ := Option.bind_eq_some_iff.mp h
  cases hasync : after? "async ".toList (trimStart line) with
  | some rest =>
      obtain ⟨later, heq⟩ := head_of_after? hasync
      use 'a', later, heq, rfl, by decide
  | none =>
      rw [hasync] at hfound
      dsimp only at hfound
      split at hfound
      · rename_i hdef
        obtain ⟨later, heq⟩ := head_of_after? hdef
        use 'd', later, heq, rfl, by decide
      · obtain ⟨rest, hclass, -⟩ := Option.map_eq_some_iff.mp hfound
        obtain ⟨later, heq⟩ := head_of_after? hclass
        use 'c', later, heq, rfl, by decide

/-- A header is a line of code. -/
theorem isCode_of_header? {line : List Char} (h : header? line = some (kind, own)) :
  isCode line = true
  := by
  obtain ⟨c, later, htrim, hblank, hsign⟩ := exists_trimStart_eq h
  have hhead : ∃ rest, trim line = c :: rest := by
    have hfull : (c :: later).rdropWhile isBlank ≠ [] := by
      rw [Ne, List.rdropWhile_eq_nil_iff]
      intro hall
      rw [hall c List.mem_cons_self] at hblank
      cases hblank
    obtain ⟨d, rest, heq⟩ := List.exists_cons_of_ne_nil hfull
    have hfront := List.rdropWhile_prefix isBlank (c :: later)
    rw [heq, List.cons_prefix_cons] at hfront
    obtain ⟨rfl, -⟩ := hfront
    use rest
    rw [trim, htrim]
    apply heq
  obtain ⟨rest, heq⟩ := hhead
  rw [isCode, heq]
  simpa using hsign

/-- A header defines a function or a class. -/
theorem kind_of_header? {line : List Char} (h : header? line = some (kind, own)) :
  kind = .function ∨ kind = .type
  := by
  unfold header? at h
  dsimp only at h
  obtain ⟨⟨found, later⟩, hfound, h⟩ := Option.bind_eq_some_iff.mp h
  have hkind : found = kind := by
    split at h
    · cases h
    · cases h
      rfl
  rw [← hkind]
  split at hfound
  · left
    cases hfound
    rfl
  · right
    obtain ⟨rest, -, heq⟩ := Option.map_eq_some_iff.mp hfound
    cases heq
    rfl

/-! ### Enclosing lines -/

theorem IsDeeper.mono (h : IsDeeper index i n) (hle : m ≤ n) :
  IsDeeper index i m
  := fun k hk => h k (Nat.lt_of_lt_of_le hk hle)

/-- What is deeper than a line of code is deeper than the lines that it is deeper than. -/
theorem Encloses.trans_isDeeper (h : Encloses index i j) (hcode : isCode (index.line j))
    (hdeeper : IsDeeper index j n) :
  IsDeeper index i n
  := by
  intro m hm him hmcode
  rcases Nat.lt_or_ge j m with hjm | hmj
  · apply Nat.lt_trans (h.2 j (Nat.lt_succ_self j) h.1 hcode) (hdeeper m hm hjm hmcode)
  · apply h.2 m (Nat.lt_succ_of_le hmj) him hmcode

theorem Encloses.trans (h : Encloses index i j) (hcode : isCode (index.line j))
    (hnext : Encloses index j n) :
  Encloses index i n
  := ⟨Nat.lt_trans h.1 hnext.1, h.trans_isDeeper hcode hnext.2⟩

/-- What encloses a line encloses the lines between the two. -/
theorem Encloses.of_lt (h : Encloses index i n) (hij : i < j) (hjn : j ≤ n) :
  Encloses index i j
  := ⟨hij, h.2.mono (Nat.succ_le_succ hjn)⟩

theorem isInFunction_iff :
  isInFunction index j = true
    ↔ ∃ i own, header? (index.line i) = some (.function, own) ∧ Encloses index i j
  := by
  rw [isInFunction, List.any_eq_true]
  constructor
  · rintro ⟨i, -, hi⟩
    split at hi
    · rename_i own hheader
      exact ⟨i, own, hheader, of_decide_eq_true hi⟩
    · cases hi
  · rintro ⟨i, own, hheader, hencloses⟩
    use i, List.mem_range.mpr hencloses.1
    rw [hheader]
    apply decide_eq_true hencloses

theorem isInFunction_of_encloses (h : header? (index.line i) = some (.function, own))
    (hencloses : Encloses index i j) :
  isInFunction index j = true
  := isInFunction_iff.mpr ⟨i, own, h, hencloses⟩

/-- A line that encloses one that is in no function is in no function itself. -/
theorem isInFunction_eq_false_of_encloses (hcode : isCode (index.line i))
    (hencloses : Encloses index i j) (h : isInFunction index j = false) :
  isInFunction index i = false
  := by
  rw [Bool.eq_false_iff] at h ⊢
  intro hi
  obtain ⟨f, name, hheader, hf⟩ := isInFunction_iff.mp hi
  apply h (isInFunction_of_encloses hheader (hf.trans hcode hencloses))

/-- A line in a function is in one that is in no other function. -/
theorem exists_outermost (h : isInFunction index j = true) :
  ∃ i own, header? (index.line i) = some (.function, own) ∧ Encloses index i j
    ∧ isInFunction index i = false
  := by
  induction j using Nat.strong_induction_on with
  | _ j ih =>
      obtain ⟨i, own, hheader, hencloses⟩ := isInFunction_iff.mp h
      cases hin : isInFunction index i with
      | false => use i, own
      | true =>
          obtain ⟨f, name, hf, hfi, hout⟩ := ih i hencloses.1 hin
          use f, name, hf, hfi.trans (isCode_of_header? hheader) hencloses

/-! ### First lines and last lines -/

theorem firstLine_eq {count : Nat} {p : Nat → Bool} (hn : n < count) (hp : p n = true)
    (hbefore : ∀ m < n, p m = false) :
  firstLine count p = n
  := by
  have hfind : (List.range count).find? p = some n := by
    rw [List.find?_range_eq_some]
    use hp, List.mem_range.mpr hn
    intro m hm
    rw [hbefore m hm]
    rfl
  rw [firstLine, hfind, Option.getD_some]

theorem le_firstLine {count : Nat} {p : Nat → Bool} (hn : n ≤ count)
    (hbefore : ∀ m < n, p m = false) :
  n ≤ firstLine count p
  := by
  rw [firstLine]
  cases hfind : (List.range count).find? p with
  | none => apply hn
  | some m =>
      rw [Option.getD_some]
      by_contra hlt
      have hp := List.find?_some hfind
      rw [hbefore m (Nat.not_le.mp hlt)] at hp
      cases hp

theorem firstLine_le {count : Nat} (p : Nat → Bool) :
  firstLine count p ≤ count
  := by
  rw [firstLine]
  cases hfind : (List.range count).find? p with
  | none => apply Nat.le_refl
  | some m =>
      apply Nat.le_of_lt
      apply List.mem_range.mp (List.mem_of_find?_eq_some hfind)

theorem eq_false_of_lt_firstLine {count : Nat} {p : Nat → Bool} (h : n < firstLine count p) :
  p n = false
  := by
  by_contra hp
  rw [Bool.not_eq_false] at hp
  have hn : n ∈ List.range count := List.mem_range.mpr (Nat.lt_of_lt_of_le h (firstLine_le p))
  rw [firstLine] at h
  cases hfind : (List.range count).find? p with
  | none => exact List.find?_eq_none.mp hfind n hn hp
  | some m =>
      rw [hfind, Option.getD_some] at h
      have hbefore := (List.find?_range_eq_some.mp hfind).2.2 n h
      rw [hp] at hbefore
      cases hbefore

theorem lastCodeBefore_lt (h : 0 < n) :
  lastCodeBefore index n < n
  := by
  induction n with
  | zero => contradiction
  | succ n ih =>
      rw [lastCodeBefore]
      split
      · apply Nat.lt_succ_self
      · cases n with
        | zero => apply Nat.lt_succ_self
        | succ n => apply Nat.lt_succ_of_lt (ih (Nat.zero_lt_succ n))

theorem le_lastCodeBefore (hcode : isCode (index.line m)) (h : m < n) :
  m ≤ lastCodeBefore index n
  := by
  induction n with
  | zero => cases h
  | succ n ih =>
      rw [lastCodeBefore]
      split
      · apply Nat.le_of_lt_succ h
      · rename_i hnot
        apply ih
        apply Nat.lt_of_le_of_ne (Nat.le_of_lt_succ h)
        rintro rfl
        contradiction

/-- Lines that are deeper than a header are before its closing line. -/
theorem IsDeeper.le_closingLine (h : IsDeeper index j n) (hn : n ≤ index.lineCount) :
  n ≤ closingLine index j
  := by
  apply le_firstLine hn
  intro m hm
  by_contra hclosing
  simp only [Bool.not_eq_false, Bool.and_eq_true, decide_eq_true_eq] at hclosing
  obtain ⟨⟨hlt, hcode⟩, hle⟩ := hclosing
  have := h m hm hlt hcode
  omega

/-- The first line of code that is not deeper is the closing line. -/
theorem IsDeeper.closingLine_eq (h : IsDeeper index j n) (hn : n < index.lineCount) (hj : j < n)
    (hcode : isCode (index.line n)) (hle : indentWidth (index.line n) ≤ indentWidth (index.line j)) :
  closingLine index j = n
  := by
  apply firstLine_eq hn
  · simp only [Bool.and_eq_true, decide_eq_true_eq]
    use ⟨hj, hcode⟩
  · intro m hm
    by_contra hclosing
    simp only [Bool.not_eq_false, Bool.and_eq_true, decide_eq_true_eq] at hclosing
    obtain ⟨⟨hlt, hmcode⟩, hle⟩ := hclosing
    have := h m hm hlt hmcode
    omega

/-- The end of the text closes what is still open there. -/
theorem IsDeeper.closingLine_eq_lineCount (h : IsDeeper index j index.lineCount) :
  closingLine index j = index.lineCount
  := Nat.le_antisymm (firstLine_le _) (h.le_closingLine (Nat.le_refl _))

/-- A header encloses the lines before its closing line. -/
theorem encloses_of_lt_closingLine (hj : j < n) (h : n < closingLine index j) :
  Encloses index j n
  := by
  use hj
  intro m hm hlater hcode
  have hnot := eq_false_of_lt_firstLine (Nat.lt_of_le_of_lt (Nat.le_of_lt_succ hm) h)
  rw [decide_eq_true hlater, hcode, Bool.and_true, Bool.true_and, decide_eq_false_iff_not] at hnot
  apply Nat.lt_of_not_le hnot

/-- The first header in a scope comes after all lines that are none. -/
theorem le_innerHeader (hn : n ≤ index.lineCount)
    (hnone : ∀ m < n, j < m → header? (index.line m) = none) :
  n ≤ innerHeader index j
  := by
  apply le_firstLine hn
  intro m hm
  by_contra hinner
  simp only [Bool.not_eq_false, Bool.and_eq_true, decide_eq_true_eq] at hinner
  obtain ⟨hheader, hencloses⟩ := hinner
  rw [hnone m hm hencloses.1] at hheader
  cases hheader

theorem innerHeader_eq (hn : n < index.lineCount) (hencloses : Encloses index j n)
    (hheader : header? (index.line n) = some (kind, own))
    (hnone : ∀ m < n, j < m → header? (index.line m) = none) :
  innerHeader index j = n
  := by
  apply firstLine_eq hn
  · rw [hheader, decide_eq_true hencloses]
    rfl
  · intro m hm
    by_contra hinner
    simp only [Bool.not_eq_false, Bool.and_eq_true, decide_eq_true_eq] at hinner
    obtain ⟨hmheader, hmencloses⟩ := hinner
    rw [hnone m hm hmencloses.1] at hmheader
    cases hmheader

/-! ### Definitions -/

theorem scopeUnit?_eq_some (hheader : header? (index.line j) = some (kind, own))
    (hout : isInFunction index j = false) :
  scopeUnit? index j = some { name := pathAt index j own, kind, first := j,
                              last := lastCodeBefore index (stopLine index j kind) }
  := by
  rw [scopeUnit?, hheader, Option.bind_some, hout]
  rfl

/-- A definition starts where a header stands that is in no function. -/
theorem isSome_scopeUnit?_iff :
  (scopeUnit? index j).isSome
    ↔ (∃ kind own, header? (index.line j) = some (kind, own)) ∧ isInFunction index j = false
  := by
  constructor
  · intro h
    obtain ⟨unit, hunit⟩ := Option.isSome_iff_exists.mp h
    obtain ⟨⟨kind, own⟩, hheader, hunit⟩ := Option.bind_eq_some_iff.mp hunit
    dsimp only at hunit
    split at hunit
    · cases hunit
    · rename_i hout
      use ⟨kind, own, hheader⟩, Bool.eq_false_iff.mpr hout
  · rintro ⟨⟨kind, own, hheader⟩, hout⟩
    rw [scopeUnit?_eq_some hheader hout]
    rfl

theorem of_scopeUnit?_eq_some {unit : LineUnit} (h : scopeUnit? index j = some unit) :
  (∃ own, header? (index.line j) = some (unit.kind, own)) ∧ unit.first = j
    ∧ unit.last = lastCodeBefore index (stopLine index j unit.kind)
  := by
  obtain ⟨⟨kind, own⟩, hheader, hunit⟩ := Option.bind_eq_some_iff.mp h
  dsimp only at hunit
  split at hunit
  · cases hunit
  · obtain rfl := Option.some.inj hunit
    exact ⟨⟨own, hheader⟩, rfl, rfl⟩

theorem stopLine_le_lineCount (index : LineIndex) (j : Nat) (kind : ChunkKind) :
  stopLine index j kind ≤ index.lineCount
  := by
  rw [stopLine]
  split
  · apply firstLine_le
  · apply Nat.le_trans (Nat.min_le_right _ _) (firstLine_le _)

theorem lt_stopLine (kind : ChunkKind) (hj : j < index.lineCount) :
  j < stopLine index j kind
  := by
  have hclosing : j + 1 ≤ closingLine index j := by
    apply IsDeeper.le_closingLine _ hj
    intro m hm hlater
    exact absurd hlater (Nat.not_lt.mpr (Nat.le_of_lt_succ hm))
  have hinner : j + 1 ≤ innerHeader index j := by
    apply le_innerHeader hj
    intro m hm hlater
    exact absurd hlater (Nat.not_lt.mpr (Nat.le_of_lt_succ hm))
  rw [stopLine]
  split
  · apply hclosing
  · apply Nat.lt_min.mpr ⟨hclosing, hinner⟩

/-- A definition ends before the next one starts. -/
theorem stopLine_le (hheader : header? (index.line j) = some (kind, own)) (hj : j < n)
    (hnext : (scopeUnit? index n).isSome) :
  stopLine index j kind ≤ n
  := by
  obtain ⟨⟨other, name, hother⟩, hout⟩ := isSome_scopeUnit?_iff.mp hnext
  by_contra hlt
  rw [Nat.not_le] at hlt
  have hclosing : stopLine index j kind ≤ closingLine index j := by
    rw [stopLine]
    split
    · apply Nat.le_refl
    · apply Nat.min_le_left
  have hencloses := encloses_of_lt_closingLine hj (Nat.lt_of_lt_of_le hlt hclosing)
  rcases kind_of_header? hheader with rfl | rfl
  · rw [isInFunction_of_encloses hheader hencloses] at hout
    cases hout
  · rw [stopLine, if_neg (by decide)] at hlt
    have hnot := eq_false_of_lt_firstLine (Nat.lt_of_lt_of_le hlt (Nat.min_le_right _ _))
    rw [hother, decide_eq_true hencloses] at hnot
    cases hnot

end Scrutiny.Fallback
