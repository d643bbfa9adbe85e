import Mathlib.Data.List.TakeWhile
import Mathlib.Tactic.Use
import Scrutiny.Chunk.Fallback

/-!
# The units of lines

Every unit that is found in a text without a syntax tree starts on one of its lines, and its
name has neither of the two signs that number chunks: names are read up to the first character
that is not part of a word, and the names of nested scopes are joined by dots.
-/

namespace Scrutiny.Fallback

open Text

/-! ### Names -/

/-- Characters without the signs that number chunks of one name and parts of one chunk. -/
def IsPlain (chars : List Char) : Prop :=
  ∀ c ∈ chars, c ≠ '~' ∧ c ≠ '#'

theorem IsPlain.of_subset {chars others : List Char} (h : IsPlain chars) (hsub : others ⊆ chars) :
  IsPlain others
  := fun c hc => h c (hsub hc)

theorem IsPlain.append {chars others : List Char} (h : IsPlain chars) (hothers : IsPlain others) :
  IsPlain (chars ++ others)
  := by
  intro c hc
  rcases List.mem_append.mp hc with hc | hc
  · apply h c hc
  · apply hothers c hc

theorem isPlain_of_forall {p : Char → Bool} (htilde : p '~' = false) (hsign : p '#' = false)
    {chars : List Char} (h : ∀ c ∈ chars, p c = true) :
  IsPlain chars
  := by
  intro c hc
  have hp := h c hc
  constructor
  · rintro rfl
    rw [htilde] at hp
    cases hp
  · rintro rfl
    rw [hsign] at hp
    cases hp

theorem isPlain_of_all {chars : List Char} (h : chars.all fun c => c != '~' && c != '#') :
  IsPlain chars
  := isPlain_of_forall rfl rfl (List.all_eq_true.mp h)

theorem isPlain_takeWhile {p : Char → Bool} (htilde : p '~' = false) (hsign : p '#' = false)
    (chars : List Char) :
  IsPlain (chars.takeWhile p)
  := isPlain_of_forall htilde hsign fun _ hc => List.mem_takeWhile_imp hc

theorem isPlain_of_header?_eq_some {line : List Char} {kind : ChunkKind} {name : String}
    (h : header? line = some (kind, name)) :
  IsPlain name.toList
  := by
  unfold header? at h
  dsimp only at h
  obtain ⟨⟨found, later⟩, -, h⟩ := Option.bind_eq_some_iff.mp h
  split at h
  · cases h
  · cases h
    rw [String.toList_ofList]
    apply isPlain_takeWhile
    · rfl
    · rfl

theorem isPlain_of_name?_eq_some {dollar : Bool} {also : Char} (htilde : also ≠ '~')
    (hsign : also ≠ '#') {text name rest : List Char}
    (h : name? dollar also text = some (name, rest)) :
  IsPlain name
  := by
  cases text with
  | nil => cases h
  | cons c text =>
      rw [name?] at h
      split at h
      · rename_i hstarts
        obtain ⟨rfl, -⟩ := Prod.mk.inj (Option.some.inj h)
        have hfirst : IsPlain [c] := by
          apply isPlain_of_forall (p := startsName dollar)
          · cases dollar <;> rfl
          · cases dollar <;> rfl
          · intro d hd
            rw [List.mem_singleton.mp hd]
            apply hstarts
        apply hfirst.append
        apply isPlain_takeWhile
        · rw [Bool.or_eq_false_iff, beq_eq_false_iff_ne]
          use rfl, htilde.symm
        · rw [Bool.or_eq_false_iff, beq_eq_false_iff_ne]
          use rfl, hsign.symm
      · cases h

theorem isPlain_of_functionBinding?_eq_some {line : List Char} {name : String}
    (h : functionBinding? line = some name) :
  IsPlain name.toList
  := by
  unfold functionBinding? at h
  dsimp only at h
  obtain ⟨text, -, h⟩ := Option.bind_eq_some_iff.mp h
  obtain ⟨⟨bound, rest⟩, hname, h⟩ := Option.bind_eq_some_iff.mp h
  obtain ⟨value, -, h⟩ := Option.bind_eq_some_iff.mp h
  obtain ⟨later, -, rfl⟩ := Option.map_eq_some_iff.mp h
  rw [String.toList_ofList]
  apply isPlain_of_name?_eq_some _ _ hname
  · decide
  · decide

theorem isPlain_of_scriptDeclaration?_eq_some {line : List Char} {kind : ChunkKind} {name : String}
    (h : scriptDeclaration? line = some (kind, name)) :
  IsPlain name.toList
  := by
  unfold scriptDeclaration? at h
  split at h
  · rename_i hbinding
    obtain ⟨-, rfl⟩ := Prod.mk.inj (Option.some.inj h)
    apply isPlain_of_functionBinding?_eq_some hbinding
  · dsimp only at h
    obtain ⟨rest, -, h⟩ := Option.bind_eq_some_iff.mp h
    obtain ⟨⟨found, later⟩, -, h⟩ := Option.map_eq_some_iff.mp h
    dsimp only at h
    split at h
    · rename_i hname
      obtain ⟨-, rfl⟩ := Prod.mk.inj h
      rw [String.toList_ofList]
      apply isPlain_of_name?_eq_some _ _ hname
      · decide
      · decide
    · obtain ⟨-, rfl⟩ := Prod.mk.inj h
      apply isPlain_of_all
      decide

theorem beforeColons_subset (path : List Char) :
  Definitions.beforeColons path ⊆ path
  := by
  fun_induction Definitions.beforeColons path with
  | case1 => apply List.Subset.refl
  | case2 => apply List.nil_subset
  | case3 c rest _ ih => apply List.cons_subset_cons c ih

theorem lastSegment_subset (path : List Char) :
  Definitions.lastSegment path ⊆ path
  := by
  intro c hc
  apply List.mem_reverse.mp
  apply beforeColons_subset
  apply List.mem_reverse.mp hc

theorem isPlain_of_rustDeclaration?_eq_some {line : List Char} {kind : ChunkKind} {name : String}
    (h : rustDeclaration? line = some (kind, name)) :
  IsPlain name.toList
  := by
  unfold rustDeclaration? at h
  dsimp only at h
  obtain ⟨visible, -, h⟩ := Option.bind_eq_some_iff.mp h
  obtain ⟨⟨mark, later⟩, -, h⟩ := Option.bind_eq_some_iff.mp h
  dsimp only at h
  obtain ⟨path, hpath, h⟩ := Option.map_eq_some_iff.mp h
  obtain ⟨-, rfl⟩ := Prod.mk.inj h
  rw [String.toList_ofList]
  apply IsPlain.of_subset _ (lastSegment_subset path)
  split at hpath
  · split at hpath
    · cases hpath
    · obtain rfl := Option.some.inj hpath
      apply isPlain_takeWhile
      · rfl
      · rfl
  · obtain ⟨text, -, hpath⟩ := Option.bind_eq_some_iff.mp hpath
    obtain ⟨⟨own, rest⟩, hname, rfl⟩ := Option.map_eq_some_iff.mp hpath
    apply isPlain_of_name?_eq_some _ _ hname
    · decide
    · decide

theorem isPlain_of_declaration?_eq_some {language : Language} {line : List Char} {kind : ChunkKind}
    {name : String} (h : declaration? language line = some (kind, name)) :
  IsPlain name.toList
  := by
  unfold declaration? at h
  split at h
  · apply isPlain_of_rustDeclaration?_eq_some h
  · apply isPlain_of_scriptDeclaration?_eq_some h

/-! ### Units -/

/-- A unit starts on one of `count` lines, and its name is plain. -/
structure LineUnit.IsFound (count : Nat) (unit : LineUnit) : Prop where
  /-- The unit starts on one of the lines. -/
  first_lt : unit.first < count
  /-- The name has no sign that numbers chunks. -/
  plain : IsPlain unit.name.toList

/-- What holds at first and is kept by every line holds after all lines. -/
theorem foldl_range_induction {State : Type} {P : State → Prop} {count : Nat} {start : State}
    {step : State → Nat → State} (hstart : P start)
    (hstep : ∀ state n, n < count → P state → P (step state n)) :
  P ((List.range count).foldl step start)
  := by
  apply List.foldlRecOn (List.range count) step hstart
  intro state hstate n hn
  apply hstep state n (List.mem_range.mp hn) hstate

variable {count : Nat}

/-- A scope starts on one of `count` lines, and its name is plain. -/
structure OpenScope.IsFound (count : Nat) (scope : OpenScope) : Prop where
  /-- The scope starts on one of the lines. -/
  first_lt : scope.first < count
  /-- The name has no sign that numbers chunks. -/
  plain : IsPlain scope.name.toList

theorem OpenScope.IsFound.close {scope : OpenScope} (h : scope.IsFound count) (last : Nat) :
  ∀ unit ∈ scope.close last, unit.IsFound count
  := by
  intro unit hunit
  unfold OpenScope.close at hunit
  split at hunit
  · rw [List.mem_singleton.mp hunit]
    use h.first_lt, h.plain
  · cases hunit

/-- All open scopes and all units have been found on the lines of a text. -/
structure IndentState.IsFound (count : Nat) (state : IndentState) : Prop where
  /-- The open scopes have been found. -/
  scopes : ∀ scope ∈ state.scopes, scope.IsFound count
  /-- The units have been found. -/
  units : ∀ unit ∈ state.units, unit.IsFound count

theorem forall_mem_append_close {scope : OpenScope} (hscope : scope.IsFound count) (last : Nat)
    {units : List LineUnit} (hunits : ∀ unit ∈ units, unit.IsFound count) :
  ∀ unit ∈ units ++ scope.close last, unit.IsFound count
  := by
  intro unit hunit
  rcases List.mem_append.mp hunit with hunit | hunit
  · apply hunits unit hunit
  · apply hscope.close last unit hunit

namespace IndentState

theorem of_closeDeeper (lastCode indent : Nat) {scopes : List OpenScope} {units : List LineUnit}
    (hscopes : ∀ scope ∈ scopes, scope.IsFound count)
    (hunits : ∀ unit ∈ units, unit.IsFound count) :
  (∀ scope ∈ (closeDeeper lastCode indent scopes units).1, scope.IsFound count)
    ∧ ∀ unit ∈ (closeDeeper lastCode indent scopes units).2, unit.IsFound count
  := by
  induction scopes generalizing units with
  | nil => use hscopes, hunits
  | cons scope scopes ih =>
      obtain ⟨hscope, hrest⟩ := List.forall_mem_cons.mp hscopes
      rw [closeDeeper]
      split
      · apply ih hrest (forall_mem_append_close hscope lastCode hunits)
      · use hscopes, hunits

variable {state : IndentState}

theorem IsFound.openScope (h : state.IsFound count) {line : Nat} (hline : line < count)
    (indent : Nat) (kind : ChunkKind) {name : String} (hname : IsPlain name.toList) :
  (state.openScope line indent kind name).IsFound count
  := by
  unfold IndentState.openScope
  split
  · constructor
    · intro scope hscope
      rw [List.mem_singleton.mp hscope]
      use hline, hname
    · apply h.units
  · rename_i parent outer hscopes
    have hall := h.scopes
    rw [hscopes] at hall
    obtain ⟨hparent, houter⟩ := List.forall_mem_cons.mp hall
    split
    · apply h
    · constructor
      · intro scope hscope
        rcases List.mem_cons.mp hscope with rfl | hscope
        · use hline
          rw [String.toList_append, String.toList_append]
          apply (hparent.plain.append _).append hname
          intro c hc
          rw [List.mem_singleton.mp hc]
          decide
        rcases List.mem_cons.mp hscope with rfl | hscope
        · use hparent.first_lt, hparent.plain
        · apply houter scope hscope
      · dsimp only
        split
        · apply h.units
        · intro unit hunit
          rcases List.mem_append.mp hunit with hunit | hunit
          · apply h.units unit hunit
          · rw [List.mem_singleton.mp hunit]
            use hparent.first_lt, hparent.plain

theorem IsFound.step (h : state.IsFound count) {number : Nat} (hnumber : number < count)
    (line : List Char) :
  (state.step number line).IsFound count
  := by
  unfold IndentState.step
  split
  · obtain ⟨hscopes, hunits⟩ := of_closeDeeper state.lastCode (indentWidth line) h.scopes h.units
    dsimp only
    split
    · rename_i kind name hheader
      have hclosed : IndentState.IsFound count
          { state with
            scopes := (closeDeeper state.lastCode (indentWidth line) state.scopes state.units).1
            units := (closeDeeper state.lastCode (indentWidth line) state.scopes state.units).2 }
        := ⟨hscopes, hunits⟩
      have hopened := hclosed.openScope hnumber (indentWidth line) kind
        (isPlain_of_header?_eq_some hheader)
      use hopened.scopes, hopened.units
    · use hscopes, hunits
  · apply h

end IndentState

theorem isFound_of_mem_indentationUnits {index : LineIndex} {unit : LineUnit}
    (h : unit ∈ indentationUnits index) :
  unit.IsFound index.lineCount
  := by
  have hstate : IndentState.IsFound index.lineCount
      ((List.range index.lineCount).foldl (fun s n => s.step n (index.line n))
        { scopes := [], units := [], lastCode := 0 }) := by
    apply foldl_range_induction
    · constructor
      · simp
      · simp
    · intro state n hn hstate
      apply hstate.step hn
  -- The scopes that are still open are closed one after the other.
  suffices hall : ∀ unit ∈ indentationUnits index, unit.IsFound index.lineCount from hall unit h
  unfold indentationUnits
  dsimp only
  generalize (List.range index.lineCount).foldl (fun (s : IndentState) n => s.step n (index.line n))
    { scopes := [], units := [], lastCode := 0 } = state at hstate ⊢
  apply List.foldlRecOn (motive := fun units : List LineUnit =>
    ∀ unit ∈ units, unit.IsFound index.lineCount) state.scopes _ hstate.units
  intro units hunits scope hscope
  apply forall_mem_append_close (hstate.scopes scope hscope) _ hunits

/-- All units, and the one that is being read, have been found on the lines of a text. -/
structure BraceState.IsFound (count : Nat) (state : BraceState) : Prop where
  /-- The unit that is being read has been found. -/
  current : ∀ pending, state.current = some pending → ∀ last, (pending.unit last).IsFound count
  /-- The units have been found. -/
  units : ∀ unit ∈ state.units, unit.IsFound count

theorem BraceState.IsFound.step {state : BraceState} (h : state.IsFound count)
    (language : Language) {number : Nat} (hnumber : number < count) (line : List Char) :
  (state.step language number line).IsFound count
  := by
  unfold BraceState.step
  dsimp only
  split
  · constructor
    · simp
    · apply h.units
  · rename_i pending hcurrent
    have hpending (last : Nat) : (pending.unit last).IsFound count := by
      split at hcurrent
      · obtain ⟨⟨kind, name⟩, hdeclaration, rfl⟩ := Option.map_eq_some_iff.mp hcurrent
        use hnumber, isPlain_of_declaration?_eq_some hdeclaration
      · apply h.current pending hcurrent
    have hended (depth : Int) (lex : LexState) : BraceState.IsFound count
        { depth, lex, current := none, units := state.units ++ [pending.unit number] } := by
      constructor
      · simp
      · intro unit hunit
        rcases List.mem_append.mp hunit with hunit | hunit
        · apply h.units unit hunit
        · rw [List.mem_singleton.mp hunit]
          apply hpending
    have hgoesOn (depth : Int) (lex : LexState) (opened : Bool) : BraceState.IsFound count
        { depth, lex, current := some { pending with opened }, units := state.units } := by
      constructor
      · intro other hother last
        rw [← Option.some.inj hother]
        use (hpending last).first_lt, (hpending last).plain
      · apply h.units
    -- The unit has ended under one of two conditions: with its braces, or without any.
    split
    · split
      · apply hended
      · apply hgoesOn
    · split
      · apply hended
      · apply hgoesOn

theorem isFound_of_mem_braceUnits {index : LineIndex} {language : Language} {unit : LineUnit}
    (h : unit ∈ braceUnits index language) :
  unit.IsFound index.lineCount
  := by
  have hstate : BraceState.IsFound index.lineCount
      ((List.range index.lineCount).foldl (fun s n => s.step language n (index.line n))
        { depth := 0, lex := { comment := false, quote := none }, current := none, units := [] }) := by
    apply foldl_range_induction
    · constructor
      · simp
      · simp
    · intro state n hn hstate
      apply hstate.step language hn
  unfold braceUnits at h
  dsimp only at h
  split at h
  · apply hstate.units unit h
  · rename_i pending hcurrent
    rcases List.mem_append.mp h with h | h
    · apply hstate.units unit h
    · rw [List.mem_singleton.mp h]
      apply hstate.current pending hcurrent

/-- The units of a text start on its lines, and their names are plain. -/
theorem isFound_of_mem_units {index : LineIndex} {language : Language} {unit : LineUnit}
    (h : unit ∈ units index language) :
  unit.IsFound index.lineCount
  := by
  unfold units at h
  have h := (List.mergeSort_perm _ _).mem_iff.mp h
  split at h
  · apply isFound_of_mem_indentationUnits h
  · apply isFound_of_mem_braceUnits h

end Scrutiny.Fallback
