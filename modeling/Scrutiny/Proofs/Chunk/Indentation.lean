import Mathlib.Data.List.TakeDrop
import Scrutiny.Proofs.Chunk.Scopes

/-!
# Units by indentation

The units of a text are found by reading its lines one after the other with a stack of the scopes
that are still open.  At each line the stack holds the definitions that enclose it, since the scopes
in it are indented deeper and deeper, so that a line closes those at its top that it is not deeper
than.  At the end there is one unit for each definition that the lines tell.
-/

namespace Scrutiny.Fallback

open Text

variable {index : LineIndex} {i j m n : Nat} {kind : ChunkKind} {own : String}

/-! ### Open scopes -/

/-- A scope stands for the definition that starts on its first line, all lines of code after that and
before the line `n` are in it, and it tells whether it has ended its own unit before a header. -/
structure OpenScope.IsOpen (index : LineIndex) (n : Nat) (scope : OpenScope) : Prop where
  /-- The scope has the kind and the name of the header. -/
  header : ∃ own, header? (index.line scope.first) = some (scope.kind, own)
    ∧ scope.name = pathAt index scope.first own
  /-- The scope has the indentation of the header. -/
  indent_eq : scope.indent = indentWidth (index.line scope.first)
  /-- The scope starts before the line. -/
  first_lt : scope.first < n
  /-- The scope is in no function. -/
  out : isInFunction index scope.first = false
  /-- The scope reaches up to the line. -/
  deeper : IsDeeper index scope.first n
  /-- A class has ended its own unit if there is a header in it. -/
  emitted_iff : scope.emitted = true
    ↔ scope.kind ≠ .function ∧ ∃ m < n, scope.first < m ∧ (header? (index.line m)).isSome

namespace OpenScope.IsOpen

variable {scope : OpenScope}

theorem isCode (h : scope.IsOpen index n) :
  isCode (index.line scope.first) = true
  := by
  obtain ⟨own, hheader, -⟩ := h.header
  apply isCode_of_header? hheader

/-- What is open stays open on a line that is no code. -/
theorem of_not_isCode (h : scope.IsOpen index n) (hcode : ¬ Fallback.isCode (index.line n) = true) :
  scope.IsOpen index (n + 1)
  := by
  constructor
  · apply h.header
  · apply h.indent_eq
  · apply Nat.lt_succ_of_lt h.first_lt
  · apply h.out
  · intro m hm him hmcode
    rcases Nat.lt_succ_iff_lt_or_eq.mp hm with hlt | rfl
    · apply h.deeper m hlt him hmcode
    · contradiction
  · rw [h.emitted_iff]
    have hnone : header? (index.line n) = none := by
      by_contra hsome
      obtain ⟨⟨kind, own⟩, hheader⟩ := Option.ne_none_iff_exists'.mp hsome
      apply hcode (isCode_of_header? hheader)
    constructor
    · rintro ⟨hkind, m, hm, hlater⟩
      use hkind, m, Nat.lt_succ_of_lt hm
    · rintro ⟨hkind, m, hm, hlater, hheader⟩
      rcases Nat.lt_succ_iff_lt_or_eq.mp hm with hlt | rfl
      · use hkind, m, hlt
      · rw [hnone] at hheader
        cases hheader

/-- What is less indented than the next line stays open on it. -/
theorem encloses (h : scope.IsOpen index n) (hindent : scope.indent < indentWidth (index.line n)) :
  Encloses index scope.first n
  := by
  use h.first_lt
  intro m hm him hmcode
  rcases Nat.lt_succ_iff_lt_or_eq.mp hm with hlt | rfl
  · apply h.deeper m hlt him hmcode
  · rwa [← h.indent_eq]

/-- What encloses a line stays open on it, unless it is a class that has not ended before and the
line is a header. -/
theorem of_encloses (h : scope.IsOpen index n) (hencloses : Encloses index scope.first n)
    (hkeeps : header? (index.line n) = none ∨ scope.kind = .function ∨ scope.emitted = true) :
  scope.IsOpen index (n + 1)
  := by
  constructor
  · apply h.header
  · apply h.indent_eq
  · apply Nat.lt_succ_of_lt h.first_lt
  · apply h.out
  · apply hencloses.2
  · constructor
    · intro hemitted
      obtain ⟨hkind, m, hm, hrest⟩ := h.emitted_iff.mp hemitted
      use hkind, m, Nat.lt_succ_of_lt hm
    · rintro ⟨hkind, m, hm, hlater, hheader⟩
      rcases hkeeps with hnone | hfunction | hemitted
      · apply h.emitted_iff.mpr
        rcases Nat.lt_succ_iff_lt_or_eq.mp hm with hlt | rfl
        · use hkind, m, hlt
        · rw [hnone] at hheader
          cases hheader
      · contradiction
      · apply hemitted

/-- No header has come in a class that has not ended before. -/
theorem header?_eq_none (h : scope.IsOpen index n) (hemitted : scope.emitted = false)
    (hkind : scope.kind ≠ .function) :
  ∀ m < n, scope.first < m → header? (index.line m) = none
  := by
  intro m hm hlater
  by_contra hsome
  rw [Bool.eq_false_iff] at hemitted
  apply hemitted
  apply h.emitted_iff.mpr
  use hkind, m, hm, hlater, Option.isSome_iff_ne_none.mpr hsome

/-- A class ends its own unit before the first header in it. -/
theorem emit (h : scope.IsOpen index n) (hn : n < index.lineCount)
    (hencloses : Encloses index scope.first n) (hheader : header? (index.line n) = some (kind, own))
    (hemitted : scope.emitted = false) (hkind : scope.kind ≠ .function) :
  scopeUnit? index scope.first = some { name := scope.name, kind := .type, first := scope.first,
                                        last := lastCodeBefore index n }
    ∧ { scope with emitted := true }.IsOpen index (n + 1)
  := by
  obtain ⟨own, howner, hname⟩ := h.header
  have htype : scope.kind = .type := (kind_of_header? howner).resolve_left hkind
  have hstop : stopLine index scope.first .type = n := by
    rw [stopLine, if_neg (by decide), innerHeader_eq hn hencloses hheader
      (h.header?_eq_none hemitted hkind)]
    apply Nat.min_eq_right (h.deeper.le_closingLine (Nat.le_of_lt hn))
  constructor
  · rw [htype] at howner
    rw [scopeUnit?_eq_some howner h.out, hstop, ← hname]
  · constructor
    · use own
    · apply h.indent_eq
    · apply Nat.lt_succ_of_lt h.first_lt
    · apply h.out
    · apply hencloses.2
    · constructor
      · intro
        use hkind, n, Nat.lt_succ_self n, h.first_lt
        rw [hheader]
        rfl
      · intro
        rfl

/-- Of two open scopes the later one is indented deeper. -/
theorem indent_lt {other : OpenScope} (h : scope.IsOpen index n) (hother : other.IsOpen index n)
    (hlt : scope.first < other.first) :
  scope.indent < other.indent
  := by
  rw [h.indent_eq, hother.indent_eq]
  apply h.deeper other.first hother.first_lt hlt hother.isCode

/-- A scope ends with the last line of code before the line that closes it. -/
theorem close (h : scope.IsOpen index n) (hclosing : closingLine index scope.first = n)
    (hn : n ≤ index.lineCount) :
  (scope.emitted = true ∧ scope.close (lastCodeBefore index n) = [])
    ∨ (scope.emitted = false ∧ ∃ unit, scope.close (lastCodeBefore index n) = [unit]
      ∧ scopeUnit? index scope.first = some unit ∧ unit.first = scope.first)
  := by
  obtain ⟨own, hheader, hname⟩ := h.header
  cases hemitted : scope.emitted with
  | true =>
      left
      use rfl
      rw [OpenScope.close, hemitted, if_neg]
      simpa using (h.emitted_iff.mp hemitted).1
  | false =>
      right
      use rfl
      have hstop : stopLine index scope.first scope.kind = n := by
        rw [stopLine]
        split
        · apply hclosing
        · rename_i hkind
          rw [hclosing, Nat.min_eq_left]
          apply le_innerHeader hn (h.header?_eq_none hemitted hkind)
      have hlast := le_lastCodeBefore h.isCode h.first_lt
      rw [OpenScope.close, hemitted, if_pos (by simp), scopeUnit?_eq_some hheader h.out, hstop,
        Nat.max_eq_left hlast, ← hname]
      exact ⟨_, rfl, rfl, rfl⟩

end OpenScope.IsOpen

/-- The units of open scopes, which are those that have not ended before. -/
theorem close_scopes {scopes : List OpenScope} (hscopes : ∀ scope ∈ scopes, scope.IsOpen index n)
    (hclosing : ∀ scope ∈ scopes, closingLine index scope.first = n) (hn : n ≤ index.lineCount) :
  (∀ unit ∈ scopes.flatMap (·.close (lastCodeBefore index n)),
      scopeUnit? index unit.first = some unit)
    ∧ (scopes.flatMap (·.close (lastCodeBefore index n))).map (·.first)
      = (scopes.filter (!·.emitted)).map (·.first)
  := by
  induction scopes with
  | nil => simp
  | cons scope rest ih =>
      obtain ⟨hopen, hrest⟩ := List.forall_mem_cons.mp hscopes
      obtain ⟨hfirst, hothers⟩ := List.forall_mem_cons.mp hclosing
      obtain ⟨hunits, hfirsts⟩ := ih hrest hothers
      rw [List.flatMap_cons, List.map_append, hfirsts]
      rcases hopen.close hfirst hn with ⟨hemitted, hclose⟩ | ⟨hemitted, unit, hclose, hunit, heq⟩
      · rw [hclose, List.filter_cons_of_neg (by simp [hemitted])]
        use hunits
        rfl
      · rw [hclose, List.filter_cons_of_pos (by simp [hemitted])]
        constructor
        · intro other hother
          rcases List.mem_append.mp hother with hother | hother
          · rw [List.mem_singleton.mp hother, heq]
            apply hunit
          · apply hunits other hother
        · rw [List.map_singleton, heq]
          rfl

/-- What is deeper than the innermost scope is deeper than all scopes. -/
theorem indent_lt_of_head? {indent : Nat} {scopes : List OpenScope}
    (hopen : ∀ scope ∈ scopes, scope.IsOpen index n)
    (horder : scopes.Pairwise fun inner outer => outer.first < inner.first)
    (hhead : ∀ scope ∈ scopes.head?, scope.indent < indent) :
  ∀ scope ∈ scopes, scope.indent < indent
  := by
  intro scope hscope
  cases scopes with
  | nil => cases hscope
  | cons top outer =>
      have htop : top.indent < indent := hhead top rfl
      rcases List.mem_cons.mp hscope with rfl | houter
      · apply htop
      · apply Nat.lt_trans _ htop
        apply (hopen scope hscope).indent_lt (hopen top List.mem_cons_self)
        apply (List.pairwise_cons.mp horder).1 scope houter

/-! ### Reading the lines -/

namespace IndentState

/-- What is known after the first `n` lines: the definitions that have ended, and the open ones, the
innermost first. -/
structure Follows (index : LineIndex) (n : Nat) (state : IndentState) : Prop where
  /-- The last line of code is known. -/
  lastCode_eq : state.lastCode = lastCodeBefore index n
  /-- The scopes are open. -/
  isOpen : ∀ scope ∈ state.scopes, scope.IsOpen index n
  /-- Inner scopes start later. -/
  inOrder : state.scopes.Pairwise fun inner outer => outer.first < inner.first
  /-- Every definition that is open has a scope. -/
  mem_scopes : ∀ i < n, (scopeUnit? index i).isSome → IsDeeper index i n →
    ∃ scope ∈ state.scopes, scope.first = i
  /-- The units are definitions. -/
  units : ∀ unit ∈ state.units, scopeUnit? index unit.first = some unit
  /-- Every definition has a unit, or a scope that has not ended its own. -/
  firsts : (state.units.map (·.first) ++ (state.scopes.filter (!·.emitted)).map (·.first)).Perm
    ((List.range n).filter fun i => (scopeUnit? index i).isSome)

/-- Closing takes scopes from the top of the stack. -/
theorem exists_closeDeeper (lastCode indent : Nat) (scopes : List OpenScope) (units : List LineUnit) :
  ∃ closed, scopes = closed ++ (closeDeeper lastCode indent scopes units).1
    ∧ (∀ scope ∈ closed, indent ≤ scope.indent)
    ∧ (∀ scope ∈ (closeDeeper lastCode indent scopes units).1.head?, scope.indent < indent)
    ∧ (closeDeeper lastCode indent scopes units).2 = units ++ closed.flatMap (·.close lastCode)
  := by
  induction scopes generalizing units with
  | nil =>
      use []
      simp [closeDeeper]
  | cons scope rest ih =>
      rw [closeDeeper]
      split
      · rename_i hle
        obtain ⟨closed, hscopes, hclosed, hhead, hunits⟩ := ih (units ++ scope.close lastCode)
        use scope :: closed
        rw [List.cons_append, ← hscopes, hunits, List.flatMap_cons, List.append_assoc]
        use rfl, List.forall_mem_cons.mpr ⟨hle, hclosed⟩
      · rename_i hlt
        use []
        simpa using hlt

variable {state : IndentState}

theorem follows_start :
  Follows index 0 { scopes := [], units := [], lastCode := 0 }
  := by
  constructor <;> simp [lastCodeBefore]

/-- Lines that are no code change nothing. -/
theorem Follows.of_not_isCode (h : state.Follows index n)
    (hcode : ¬ isCode (index.line n) = true) :
  state.Follows index (n + 1)
  := by
  have hnone : scopeUnit? index n = none := by
    rw [← Option.not_isSome_iff_eq_none, isSome_scopeUnit?_iff]
    rintro ⟨⟨kind, own, hheader⟩, -⟩
    apply hcode (isCode_of_header? hheader)
  constructor
  · rw [lastCodeBefore, if_neg hcode]
    apply h.lastCode_eq
  · intro scope hscope
    apply (h.isOpen scope hscope).of_not_isCode hcode
  · apply h.inOrder
  · intro i hi hsome hdeeper
    rcases Nat.lt_succ_iff_lt_or_eq.mp hi with hlt | rfl
    · apply h.mem_scopes i hlt hsome (hdeeper.mono (Nat.le_succ n))
    · rw [hnone] at hsome
      cases hsome
  · apply h.units
  · rw [List.range_succ, List.filter_append, List.filter_singleton, hnone]
    simpa using h.firsts

/-- What is known on the line of code `n` when the scopes are closed that it is not deeper than: the
open scopes are the definitions that enclose the line. -/
structure Surrounds (index : LineIndex) (n : Nat) (scopes : List OpenScope) (units : List LineUnit) :
    Prop where
  /-- The scopes are open and enclose the line. -/
  isOpen : ∀ scope ∈ scopes, scope.IsOpen index n ∧ Encloses index scope.first n
  /-- Inner scopes start later. -/
  inOrder : scopes.Pairwise fun inner outer => outer.first < inner.first
  /-- Every definition that encloses the line has a scope. -/
  mem_scopes : ∀ i, (scopeUnit? index i).isSome → Encloses index i n →
    ∃ scope ∈ scopes, scope.first = i
  /-- The units are definitions. -/
  isUnit : ∀ unit ∈ units, scopeUnit? index unit.first = some unit
  /-- Every definition has a unit, or a scope that has not ended its own. -/
  firsts : (units.map (·.first) ++ (scopes.filter (!·.emitted)).map (·.first)).Perm
    ((List.range n).filter fun i => (scopeUnit? index i).isSome)

/-- On a line of code those scopes are closed that it is not deeper than. -/
theorem Follows.closeDeeper (h : state.Follows index n) (hn : n < index.lineCount)
    (hcode : isCode (index.line n) = true) :
  Surrounds index n
    (closeDeeper state.lastCode (indentWidth (index.line n)) state.scopes state.units).1
    (closeDeeper state.lastCode (indentWidth (index.line n)) state.scopes state.units).2
  := by
  obtain ⟨closed, hscopes, hclosed, hhead, hunits⟩ :=
    exists_closeDeeper state.lastCode (indentWidth (index.line n)) state.scopes state.units
  generalize (IndentState.closeDeeper state.lastCode (indentWidth (index.line n)) state.scopes
    state.units).1 = scopes at hscopes hhead ⊢
  rw [hunits]
  have hopen := h.isOpen
  have horder := h.inOrder
  have hfirsts := h.firsts
  rw [hscopes] at hopen horder hfirsts
  have hopen' : ∀ scope ∈ scopes, scope.IsOpen index n :=
    fun scope hscope => hopen scope (List.mem_append_right _ hscope)
  obtain ⟨-, horder', -⟩ := List.pairwise_append.mp horder
  have hkept := indent_lt_of_head? hopen' horder' hhead
  have hclosing : ∀ scope ∈ closed, closingLine index scope.first = n := by
    intro scope hscope
    have hscope' := hopen scope (List.mem_append_left _ hscope)
    apply hscope'.deeper.closingLine_eq hn hscope'.first_lt hcode
    rw [← hscope'.indent_eq]
    apply hclosed scope hscope
  obtain ⟨hunits', hfirsts'⟩ := close_scopes
    (fun scope hscope => hopen scope (List.mem_append_left _ hscope)) hclosing (Nat.le_of_lt hn)
  rw [← h.lastCode_eq] at hunits' hfirsts'
  constructor
  · intro scope hscope
    exact ⟨hopen' scope hscope, (hopen' scope hscope).encloses (hkept scope hscope)⟩
  · apply horder'
  · intro i hsome hencloses
    have hi := hencloses.2.mono (Nat.le_succ n)
    obtain ⟨scope, hscope, rfl⟩ := h.mem_scopes i hencloses.1 hsome hi
    rw [hscopes] at hscope
    rcases List.mem_append.mp hscope with hscope' | hscope'
    · exfalso
      have hlt := hencloses.2 n (Nat.lt_succ_self n) hencloses.1 hcode
      have hle := hclosed scope hscope'
      rw [(hopen scope hscope).indent_eq] at hle
      omega
    · use scope, hscope'
  · intro unit hunit
    rcases List.mem_append.mp hunit with hunit | hunit
    · apply h.units unit hunit
    · apply hunits' unit hunit
  · rw [List.filter_append, List.map_append, ← List.append_assoc] at hfirsts
    rw [List.map_append, hfirsts']
    apply hfirsts

/-! ### The line itself -/

/-- The lines before `n`, by a line `i` of them. -/
theorem range_eq_append (h : i < n) :
  List.range n = List.range i ++ i :: List.range' (i + 1) (n - (i + 1))
  := by
  have hsum : n = i + (n - (i + 1) + 1) := by omega
  calc List.range n
    _ = List.range' 0 (i + (n - (i + 1) + 1)) := by rw [List.range_eq_range', ← hsum]
    _ = List.range i ++ List.range' i (n - (i + 1) + 1) := by
        rw [← List.range'_append_1, ← List.range_eq_range', Nat.zero_add]
    _ = _ := by rw [List.range'_succ]

namespace Surrounds

variable {scopes outer : List OpenScope} {parent scope : OpenScope} {units : List LineUnit}

/-- A line with no scope around it is enclosed by no header. -/
theorem not_encloses_of_nil (h : Surrounds index n [] units)
    (hheader : header? (index.line i) = some (kind, own)) :
  ¬ Encloses index i n
  := by
  intro hencloses
  have hout : isInFunction index n = false := by
    rw [Bool.eq_false_iff]
    intro hin
    obtain ⟨f, name, hf, hfn, hfout⟩ := exists_outermost hin
    obtain ⟨scope, hscope, -⟩ := h.mem_scopes f (isSome_scopeUnit?_iff.mpr ⟨⟨_, _, hf⟩, hfout⟩) hfn
    cases hscope
  have hiout := isInFunction_eq_false_of_encloses (isCode_of_header? hheader) hencloses hout
  obtain ⟨scope, hscope, -⟩ :=
    h.mem_scopes i (isSome_scopeUnit?_iff.mpr ⟨⟨_, _, hheader⟩, hiout⟩) hencloses
  cases hscope

/-- No scope has another one around it that is a function. -/
theorem of_mem_outer (h : Surrounds index n (parent :: outer) units) (hscope : scope ∈ outer) :
  scope.kind ≠ .function ∧ scope.emitted = true
  := by
  obtain ⟨hparent, -⟩ := h.isOpen parent List.mem_cons_self
  obtain ⟨hopen, hencloses⟩ := h.isOpen scope (List.mem_cons_of_mem _ hscope)
  have hlt := (List.pairwise_cons.mp h.inOrder).1 scope hscope
  obtain ⟨own, hheader, -⟩ := hopen.header
  obtain ⟨name, hinner, -⟩ := hparent.header
  have hkind : scope.kind ≠ .function := by
    intro hfunction
    rw [hfunction] at hheader
    have hin := isInFunction_of_encloses hheader
      (hencloses.of_lt hlt (Nat.le_of_lt hparent.first_lt))
    rw [hparent.out] at hin
    cases hin
  use hkind
  apply hopen.emitted_iff.mpr
  use hkind, parent.first, hparent.first_lt, hlt
  rw [hinner]
  rfl

/-- A line is in a function exactly if the innermost scope around it is one. -/
theorem isInFunction_eq (h : Surrounds index n (parent :: outer) units) :
  isInFunction index n = (parent.kind == .function)
  := by
  obtain ⟨hparent, hencloses⟩ := h.isOpen parent List.mem_cons_self
  obtain ⟨own, hheader, -⟩ := hparent.header
  rw [Bool.eq_iff_iff, beq_iff_eq]
  constructor
  · intro hin
    obtain ⟨f, name, hf, hfn, hfout⟩ := exists_outermost hin
    obtain ⟨scope, hscope, rfl⟩ :=
      h.mem_scopes f (isSome_scopeUnit?_iff.mpr ⟨⟨_, _, hf⟩, hfout⟩) hfn
    obtain ⟨other, hother, -⟩ := (h.isOpen scope hscope).1.header
    have hkind : scope.kind = .function := by
      rw [hf] at hother
      apply (Prod.mk.inj (Option.some.inj hother)).1.symm
    rcases List.mem_cons.mp hscope with rfl | hscope
    · apply hkind
    · exact absurd hkind (h.of_mem_outer hscope).1
  · intro hkind
    rw [hkind] at hheader
    apply isInFunction_of_encloses hheader hencloses

/-- No class after the innermost scope encloses the line. -/
theorem classAround?_eq_none (h : Surrounds index n (parent :: outer) units)
    (hout : isInFunction index n = false) (hlater : parent.first < i) :
  classAround? index n i = none
  := by
  rw [classAround?]
  split
  · rename_i name hheader
    apply if_neg
    intro hin
    have hiout := isInFunction_eq_false_of_encloses (isCode_of_header? hheader) hin hout
    obtain ⟨scope, hscope, rfl⟩ :=
      h.mem_scopes i (isSome_scopeUnit?_iff.mpr ⟨⟨_, _, hheader⟩, hiout⟩) hin
    rcases List.mem_cons.mp hscope with rfl | hscope
    · omega
    · have := (List.pairwise_cons.mp h.inOrder).1 scope hscope
      omega
  · rfl

/-- A class before the innermost scope encloses the line if it encloses that scope. -/
theorem classAround?_eq (h : Surrounds index n (parent :: outer) units) (hi : i < parent.first) :
  classAround? index n i = classAround? index parent.first i
  := by
  obtain ⟨hparent, hencloses⟩ := h.isOpen parent List.mem_cons_self
  have hiff : Encloses index i n ↔ Encloses index i parent.first := by
    constructor
    · intro hin
      apply hin.of_lt hi (Nat.le_of_lt hencloses.1)
    · intro hip
      apply hip.trans hparent.isCode hencloses
  simp only [classAround?, hiff]

/-- The path of a line in a class is that of the class with the name of the line after it. -/
theorem pathAt_eq (h : Surrounds index n (parent :: outer) units) (hkind : parent.kind ≠ .function)
    (own : String) :
  pathAt index n own = parent.name ++ "." ++ own
  := by
  obtain ⟨hparent, hencloses⟩ := h.isOpen parent List.mem_cons_self
  obtain ⟨name, hheader, hname⟩ := hparent.header
  have hout : isInFunction index n = false := by
    rw [h.isInFunction_eq]
    simpa using hkind
  have htype : parent.kind = .type := (kind_of_header? hheader).resolve_left hkind
  -- The classes around the line are those around its parent, the parent, and none after it.
  have hbefore : (List.range parent.first).filterMap (classAround? index n)
      = (List.range parent.first).filterMap (classAround? index parent.first) :=
    List.filterMap_congr fun i hi => h.classAround?_eq (List.mem_range.mp hi)
  have hself : classAround? index n parent.first = some name := by
    rw [classAround?, hheader, htype]
    apply if_pos hencloses
  have hafter : ∀ i ∈ List.range' (parent.first + 1) (n - (parent.first + 1)),
      classAround? index n i = none :=
    fun i hi => h.classAround?_eq_none hout (List.mem_range'_1.mp hi).1
  rw [pathAt, range_eq_append hencloses.1, List.filterMap_append, hbefore,
    List.filterMap_cons_some hself, List.filterMap_eq_nil_iff.mpr hafter,
    String.intercalate_append_of_ne_nil (by simp) (by simp), String.intercalate_singleton, hname,
    pathAt]

end Surrounds

/-- What is known after the line `n`, but for what it starts itself. -/
structure Continues (index : LineIndex) (n : Nat) (scopes : List OpenScope) (units : List LineUnit) :
    Prop where
  /-- The scopes start before the line and are open after it. -/
  isOpen : ∀ scope ∈ scopes, scope.first < n ∧ scope.IsOpen index (n + 1)
  /-- Inner scopes start later. -/
  inOrder : scopes.Pairwise fun inner outer => outer.first < inner.first
  /-- Every earlier definition that is still open has a scope. -/
  mem_scopes : ∀ i < n, (scopeUnit? index i).isSome → IsDeeper index i (n + 1) →
    ∃ scope ∈ scopes, scope.first = i
  /-- The units are definitions. -/
  isUnit : ∀ unit ∈ units, scopeUnit? index unit.first = some unit
  /-- Every earlier definition has a unit, or a scope that has not ended its own. -/
  firsts : (units.map (·.first) ++ (scopes.filter (!·.emitted)).map (·.first)).Perm
    ((List.range n).filter fun i => (scopeUnit? index i).isSome)

variable {scopes outer : List OpenScope} {parent scope : OpenScope} {units : List LineUnit}

/-- The scopes around a line stay as they are if no class ends before it. -/
theorem Surrounds.continues (h : Surrounds index n scopes units)
    (hkeeps : ∀ scope ∈ scopes,
      header? (index.line n) = none ∨ scope.kind = .function ∨ scope.emitted = true) :
  Continues index n scopes units
  := by
  constructor
  · intro scope hscope
    obtain ⟨hopen, hencloses⟩ := h.isOpen scope hscope
    exact ⟨hopen.first_lt, hopen.of_encloses hencloses (hkeeps scope hscope)⟩
  · apply h.inOrder
  · intro i hi hsome hdeeper
    apply h.mem_scopes i hsome ⟨hi, hdeeper⟩
  · apply h.isUnit
  · apply h.firsts

/-- A header in a class ends the unit of the class. -/
theorem Surrounds.continues_of_header (h : Surrounds index n (parent :: outer) units)
    (hn : n < index.lineCount) (hkind : parent.kind ≠ .function)
    (hheader : header? (index.line n) = some (kind, own)) :
  Continues index n ({ parent with emitted := true } :: outer)
    (if parent.emitted then units
      else units ++ [{ name := parent.name, kind := .type, first := parent.first,
                       last := lastCodeBefore index n }])
  := by
  cases hemitted : parent.emitted with
  | true =>
      have hsame : { parent with emitted := true } = parent := by rw [← hemitted]
      rw [hsame, if_pos rfl]
      apply h.continues
      rintro scope (_ | ⟨_, hscope⟩)
      · exact .inr (.inr hemitted)
      · exact .inr (.inr (h.of_mem_outer hscope).2)
  | false =>
      obtain ⟨hparent, hencloses⟩ := h.isOpen parent List.mem_cons_self
      obtain ⟨hunit, hopen⟩ := hparent.emit hn hencloses hheader hemitted hkind
      obtain ⟨horder, houter⟩ := List.pairwise_cons.mp h.inOrder
      constructor
      · rintro scope (_ | ⟨_, hscope⟩)
        · exact ⟨hparent.first_lt, hopen⟩
        · obtain ⟨hinner, hinnerEncloses⟩ := h.isOpen scope (List.mem_cons_of_mem _ hscope)
          have hkeeps := hinner.of_encloses hinnerEncloses (.inr (.inr (h.of_mem_outer hscope).2))
          exact ⟨hinner.first_lt, hkeeps⟩
      · constructor
        · apply horder
        · apply houter
      · intro i hi hsome hdeeper
        obtain ⟨scope, hscope, heq⟩ := h.mem_scopes i hsome ⟨hi, hdeeper⟩
        rcases List.mem_cons.mp hscope with rfl | hscope
        · exact ⟨_, List.mem_cons_self, heq⟩
        · use scope, List.mem_cons_of_mem _ hscope
      · intro unit hmem
        rcases List.mem_append.mp hmem with hmem | hmem
        · apply h.isUnit unit hmem
        · rw [List.mem_singleton.mp hmem]
          apply hunit
      · have hfirsts := h.firsts
        rw [List.filter_cons_of_pos (by simp [hemitted])] at hfirsts
        simpa using hfirsts

/-- A line that starts nothing. -/
theorem Continues.of_none (h : Continues index n scopes units) (hcode : isCode (index.line n) = true)
    (hnone : scopeUnit? index n = none) :
  Follows index (n + 1) { scopes, units, lastCode := n }
  := by
  constructor
  · rw [lastCodeBefore, if_pos hcode]
  · intro scope hscope
    apply (h.isOpen scope hscope).2
  · apply h.inOrder
  · intro i hi hsome hdeeper
    rcases Nat.lt_succ_iff_lt_or_eq.mp hi with hlt | rfl
    · apply h.mem_scopes i hlt hsome hdeeper
    · rw [hnone] at hsome
      cases hsome
  · apply h.isUnit
  · rw [List.range_succ, List.filter_append, List.filter_singleton, hnone]
    simpa using h.firsts

/-- A line that starts a definition. -/
theorem Continues.of_header (h : Continues index n scopes units)
    (hheader : header? (index.line n) = some (kind, own)) (hout : isInFunction index n = false) :
  Follows index (n + 1)
    { scopes := { indent := indentWidth (index.line n), name := pathAt index n own, kind, first := n,
                  emitted := false } :: scopes,
      units, lastCode := n }
  := by
  have hsome : (scopeUnit? index n).isSome := isSome_scopeUnit?_iff.mpr ⟨⟨kind, own, hheader⟩, hout⟩
  have hnothing : ∀ m < n + 1, ¬ n < m := fun m hm => Nat.not_lt.mpr (Nat.le_of_lt_succ hm)
  constructor
  · rw [lastCodeBefore, if_pos (isCode_of_header? hheader)]
  · rintro scope (_ | ⟨_, hscope⟩)
    · constructor
      · use own, hheader
      · rfl
      · apply Nat.lt_succ_self
      · apply hout
      · intro m hm hlater
        exact absurd hlater (hnothing m hm)
      · constructor
        · intro h
          cases h
        · rintro ⟨-, m, hm, hlater, -⟩
          exact absurd hlater (hnothing m hm)
    · apply (h.isOpen scope hscope).2
  · constructor
    · intro scope hscope
      apply (h.isOpen scope hscope).1
    · apply h.inOrder
  · intro i hi hisome hdeeper
    rcases Nat.lt_succ_iff_lt_or_eq.mp hi with hlt | rfl
    · obtain ⟨scope, hscope, heq⟩ := h.mem_scopes i hlt hisome hdeeper
      use scope, List.mem_cons_of_mem _ hscope
    · exact ⟨_, List.mem_cons_self, rfl⟩
  · apply h.isUnit
  · rw [List.range_succ, List.filter_append, List.filter_singleton, hsome, cond_true,
      List.filter_cons_of_pos rfl, List.map_cons]
    apply List.perm_middle.trans
    apply (List.perm_append_singleton _ _).symm.trans
    apply h.firsts.append_right

/-- Opening the scope of a header keeps what is known. -/
theorem Surrounds.openScope (h : Surrounds index n scopes units) (hn : n < index.lineCount)
    (hheader : header? (index.line n) = some (kind, own)) (lastCode : Nat)
    (hlast : lastCode = lastCodeBefore index n) :
  Follows index (n + 1)
    { IndentState.openScope { scopes, units, lastCode } n (indentWidth (index.line n)) kind own with
      lastCode := n }
  := by
  have hcode := isCode_of_header? hheader
  cases scopes with
  | nil =>
      have hout : isInFunction index n = false := by
        rw [Bool.eq_false_iff]
        intro hin
        obtain ⟨f, name, hf, hfn⟩ := isInFunction_iff.mp hin
        apply h.not_encloses_of_nil hf hfn
      have hpath : pathAt index n own = own := by
        have hnone : (List.range n).filterMap (classAround? index n) = [] := by
          rw [List.filterMap_eq_nil_iff]
          intro i hi
          rw [classAround?]
          split
          · rename_i hother
            apply if_neg (h.not_encloses_of_nil hother)
          · rfl
        rw [pathAt, hnone, List.nil_append, String.intercalate_singleton]
      have hnext := (h.continues (by simp)).of_header hheader hout
      rw [hpath] at hnext
      apply hnext
  | cons parent outer =>
      rw [IndentState.openScope]
      dsimp only
      split
      · rename_i hkind
        have hnone : scopeUnit? index n = none := by
          rw [← Option.not_isSome_iff_eq_none, isSome_scopeUnit?_iff, h.isInFunction_eq, hkind]
          simp
        apply Continues.of_none (h.continues _) hcode hnone
        rintro scope (_ | ⟨_, hscope⟩)
        · exact .inr (.inl (eq_of_beq hkind))
        · exact .inr (.inr (h.of_mem_outer hscope).2)
      · rename_i hkind
        have hkind' : parent.kind ≠ .function := by simpa using hkind
        have hout : isInFunction index n = false := by
          rw [h.isInFunction_eq]
          simpa using hkind
        have hnext := (h.continues_of_header hn hkind' hheader).of_header hheader hout
        rw [h.pathAt_eq hkind'] at hnext
        rw [hlast]
        apply hnext

/-- One line keeps what is known. -/
theorem Follows.step (h : state.Follows index n) (hn : n < index.lineCount) :
  (state.step n (index.line n)).Follows index (n + 1)
  := by
  rw [IndentState.step]
  split
  · rename_i hcode
    have hclosed := h.closeDeeper hn hcode
    dsimp only
    split
    · rename_i kind own hheader
      apply hclosed.openScope hn hheader _ h.lastCode_eq
    · rename_i hnone
      apply (hclosed.continues fun _ _ => .inl hnone).of_none hcode
      rw [scopeUnit?, hnone, Option.bind_none]
  · rename_i hcode
    apply h.of_not_isCode hcode

/-- The lines one after the other keep what is known. -/
theorem follows_foldl (hn : n ≤ index.lineCount) :
  Follows index n ((List.range n).foldl (fun s n => s.step n (index.line n))
    { scopes := [], units := [], lastCode := 0 })
  := by
  induction n with
  | zero => apply follows_start
  | succ n ih =>
      rw [List.range_succ, List.foldl_append]
      apply (ih (Nat.le_of_lt hn)).step hn

theorem foldl_close (lastCode : Nat) (scopes : List OpenScope) (units : List LineUnit) :
  scopes.foldl (fun units scope => units ++ scope.close lastCode) units
    = units ++ scopes.flatMap (·.close lastCode)
  := by
  induction scopes generalizing units with
  | nil => simp
  | cons scope rest ih =>
      rw [List.foldl_cons, ih, List.flatMap_cons, List.append_assoc]

/-- The end of the text closes all scopes that are still open. -/
theorem Follows.close_all (h : state.Follows index index.lineCount) :
  (∀ unit ∈ state.scopes.foldl (fun units s => units ++ s.close state.lastCode) state.units,
      scopeUnit? index unit.first = some unit)
    ∧ ((state.scopes.foldl (fun units s => units ++ s.close state.lastCode) state.units).map
        (·.first)).Perm
      ((List.range index.lineCount).filter fun i => (scopeUnit? index i).isSome)
  := by
  have hclosing : ∀ scope ∈ state.scopes, closingLine index scope.first = index.lineCount :=
    fun scope hscope => (h.isOpen scope hscope).deeper.closingLine_eq_lineCount
  obtain ⟨hunits, hfirsts⟩ := close_scopes h.isOpen hclosing (Nat.le_refl _)
  rw [foldl_close, h.lastCode_eq, List.map_append, hfirsts]
  constructor
  · intro unit hunit
    rcases List.mem_append.mp hunit with hunit | hunit
    · apply h.units unit hunit
    · apply hunits unit hunit
  · apply h.firsts

end IndentState

/-! ### The units of a text -/

/-- The units by indentation are definitions, and each definition has one of them. -/
theorem indentationUnits_spec (index : LineIndex) :
  (∀ unit ∈ indentationUnits index, scopeUnit? index unit.first = some unit)
    ∧ ((indentationUnits index).map (·.first)).Perm
      ((List.range index.lineCount).filter fun i => (scopeUnit? index i).isSome)
  := (IndentState.follows_foldl (Nat.le_refl index.lineCount)).close_all

/-- The units by indentation are the definitions of the text: one for each header that is in no
function, and no others. -/
theorem indentationUnits_perm_scopeUnits (text : List Char) :
  (indentationUnits (LineIndex.ofText text)).Perm
    ((List.range (LineIndex.ofText text).lineCount).filterMap (scopeUnit? (LineIndex.ofText text)))
  := by
  obtain ⟨hunits, hfirsts⟩ := indentationUnits_spec (LineIndex.ofText text)
  generalize LineIndex.ofText text = index at *
  have hsame : (indentationUnits index).map some
      = (indentationUnits index).map fun unit => scopeUnit? index unit.first :=
    List.map_congr_left fun unit hunit => (hunits unit hunit).symm
  calc indentationUnits index
    _ = ((indentationUnits index).map some).filterMap id := by simp
    _ = ((indentationUnits index).map (·.first)).filterMap (scopeUnit? index) := by
        rw [hsame, List.filterMap_map, List.filterMap_map]
        rfl
    _ |>.Perm (((List.range index.lineCount).filter
        fun i => (scopeUnit? index i).isSome).filterMap (scopeUnit? index)) :=
        hfirsts.filterMap _
    _ = (List.range index.lineCount).filterMap (scopeUnit? index) := by
        rw [List.filterMap_filter]
        apply List.filterMap_congr
        intro i hi
        cases scopeUnit? index i <;> rfl

end Scrutiny.Fallback
