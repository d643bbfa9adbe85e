import Mathlib.Data.List.Basic
import Mathlib.Tactic.Use
import Scrutiny.Files.Race
import Scrutiny.Proofs.Files.Names

/-!
# What readers of a shared file find

As all writers use one temporary file, one of them can move a file to its place that another one has
emptied, and write to a file that was moved already.  Still, what a reader finds is made of the bytes of
the writers.  It is what was there before or all bytes of one writer as long as nobody begins while
somebody else has not moved the temporary file yet.
-/

namespace Scrutiny

/-! ### Moves of a writer -/

/-- What a writer with some bytes does to the file, and how far it comes. -/
inductive WriterMove (shared : SharedFile) (bytes : List UInt8) :
    WriterPhase → SharedFile → WriterPhase → Prop where
  /-- It makes the temporary file. -/
  | make (h : shared.temporary = none) : WriterMove shared bytes .idle
    { shared with temporary := some shared.contents.length, contents := shared.contents ++ [[]] }
    (.opened shared.contents.length)
  /-- It empties the temporary file. -/
  | empty {file : Nat} (h : shared.temporary = some file) : WriterMove shared bytes .idle
    { shared with contents := shared.contents.set file [] } (.opened file)
  /-- It writes its bytes. -/
  | fill {file : Nat} : WriterMove shared bytes (.opened file) (shared.fill file bytes) .filled
  /-- It moves the temporary file to its place. -/
  | move {file : Nat} (h : shared.temporary = some file) : WriterMove shared bytes .filled
    { shared with target := some file, temporary := none } .moved
  /-- It does not find the temporary file. -/
  | miss (h : shared.temporary = none) : WriterMove shared bytes .filled shared .failed
  /-- It cleans up. -/
  | clean : WriterMove shared bytes .failed shared.clean .cleaned

/-- Whether a writer has opened the temporary file and not moved it yet. -/
def WriterPhase.isBusy : WriterPhase → Bool
  | .opened _ | .filled => true
  | _ => false

/-- Whether a writer did not find the temporary file any more. -/
def WriterPhase.hasFailed : WriterPhase → Bool
  | .failed | .cleaned => true
  | _ => false

namespace SharedFile

variable {shared shared' : SharedFile} {file : Nat}

theorem openTemporary_of_none (h : shared.temporary = none) :
  shared.openTemporary = (shared.contents.length,
    { shared with
      temporary := some shared.contents.length
      contents := shared.contents ++ [[]] })
  := by
  simp only [openTemporary, h]

theorem openTemporary_of_some (h : shared.temporary = some file) :
  shared.openTemporary = (file, { shared with contents := shared.contents.set file [] })
  := by
  simp only [openTemporary, h]

/-- Readers do not see what happens to other files. -/
theorem read?_congr (htarget : shared'.target = shared.target)
    (hcontents : ∀ file, shared.target = some file →
      shared'.contents[file]? = shared.contents[file]?) :
  shared'.read? = shared.read?
  := by
  rw [read?, read?, htarget]
  apply Option.bind_congr hcontents

end SharedFile

namespace Race

variable {before : Option (List UInt8)} {bytes : List (List UInt8)} {race next last : Race} {i : Nat}
  {whole : List UInt8} {phase : WriterPhase} {shared : SharedFile} {order : List Nat}

/-- A step of a race is a move of one of the writers. -/
theorem exists_move_of_step? (h : race.step? i = some next) :
  ∃ whole phase shared phase', race.writers[i]? = some (whole, phase)
    ∧ WriterMove race.shared whole phase shared phase' ∧ race.moved i shared phase' = next
  := by
  rw [step?] at h
  split at h
  · rename_i whole hwriter
    cases htemporary : race.shared.temporary with
    | none =>
        rw [SharedFile.openTemporary_of_none htemporary] at h
        exact ⟨_, _, _, _, hwriter, .make htemporary, Option.some.inj h⟩
    | some file =>
        rw [SharedFile.openTemporary_of_some htemporary] at h
        exact ⟨_, _, _, _, hwriter, .empty htemporary, Option.some.inj h⟩
  · rename_i whole file hwriter
    exact ⟨_, _, _, _, hwriter, .fill, Option.some.inj h⟩
  · rename_i whole hwriter
    rw [SharedFile.move?] at h
    cases htemporary : race.shared.temporary with
    | none =>
        rw [htemporary] at h
        exact ⟨_, _, _, _, hwriter, .miss htemporary, Option.some.inj h⟩
    | some file =>
        rw [htemporary] at h
        exact ⟨_, _, _, _, hwriter, .move htemporary, Option.some.inj h⟩
  · rename_i whole hwriter
    exact ⟨_, _, _, _, hwriter, .clean, Option.some.inj h⟩
  · cases h

theorem getElem?_moved (hwriter : race.writers[i]? = some (whole, phase)) (shared : SharedFile)
    (phase' : WriterPhase) (j : Nat) :
  (race.moved i shared phase').writers[j]?
    = if j = i then some (whole, phase') else race.writers[j]?
  := by
  rw [moved]
  by_cases hij : j = i
  · rw [if_pos hij, hij, List.getElem?_modify_eq, hwriter]
    rfl
  · rw [if_neg hij, List.getElem?_modify_ne _ _ (Ne.symm hij)]

theorem getElem?_moved_self (hwriter : race.writers[i]? = some (whole, phase)) (shared : SharedFile)
    (phase' : WriterPhase) :
  (race.moved i shared phase').writers[i]? = some (whole, phase')
  := by
  rw [getElem?_moved hwriter, if_pos rfl]

theorem map_fst_moved (race : Race) (i : Nat) (shared : SharedFile) (phase : WriterPhase) :
  (race.moved i shared phase).writers.map Prod.fst = race.writers.map Prod.fst
  := by
  apply List.ext_getElem?
  intro j
  rw [moved, List.getElem?_map, List.getElem?_map, List.getElem?_modify]
  cases race.writers[j]? with
  | none => rfl
  | some pair => split_ifs <;> rfl

/-- The bytes of a writer. -/
theorem mem_of_map_fst (h : race.writers.map Prod.fst = bytes)
    (hwriter : race.writers[i]? = some (whole, phase)) :
  whole ∈ bytes
  := by
  rw [← h]
  exact List.mem_map_of_mem (List.mem_of_getElem? hwriter)

/-- What holds of a race after each of its steps holds of it after a run. -/
theorem of_run? {P : Race → Prop} (hstep : ∀ i race next, P race → race.step? i = some next → P next)
    (h : P race) (hrun : race.run? order = some last) :
  P last
  := by
  induction order generalizing race with
  | nil =>
      obtain rfl := Option.some.inj hrun
      apply h
  | cons i rest ih =>
      obtain ⟨next, hnext, hrest⟩ := Option.bind_eq_some_iff.mp hrun
      apply ih (hstep i race next h hnext) hrest

/-! ### A writer alone -/

/-- What a writer does that is not disturbed. -/
theorem run?_alone (hwriter : race.writers[i]? = some (whole, .idle))
    (htemporary : race.shared.temporary = none) :
  ∃ last, race.run? [i, i, i] = some last ∧ last.shared.read? = some whole
    ∧ last.shared.temporary = none
  := by
  let file := race.shared.contents.length
  let opened := { race.shared with
    temporary := some file
    contents := race.shared.contents ++ [[]] }
  let first := race.moved i opened (.opened file)
  have hfirst : first.writers[i]? = some (whole, .opened file) := getElem?_moved_self hwriter _ _
  let second := first.moved i (opened.fill file whole) .filled
  have hsecond : second.writers[i]? = some (whole, .filled) := getElem?_moved_self hfirst _ _
  let third :=
    second.moved i { opened.fill file whole with target := some file, temporary := none } .moved
  have hstep : race.step? i = some first := by
    rw [step?, hwriter]
    dsimp only
    rw [SharedFile.openTemporary_of_none htemporary]
  have hstep' : first.step? i = some second := by
    rw [step?, hfirst]
    rfl
  have hstep'' : second.step? i = some third := by
    rw [step?, hsecond]
    rfl
  use third
  constructor
  · rw [run?, hstep, Option.bind_some, run?, hstep', Option.bind_some, run?, hstep'', Option.bind_some,
      run?]
  constructor
  · change ((race.shared.contents ++ [[]]).modify file _)[file]? = some whole
    rw [List.getElem?_modify_eq, List.getElem?_concat_length, Option.map_eq_map, Option.map_some,
      List.drop_nil, List.append_nil]
  · rfl

/-- Readers of a file that was written atomically find what a writer that is not disturbed leaves. -/
theorem run?_of_writeAtomic {tree next : FileTree} {path name : String} (hsound : tree.Sound)
    (hname : Path.fileName? path = some name)
    (hwrite : FileAction.writeAtomic path whole tree = (.ok (), next))
    (hwriter : race.writers[i]? = some (whole, .idle)) (htemporary : race.shared.temporary = none) :
  ∃ last, race.run? [i, i, i] = some last ∧ last.shared.read? = (next.read path).toOption
    ∧ last.shared.temporary = none ∧ next.file? (next.namesOf (Path.temporary path)) = none
  := by
  have hreplaces := FileAction.replaces_of_writeAtomic hsound hwrite
  obtain ⟨last, hrun, hread, hgone⟩ := run?_alone hwriter htemporary
  use last, hrun
  constructor
  · rw [hread, hreplaces.read_eq]
    rfl
  use hgone
  rw [hreplaces.namesOf_eq]
  apply hreplaces.file?_temporary (tree.namesOf_temporary_ne hname)

/-! ### Any order -/

/-- Bytes that begin with all bytes of a writer, if there are any, and each of which a writer has at its
place. -/
def IsMadeOf (bytes : List (List UInt8)) (content : List UInt8) : Prop :=
  (content = [] ∨ ∃ whole ∈ bytes, whole <+: content)
    ∧ ∀ (k : Nat) (byte : UInt8), content[k]? = some byte → ∃ whole ∈ bytes, whole[k]? = some byte

theorem isMadeOf_nil (bytes : List (List UInt8)) :
  IsMadeOf bytes []
  := by
  use .inl rfl
  intro k byte hbyte
  cases hbyte

/-- The bytes of a writer are written over others. -/
theorem IsMadeOf.fill {content : List UInt8} (h : IsMadeOf bytes content) (hwhole : whole ∈ bytes) :
  IsMadeOf bytes (whole ++ content.drop whole.length)
  := by
  use .inr ⟨whole, hwhole, List.prefix_append _ _⟩
  intro k byte hbyte
  by_cases hk : k < whole.length
  · rw [List.getElem?_append_left hk] at hbyte
    use whole, hwhole, hbyte
  · rw [List.getElem?_append_right (Nat.not_lt.mp hk), List.getElem?_drop,
      Nat.add_sub_cancel' (Nat.not_lt.mp hk)] at hbyte
    apply h.2 k byte hbyte

/-- Some writer may write to a file. -/
def IsOpen (race : Race) (file : Nat) : Prop :=
  race.shared.temporary = some file
    ∨ ∃ (j : Nat) (whole : List UInt8), race.writers[j]? = some (whole, .opened file)

/-- Who may write to a file after a move could do so before, unless the move has opened it. -/
theorem isOpen_of_moved (hwriter : race.writers[i]? = some (whole, phase)) {phase' : WriterPhase}
    (htemporary : ∀ file, shared.temporary = some file →
      phase' = .opened file ∨ race.shared.temporary = some file)
    {file : Nat} (h : (race.moved i shared phase').IsOpen file) :
  phase' = .opened file ∨ race.IsOpen file
  := by
  rcases h with h | ⟨j, other, hother⟩
  · apply (htemporary file h).imp_right
    intro hfile
    exact .inl hfile
  · rw [getElem?_moved hwriter] at hother
    split at hother
    · left
      exact (Prod.mk.inj (Option.some.inj hother)).2
    · right
      exact .inr ⟨j, other, hother⟩

/-- The files of a race hold what writers have written, except for the one that was there before, which
nobody writes to. -/
structure Sound (before : Option (List UInt8)) (bytes : List (List UInt8)) (race : Race) : Prop where
  map_fst : race.writers.map Prod.fst = bytes
  contents : ∀ file content, race.shared.contents[file]? = some content →
    IsMadeOf bytes content ∨ some content = before ∧ ¬ race.IsOpen file

theorem sound_ofWriters (before : Option (List UInt8)) (bytes : List (List UInt8)) :
  (ofWriters before bytes).Sound before bytes
  := by
  constructor
  · rw [ofWriters, List.map_map]
    apply List.map_id
  · intro file content hcontent
    right
    constructor
    · cases before with
      | none => cases hcontent
      | some old =>
          have hmem : content ∈ [old] := List.mem_of_getElem? hcontent
          rw [List.mem_singleton.mp hmem]
    · rintro (htemporary | ⟨j, whole, hwriter⟩)
      · cases before <;> cases htemporary
      · rw [ofWriters, List.getElem?_map] at hwriter
        obtain ⟨_, -, heq⟩ := Option.map_eq_some_iff.mp hwriter
        cases heq

theorem Sound.of_step? (h : race.Sound before bytes) (hstep : race.step? i = some next) :
  next.Sound before bytes
  := by
  obtain ⟨whole, phase, shared, phase', hwriter, hmove, rfl⟩ := exists_move_of_step? hstep
  use (map_fst_moved ..).trans h.map_fst
  intro file content hcontent
  change shared.contents[file]? = some content at hcontent
  -- A file that is as it was, and was not opened, is no concern.
  have hkept (hold : race.shared.contents[file]? = some content) (hphase : phase' ≠ .opened file)
      (htemporary : ∀ file, shared.temporary = some file →
        phase' = .opened file ∨ race.shared.temporary = some file) :
      IsMadeOf bytes content ∨ some content = before ∧ ¬ (race.moved i shared phase').IsOpen file := by
    apply (h.contents file content hold).imp_right
    apply And.imp_right
    intro hnot hopen
    apply hnot ((isOpen_of_moved hwriter htemporary hopen).resolve_left hphase)
  cases hmove with
  | make htemporary =>
      dsimp only at hcontent
      by_cases hfile : file < race.shared.contents.length
      · rw [List.getElem?_append_left hfile] at hcontent
        apply hkept hcontent
        · rintro ⟨⟩
          omega
        · rintro other ⟨⟩
          exact .inl rfl
      · rw [List.getElem?_append_right (Nat.not_lt.mp hfile)] at hcontent
        rw [List.mem_singleton.mp (List.mem_of_getElem? hcontent)]
        exact .inl (isMadeOf_nil bytes)
  | @empty temporary htemporary =>
      dsimp only at hcontent
      by_cases hfile : temporary = file
      · rw [hfile, List.getElem?_set_self', Option.map_eq_map, Option.map_eq_some_iff] at hcontent
        obtain ⟨_, -, rfl⟩ := hcontent
        exact .inl (isMadeOf_nil bytes)
      · rw [List.getElem?_set_ne hfile] at hcontent
        apply hkept hcontent
        · rintro ⟨⟩
          contradiction
        · intro other hother
          exact .inr hother
  | @fill opened =>
      rw [SharedFile.fill] at hcontent
      dsimp only at hcontent
      by_cases hfile : opened = file
      · rw [hfile, List.getElem?_modify_eq] at hcontent
        obtain ⟨old, hold, rfl⟩ := Option.map_eq_some_iff.mp hcontent
        left
        rcases h.contents file old hold with hmade | ⟨-, hnot⟩
        · apply hmade.fill (mem_of_map_fst h.map_fst hwriter)
        · cases hnot (.inr ⟨i, whole, hfile ▸ hwriter⟩)
      · rw [List.getElem?_modify_ne _ _ hfile] at hcontent
        apply hkept hcontent
        · rintro ⟨⟩
        · intro other hother
          exact .inr hother
  | move htemporary =>
      apply hkept hcontent
      · rintro ⟨⟩
      · rintro other ⟨⟩
  | miss htemporary =>
      apply hkept hcontent
      · rintro ⟨⟩
      · intro other hother
        exact .inr hother
  | clean =>
      apply hkept hcontent
      · rintro ⟨⟩
      · rintro other ⟨⟩

/-- What a reader finds is what one of the files holds. -/
theorem Sound.read? (h : race.Sound before bytes) {content : List UInt8}
    (hread : race.shared.read? = some content) :
  some content = before ∨ IsMadeOf bytes content
  := by
  obtain ⟨file, -, hcontent⟩ := Option.bind_eq_some_iff.mp hread
  rcases h.contents file content hcontent with hmade | ⟨hbefore, -⟩
  · exact .inr hmade
  · exact .inl hbefore

/-! ### One after the other -/

/-- Whether no writer is busy. -/
def isQuiet (race : Race) : Bool :=
  race.writers.all fun (_, phase) => !phase.isBusy

/-- Whether a writer has not begun. -/
def isIdle (race : Race) (i : Nat) : Bool :=
  race.writers[i]?.any fun (_, phase) => phase == .idle

/-- Whether in a run nobody begins while another writer is busy. -/
def takesTurns (race : Race) : List Nat → Bool
  | [] => true
  | i :: rest =>
    (race.isQuiet || !race.isIdle i) && (race.step? i).all fun next => next.takesTurns rest

/-- Nobody but the given writer is busy. -/
def IsAlone (race : Race) (i : Nat) : Prop :=
  ∀ (j : Nat) (whole : List UInt8) (phase : WriterPhase),
    race.writers[j]? = some (whole, phase) → phase.isBusy = true → j = i

/-- Whose turn it is. -/
inductive Turn (race : Race) : Prop where
  /-- It is nobody's turn. -/
  | none (hquiet : race.isQuiet = true) (htemporary : race.shared.temporary = none)
  /-- A writer has an empty file for itself. -/
  | opened {i : Nat} {whole : List UInt8} {file : Nat} (halone : race.IsAlone i)
    (hwriter : race.writers[i]? = some (whole, .opened file))
    (htemporary : race.shared.temporary = some file) (htarget : race.shared.target ≠ some file)
    (hcontent : race.shared.contents[file]? = some [])
  /-- A writer has written all of its bytes to the temporary file. -/
  | filled {i : Nat} {whole : List UInt8} {file : Nat} (halone : race.IsAlone i)
    (hwriter : race.writers[i]? = some (whole, .filled))
    (htemporary : race.shared.temporary = some file)
    (hcontent : race.shared.contents[file]? = some whole)

theorem isBusy_of_isQuiet (hquiet : race.isQuiet = true)
    (hwriter : race.writers[i]? = some (whole, phase)) :
  phase.isBusy = false
  := by
  have hall := List.all_eq_true.mp hquiet (whole, phase) (List.mem_of_getElem? hwriter)
  simpa using hall

/-- A writer that moves while nobody else is busy is the only one that can be busy then. -/
theorem isAlone_moved (hwriter : race.writers[i]? = some (whole, phase)) (halone : race.IsAlone i)
    (shared : SharedFile) (phase' : WriterPhase) :
  (race.moved i shared phase').IsAlone i
  := by
  intro j other otherPhase hother hbusy
  rw [getElem?_moved hwriter] at hother
  split at hother
  · assumption
  · apply halone j other otherPhase hother hbusy

/-- Nobody is busy when the only writer that was is done. -/
theorem isQuiet_moved (hwriter : race.writers[i]? = some (whole, phase)) (halone : race.IsAlone i)
    (shared : SharedFile) {phase' : WriterPhase} (hphase : phase'.isBusy = false) :
  (race.moved i shared phase').isQuiet = true
  := by
  apply List.all_eq_true.mpr
  rintro ⟨other, otherPhase⟩ hmem
  obtain ⟨j, hother⟩ := List.mem_iff_getElem?.mp hmem
  rw [getElem?_moved hwriter] at hother
  split at hother
  · cases hother
    simpa using hphase
  · rename_i hne
    by_contra hbusy
    apply hne (halone j other otherPhase hother _)
    simpa using hbusy

/-- A busy writer has the temporary file for itself. -/
theorem Turn.of_isBusy (h : race.Turn) (hwriter : race.writers[i]? = some (whole, phase))
    (hbusy : phase.isBusy = true) :
  race.IsAlone i ∧ ∃ file, race.shared.temporary = some file
    ∧ (phase = .opened file ∧ race.shared.target ≠ some file
        ∧ race.shared.contents[file]? = some []
      ∨ phase = .filled ∧ race.shared.contents[file]? = some whole)
  := by
  cases h with
  | none hquiet _ =>
      rw [isBusy_of_isQuiet hquiet hwriter] at hbusy
      contradiction
  | opened halone hopened htemporary htarget hcontent =>
      obtain rfl := halone i whole phase hwriter hbusy
      cases hopened.symm.trans hwriter
      exact ⟨halone, _, htemporary, .inl ⟨rfl, htarget, hcontent⟩⟩
  | filled halone hfilled htemporary hcontent =>
      obtain rfl := halone i whole phase hwriter hbusy
      cases hfilled.symm.trans hwriter
      exact ⟨halone, _, htemporary, .inr ⟨rfl, hcontent⟩⟩

/-- Readers find the old bytes or all bytes of a writer, and no writer fails. -/
structure Orderly (before : Option (List UInt8)) (bytes : List (List UInt8)) (race : Race) : Prop where
  map_fst : race.writers.map Prod.fst = bytes
  read? : race.shared.read? = before ∨ ∃ whole ∈ bytes, race.shared.read? = some whole
  lt_length : ∀ file, race.shared.target = some file → file < race.shared.contents.length
  hasFailed : ∀ pair ∈ race.writers, pair.2.hasFailed = false
  turn : race.Turn

theorem orderly_ofWriters (before : Option (List UInt8)) (bytes : List (List UInt8)) :
  (ofWriters before bytes).Orderly before bytes
  := by
  have hidle (pair : List UInt8 × WriterPhase) (hpair : pair ∈ (ofWriters before bytes).writers) :
      pair.2 = .idle := by
    obtain ⟨_, -, rfl⟩ := List.mem_map.mp hpair
    rfl
  constructor
  · apply (sound_ofWriters before bytes).map_fst
  · left
    cases before <;> rfl
  · intro file htarget
    cases before <;> cases htarget
    apply Nat.zero_lt_one
  · intro pair hpair
    rw [hidle pair hpair]
    rfl
  · apply Turn.none
    · apply List.all_eq_true.mpr
      rintro ⟨_, phase⟩ hpair
      obtain rfl : phase = .idle := hidle _ hpair
      rfl
    · cases before <;> rfl

theorem hasFailed_moved (h : ∀ pair ∈ race.writers, pair.2.hasFailed = false)
    (hwriter : race.writers[i]? = some (whole, phase)) (shared : SharedFile) {phase' : WriterPhase}
    (hphase : phase'.hasFailed = false) :
  ∀ pair ∈ (race.moved i shared phase').writers, pair.2.hasFailed = false
  := by
  intro pair hpair
  obtain ⟨j, hother⟩ := List.mem_iff_getElem?.mp hpair
  rw [getElem?_moved hwriter] at hother
  split at hother
  · cases hother
    apply hphase
  · apply h pair (List.mem_of_getElem? hother)

/-- A move that readers do not see. -/
theorem Orderly.moved (h : race.Orderly before bytes)
    (hwriter : race.writers[i]? = some (whole, phase)) (htarget : shared.target = race.shared.target)
    (hkept : ∀ file, race.shared.target = some file →
      shared.contents[file]? = race.shared.contents[file]?)
    {phase' : WriterPhase} (hphase : phase'.hasFailed = false)
    (hturn : (race.moved i shared phase').Turn) :
  (race.moved i shared phase').Orderly before bytes
  := by
  constructor
  · apply (map_fst_moved ..).trans h.map_fst
  · have hread : (race.moved i shared phase').shared.read? = race.shared.read? :=
      SharedFile.read?_congr htarget hkept
    rw [hread]
    apply h.read?
  · intro file hfile
    have hfile : race.shared.target = some file := htarget ▸ hfile
    have hold := List.getElem?_eq_getElem (h.lt_length file hfile)
    apply (List.getElem?_eq_some_iff.mp ((hkept file hfile).trans hold)).1
  · apply hasFailed_moved h.hasFailed hwriter _ hphase
  · apply hturn

/-- Somebody begins while nobody is busy. -/
theorem Orderly.make (h : race.Orderly before bytes) (hwriter : race.writers[i]? = some (whole, phase))
    (hquiet : race.isQuiet = true) :
  (race.moved i { race.shared with
    temporary := some race.shared.contents.length
    contents := race.shared.contents ++ [[]] } (.opened race.shared.contents.length)).Orderly
      before bytes
  := by
  have halone : race.IsAlone i := by
    intro j other otherPhase hother hbusy
    rw [isBusy_of_isQuiet hquiet hother] at hbusy
    contradiction
  apply h.moved hwriter
  · rfl
  · intro file htarget
    apply List.getElem?_append_left (h.lt_length file htarget)
  · rfl
  · apply Turn.opened (isAlone_moved hwriter halone _ _)
    · apply getElem?_moved_self hwriter
    · rfl
    · intro htarget
      apply Nat.lt_irrefl _ (h.lt_length _ htarget)
    · apply List.getElem?_concat_length

/-- A writer fills the file that it has for itself. -/
theorem Orderly.fill {file : Nat} (h : race.Orderly before bytes)
    (hwriter : race.writers[i]? = some (whole, .opened file)) :
  (race.moved i (race.shared.fill file whole) .filled).Orderly before bytes
  := by
  obtain ⟨halone, _, htemporary, ⟨hfile, htarget, hcontent⟩ | ⟨⟨⟩, -⟩⟩ :=
    h.turn.of_isBusy hwriter rfl
  obtain rfl := WriterPhase.opened.inj hfile
  apply h.moved hwriter
  · rfl
  · intro other hother
    apply List.getElem?_modify_ne
    rintro rfl
    contradiction
  · rfl
  · apply Turn.filled (isAlone_moved hwriter halone _ _)
    · apply getElem?_moved_self hwriter
    · apply htemporary
    · change (race.shared.contents.modify file _)[file]? = some whole
      rw [List.getElem?_modify_eq, hcontent, Option.map_eq_map, Option.map_some, List.drop_nil,
        List.append_nil]

/-- A writer moves the file that it has filled. -/
theorem Orderly.move {file : Nat} (h : race.Orderly before bytes)
    (hwriter : race.writers[i]? = some (whole, .filled))
    (htemporary : race.shared.temporary = some file) :
  (race.moved i { race.shared with target := some file, temporary := none } .moved).Orderly
    before bytes
  := by
  obtain ⟨halone, _, hother, ⟨⟨⟩, -⟩ | ⟨-, hcontent⟩⟩ := h.turn.of_isBusy hwriter rfl
  cases hother.symm.trans htemporary
  constructor
  · apply (map_fst_moved ..).trans h.map_fst
  · exact .inr ⟨whole, mem_of_map_fst h.map_fst hwriter, hcontent⟩
  · rintro _ ⟨⟩
    apply (List.getElem?_eq_some_iff.mp hcontent).1
  · apply hasFailed_moved h.hasFailed hwriter _ rfl
  · apply Turn.none (isQuiet_moved hwriter halone _ rfl) rfl

/-- A step in turn. -/
theorem Orderly.of_step? (h : race.Orderly before bytes) (hstep : race.step? i = some next)
    (hturn : race.isQuiet = true ∨ race.isIdle i = false) :
  next.Orderly before bytes
  := by
  obtain ⟨whole, phase, shared, phase', hwriter, hmove, rfl⟩ := exists_move_of_step? hstep
  have hquiet (hidle : phase = .idle) : race.isQuiet = true := by
    apply hturn.resolve_right
    rw [isIdle, hwriter, hidle, Option.any_some]
    nofun
  cases hmove with
  | make htemporary => apply h.make hwriter (hquiet rfl)
  | empty htemporary =>
      -- When nobody is busy there is no temporary file.
      cases h.turn with
      | none _ hnone =>
          rw [hnone] at htemporary
          contradiction
      | opened _ hopened => cases isBusy_of_isQuiet (hquiet rfl) hopened
      | filled _ hfilled => cases isBusy_of_isQuiet (hquiet rfl) hfilled
  | fill => apply h.fill hwriter
  | move htemporary => apply h.move hwriter htemporary
  | miss htemporary =>
      obtain ⟨-, file, hfile, -⟩ := h.turn.of_isBusy hwriter rfl
      rw [htemporary] at hfile
      contradiction
  | clean => cases h.hasFailed _ (List.mem_of_getElem? hwriter)

/-- A run in which writers take turns. -/
theorem Orderly.of_run? (h : race.Orderly before bytes) (hturns : race.takesTurns order = true)
    (hrun : race.run? order = some last) :
  last.Orderly before bytes
  := by
  induction order generalizing race with
  | nil =>
      obtain rfl := Option.some.inj hrun
      apply h
  | cons i rest ih =>
      obtain ⟨next, hnext, hrest⟩ := Option.bind_eq_some_iff.mp hrun
      rw [takesTurns, hnext, Bool.and_eq_true, Bool.or_eq_true, Bool.not_eq_true'] at hturns
      apply ih (h.of_step? hnext hturns.1) hturns.2 hrest

/-- Whatever the order of the steps, what a reader finds is what was there before or made of the bytes of
the writers.  When the writers take turns it is what was there before or all bytes of one of them, and
none of them fails. -/
theorem read?_of_run? (before : Option (List UInt8)) (bytes : List (List UInt8)) (order : List Nat)
    (last : Race) (hrun : (ofWriters before bytes).run? order = some last) :
  (∀ content, last.shared.read? = some content → some content = before ∨ IsMadeOf bytes content)
    ∧ ((ofWriters before bytes).takesTurns order = true →
        (last.shared.read? = before ∨ ∃ whole ∈ bytes, last.shared.read? = some whole)
          ∧ ∀ pair ∈ last.writers, pair.2.hasFailed = false)
  := by
  constructor
  · intro content hread
    have hsound : last.Sound before bytes :=
      of_run? (fun _ _ _ => Sound.of_step?) (sound_ofWriters before bytes) hrun
    apply hsound.read? hread
  · intro hturns
    have horderly := (orderly_ofWriters before bytes).of_run? hturns hrun
    exact ⟨horderly.read?, horderly.hasFailed⟩

/-- Two writers, one after the other. -/
theorem read?_of_run?_oneByOne :
  ∃ last, (ofWriters (some [0]) [[1, 2, 3], [4]]).run? [0, 0, 0, 1, 1, 1] = some last
    ∧ last.shared.read? = some [4]
    ∧ (last.shared.read? = some [0] ∨ ∃ whole ∈ [[1, 2, 3], [4]], last.shared.read? = some whole)
    ∧ ∀ pair ∈ last.writers, pair.2.hasFailed = false
  := by
  let last : Race :=
    { shared := { target := some 2, temporary := none, contents := [[0], [1, 2, 3], [4]] },
      writers := [([1, 2, 3], .moved), ([4], .moved)] }
  have hrun : (ofWriters (some [0]) [[1, 2, 3], [4]]).run? [0, 0, 0, 1, 1, 1] = some last := by
    decide
  use last, hrun, rfl
  apply (read?_of_run? _ _ _ last hrun).2
  decide

/-- One writer empties the file that another one is about to move to its place, so that readers find an
empty file; and what two writers have written gets mixed, when the longer bytes come first. -/
theorem read?_of_run?_mixed :
  (∃ last, (ofWriters (some [0]) [[1, 2, 3], [4]]).run? [0, 0, 1, 0] = some last
      ∧ last.shared.read? = some []
      ∧ ¬ (last.shared.read? = some [0] ∨ ∃ whole ∈ [[1, 2, 3], [4]], last.shared.read? = some whole))
    ∧ ∃ last, (ofWriters (some [0]) [[1, 2, 3], [4]]).run? [0, 1, 0, 1, 0] = some last
      ∧ last.shared.read? = some [4, 2, 3]
      ∧ ¬ (last.shared.read? = some [0] ∨ ∃ whole ∈ [[1, 2, 3], [4]], last.shared.read? = some whole)
  := by
  constructor
  · exact ⟨_, rfl, rfl, by decide⟩
  · exact ⟨_, rfl, rfl, by decide⟩

end Race

end Scrutiny
