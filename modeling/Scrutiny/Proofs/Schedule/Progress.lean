import Mathlib.Algebra.Ring.Nat
import Scrutiny.Proofs.Schedule.Exclusion

/-!
# Progress

As long as some job has not come to its end, some job can take a step, and only so many steps can be
taken.  So every schedule can be continued until all jobs have come to their end.
-/

namespace Scrutiny

variable {μ α : Type} {session : Session μ}

namespace JobPhase

/-- The largest number of steps that a job in the phase can still take. -/
def rank : JobPhase α → Nat
  | .idle => 8
  | .atWriter => 7
  | .searching => 6
  | .atPermit => 5
  | .asking => 4
  | .keeping _ _ => 3
  | .atIndex _ => 2
  | .indexing _ => 1
  | .done _ => 0

end JobPhase

theorem Move.rank_lt {world world' : World μ} {job : Job μ α} {phase phase' : JobPhase α}
    (h : Move session world job phase world' phase') :
  phase'.rank < phase.rank
  := by
  cases h <;> simp [JobPhase.rank]

/-- A job that has not come to its end has a move. -/
theorem exists_move (session : Session μ) (world : World μ) (job : Job μ α) {phase : JobPhase α}
    (hdone : phase.isDone = false)
    (hjob : ∀ chunkId, job = .invalidation chunkId → phase.isOfReview = false) :
  ∃ world' phase', Move session world job phase world' phase'
  := by
  cases job with
  | review review =>
      cases phase with
      | idle => exact ⟨_, _, .ask⟩
      | atWriter => exact ⟨_, _, .take⟩
      | searching =>
          cases hfound : review.found? session.cache world.files with
          | some result => exact ⟨_, _, .hit hfound⟩
          | none => exact ⟨_, _, .miss hfound⟩
      | atPermit => exact ⟨_, _, .permit⟩
      | asking =>
          rcases hask : world.ask review.ask with ⟨e | ⟨result, kept⟩ | reason, later⟩
          · cases hfatal : e.isFatal with
            | true => exact ⟨_, _, .fatal hask hfatal⟩
            | false => exact ⟨_, _, .failure hask hfatal⟩
          · exact ⟨_, _, .usable hask⟩
          · exact ⟨_, _, .useless hask⟩
      | keeping result kept =>
          rcases hwrite : FileAction.writeJson (session.cache.entryPath review.key.fingerprint)
            (CacheEntry.ofKey review.key kept session.clock.seconds).toJson world.files
            with ⟨e | u, files⟩
          · exact ⟨_, _, .notKept hwrite⟩
          · exact ⟨_, _, .kept hwrite⟩
      | atIndex result => exact ⟨_, _, .takeIndex⟩
      | indexing result =>
          rcases hadd : session.cache.addToIndex review.key.indexId review.key.fingerprint world.files
            with ⟨listing, files⟩
          exact ⟨_, _, .listed hadd⟩
      | done result => cases hdone
  | invalidation chunkId =>
      have hphase := hjob chunkId rfl
      cases phase with
      | idle => exact ⟨_, _, .askIndex⟩
      | atIndex result => exact ⟨_, _, .takeIndex⟩
      | indexing result =>
          rcases hremove : session.cache.invalidate chunkId world.files with ⟨e | count, files⟩
          · exact ⟨_, _, .notRemoved hremove⟩
          · exact ⟨_, _, .removed hremove⟩
      | done result => cases hdone
      | _ => cases hphase

namespace Schedule

variable {state next : Schedule μ α} {i j : Nat} {job : Job μ α} {phase : JobPhase α}

/-! ### Waiting -/

/-- Whether a job in the phase need not wait for its next step. -/
def MayLeave (state : Schedule μ α) (i : Nat) : JobPhase α → Prop
  | .atWriter => state.writers.isNext i
  | .atPermit => i ∈ state.permits.held
  | .atIndex _ => state.indexes.isNext i
  | _ => True

theorem mayEnter_of_move {world world' : World μ} {phase' : JobPhase α}
    (hmove : Move session world job phase world' phase') (h : state.MayLeave i phase) :
  state.MayEnter i phase'
  := by
  cases hmove with
  | take | permit | takeIndex => exact h
  | _ => trivial

theorem Sound.exists_step?_of_mayLeave (h : state.Sound session)
    (hjob : state.jobs[i]? = some (job, phase)) (hdone : phase.isDone = false)
    (hmay : state.MayLeave i phase) :
  ∃ next, state.step? session i = some next
  := by
  obtain ⟨world, phase', hmove⟩ := exists_move session state.world job hdone (by
    rintro chunkId rfl
    apply h.of_invalidation i chunkId phase hjob)
  exact ⟨_, step?_eq_some_iff.mpr ⟨job, phase, hjob, world, phase', hmove, mayEnter_of_move hmove hmay,
    rfl⟩⟩

/-- Whoever has a share in the locks of the indexes is in a phase that says so. -/
theorem Sound.of_indexes_share? (h : state.Sound session) {key : String} {holds : Bool}
    (hshare : state.indexes.share? i = some (key, holds)) :
  ∃ job phase, state.jobs[i]? = some (job, phase) ∧ phase.indexHolds? = some holds
  := by
  rw [h.indexes.share?_eq] at hshare
  obtain ⟨⟨job, phase⟩, hjob, hpair⟩ := Option.bind_eq_some_iff.mp hshare
  obtain ⟨holds, hphase, heq⟩ := Option.map_eq_some_iff.mp hpair
  use job, phase, hjob
  rw [hphase, (Prod.mk.inj heq).2]

/-- If a job waits for the lock of an index, some job can take a step. -/
theorem Sound.exists_step?_of_atIndex (h : state.Sound session) {result : Option α}
    (hjob : state.jobs[i]? = some (job, .atIndex result)) :
  ∃ j next, state.step? session j = some next
  := by
  have hshare : state.indexes.share? i = some (indexIdOf job, false) := by
    rw [h.indexes.share?_self hjob]
    rfl
  obtain ⟨j, key, hholds | ⟨hwaits, hnext⟩⟩ := h.indexes.coherent.exists_holds_or_isNext hshare
  · obtain ⟨other, phase, hother, hphase⟩ := h.of_indexes_share? hholds
    use j
    cases phase with
    | indexing result => exact h.exists_step?_of_mayLeave hother rfl trivial
    | _ => cases hphase
  · obtain ⟨other, phase, hother, hphase⟩ := h.of_indexes_share? hwaits
    use j
    cases phase with
    | atIndex result => exact h.exists_step?_of_mayLeave hother rfl hnext
    | _ => cases hphase

/-- If a job waits for a permit, some job can take a step. -/
theorem Sound.exists_step?_of_atPermit (h : state.Sound session)
    (hjob : state.jobs[i]? = some (job, .atPermit)) :
  ∃ j next, state.step? session j = some next
  := by
  have hsomebody : ∃ j, j ∈ state.permits.held := by
    by_cases hheld : i ∈ state.permits.held
    · use i
    · have hasked : i ∈ state.permits.asked := (h.permits.mem_asked_iff hjob).mpr rfl
      have hwaiting : i ∈ state.permits.waiting := (List.mem_append.mp hasked).resolve_left hheld
      apply List.exists_mem_of_length_pos
      rw [h.permits.coherent.length_eq (List.ne_nil_of_mem hwaiting)]
      apply h.permits.coherent.pos
  obtain ⟨j, hheld⟩ := hsomebody
  have hasked : j ∈ state.permits.asked := List.mem_append_left _ hheld
  obtain ⟨⟨other, phase⟩, hother, hphase⟩ := (h.permits.mem_asked j).mp hasked
  use j
  cases phase with
  | atPermit => exact h.exists_step?_of_mayLeave hother rfl hheld
  | asking => exact h.exists_step?_of_mayLeave hother rfl trivial
  | _ => cases hphase

/-- A job that holds the lock of its fingerprint can take a step, or some job can for which it
waits. -/
theorem Sound.exists_step?_of_writerHolds? (h : state.Sound session)
    (hjob : state.jobs[i]? = some (job, phase)) (hphase : phase.writerHolds? = some true) :
  ∃ j next, state.step? session j = some next
  := by
  cases phase with
  | atPermit => exact h.exists_step?_of_atPermit hjob
  | atIndex result => exact h.exists_step?_of_atIndex hjob
  | idle | atWriter | done => cases hphase
  | _ => exact ⟨i, h.exists_step?_of_mayLeave hjob rfl trivial⟩

theorem Sound.of_writers_share? (h : state.Sound session) {key : Fingerprint} {holds : Bool}
    (hshare : state.writers.share? i = some (key, holds)) :
  ∃ job phase, state.jobs[i]? = some (job, phase) ∧ phase.writerHolds? = some holds
  := by
  rw [h.writers.share?_eq] at hshare
  obtain ⟨⟨job, phase⟩, hjob, hpair⟩ := Option.bind_eq_some_iff.mp hshare
  use job, phase, hjob
  cases job with
  | review review =>
      obtain ⟨holds, hphase, heq⟩ := Option.map_eq_some_iff.mp hpair
      rw [hphase, (Prod.mk.inj heq).2]
  | invalidation chunkId => cases hpair

/-- As long as a job has not come to its end, some job can take a step. -/
theorem Sound.exists_step? (h : state.Sound session) (hjob : state.jobs[i]? = some (job, phase))
    (hdone : phase.isDone = false) :
  ∃ j next, state.step? session j = some next
  := by
  cases hphase : phase with
  | atWriter =>
      rw [hphase] at hjob
      cases job with
      | invalidation chunkId => cases h.of_invalidation i chunkId _ hjob
      | review review =>
          have hshare : state.writers.share? i = some (review.key.fingerprint, false) := by
            rw [h.writers.share?_self hjob]
            rfl
          obtain ⟨j, key, hholds | ⟨hwaits, hnext⟩⟩ :=
            h.writers.coherent.exists_holds_or_isNext hshare
          · obtain ⟨other, phase', hother, hphase'⟩ := h.of_writers_share? hholds
            apply h.exists_step?_of_writerHolds? hother hphase'
          · obtain ⟨other, phase', hother, hphase'⟩ := h.of_writers_share? hwaits
            use j
            cases phase' with
            | atWriter => exact h.exists_step?_of_mayLeave hother rfl hnext
            | _ => cases hphase'
  | idle =>
      rw [hphase] at hjob
      exact ⟨i, h.exists_step?_of_mayLeave hjob rfl trivial⟩
  | done result =>
      rw [hphase] at hdone
      cases hdone
  | _ =>
      rw [hphase] at hjob
      exact h.exists_step?_of_writerHolds? hjob rfl

/-! ### The end -/

/-- Whether all jobs have come to their end. -/
def IsOver (state : Schedule μ α) : Prop :=
  ∀ pair ∈ state.jobs, pair.2.isDone

/-- The largest number of steps that the jobs can still take. -/
def remaining (state : Schedule μ α) : Nat :=
  (state.jobs.map (·.2.rank)).sum

theorem sum_rank_withPhase_lt {jobs : List (Job μ α × JobPhase α)} {phase' : JobPhase α}
    (hjob : jobs[i]? = some (job, phase)) (h : phase'.rank < phase.rank) :
  ((withPhase jobs i phase').map (·.2.rank)).sum < (jobs.map (·.2.rank)).sum
  := by
  induction jobs generalizing i with
  | nil => cases hjob
  | cons pair rest ih =>
      cases i with
      | zero =>
          obtain rfl := Option.some.inj hjob
          simpa [withPhase] using h
      | succ i =>
          have := ih (i := i) hjob
          simpa [withPhase] using this

theorem remaining_lt_of_step? (h : state.step? session i = some next) :
  next.remaining < state.remaining
  := by
  obtain ⟨job, phase, hjob, world, phase', hmove, -, rfl⟩ := step?_eq_some_iff.mp h
  apply sum_rank_withPhase_lt hjob hmove.rank_lt

/-- Every schedule can be continued until all jobs have come to their end. -/
theorem Sound.exists_isOver (h : state.Sound session) :
  ∃ order last, state.run? session order = some last ∧ last.IsOver
  := by
  induction hcount : state.remaining using Nat.strongRecOn generalizing state with
  | ind count ih =>
      by_cases hover : state.IsOver
      · use [], state, rfl
      · rw [IsOver] at hover
        push Not at hover
        obtain ⟨⟨job, phase⟩, hmem, hdone⟩ := hover
        obtain ⟨i, hjob⟩ := List.getElem?_of_mem hmem
        obtain ⟨j, next, hstep⟩ := h.exists_step? hjob (by simpa using hdone)
        obtain ⟨order, last, hrun, hlast⟩ := ih next.remaining
          (by rw [← hcount]; apply remaining_lt_of_step? hstep) (sound_of_step? h hstep) rfl
        use j :: order, last
        use (by rw [run?, hstep]; exact hrun), hlast

end Schedule

end Scrutiny
