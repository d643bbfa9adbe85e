import Scrutiny.Review.Schedule
import Mathlib.Data.List.Nodup

/-!
# Steps of schedules

A step of a schedule is a move of one job.  `Move` lists the moves, with what each does to the world.
Which locks and permits a job takes and gives back depends on its phases before and after the move
alone.
-/

namespace Scrutiny

variable {μ α : Type}

/-- The moves of a job: its phase and the world before, and the world and its phase afterwards. -/
inductive Move (session : Session μ) (world : World μ) :
    Job μ α → JobPhase α → World μ → JobPhase α → Prop where
  /-- A review asks for the lock of its fingerprint. -/
  | ask {review : CachedReview μ α} : Move session world (.review review) .idle world .atWriter
  /-- It takes that lock. -/
  | take {review : CachedReview μ α} : Move session world (.review review) .atWriter world .searching
  /-- It finds a result. -/
  | hit {review : CachedReview μ α} {result : α}
    (h : review.found? session.cache world.files = some result) :
    Move session world (.review review) .searching world.countHit (.done (.ok (some result)))
  /-- It finds none, and asks for a permit. -/
  | miss {review : CachedReview μ α} (h : review.found? session.cache world.files = none) :
    Move session world (.review review) .searching world .atPermit
  /-- It has a permit. -/
  | permit {review : CachedReview μ α} : Move session world (.review review) .atPermit world .asking
  /-- The model gives a usable reply. -/
  | usable {review : CachedReview μ α} {result : α} {kept : Json} {later : World μ}
    (h : world.ask review.ask = (.ok (.usable result kept), later)) :
    Move session world (.review review) .asking later (.keeping result kept)
  /-- The model gives a reply that is of no use. -/
  | useless {review : CachedReview μ α} {reason : String} {later : World μ}
    (h : world.ask review.ask = (.ok (.useless reason), later)) :
    Move session world (.review review) .asking later.countFailure
      (.done (.ok (some (review.failed reason))))
  /-- The model gives no reply. -/
  | failure {review : CachedReview μ α} {e : InferenceError} {later : World μ}
    (h : world.ask review.ask = (.error e, later)) (hfatal : e.isFatal = false) :
    Move session world (.review review) .asking later.countFailure
      (.done (.ok (some (review.failed e.message))))
  /-- The model cannot be asked. -/
  | fatal {review : CachedReview μ α} {e : InferenceError} {later : World μ}
    (h : world.ask review.ask = (.error e, later)) (hfatal : e.isFatal) :
    Move session world (.review review) .asking later (.done (.error (.inference e)))
  /-- The result is written, and the lock of the index is asked for. -/
  | kept {review : CachedReview μ α} {result : α} {kept : Json} {files : FileTree}
    (h : FileAction.writeJson (session.cache.entryPath review.key.fingerprint)
      (CacheEntry.ofKey review.key kept session.clock.seconds).toJson world.files = (.ok (), files)) :
    Move session world (.review review) (.keeping result kept) { world with files }
      (.atIndex (some result))
  /-- The result cannot be written. -/
  | notKept {review : CachedReview μ α} {result : α} {kept : Json} {files : FileTree} {e : FileError}
    (h : FileAction.writeJson (session.cache.entryPath review.key.fingerprint)
      (CacheEntry.ofKey review.key kept session.clock.seconds).toJson world.files = (.error e, files)) :
    Move session world (.review review) (.keeping result kept) { world with files }
      (.done (.ok (some result)))
  /-- A job takes the lock of the index. -/
  | takeIndex {job : Job μ α} {result : Option α} :
    Move session world job (.atIndex result) world (.indexing result)
  /-- The result is listed in the index, or cannot be listed. -/
  | listed {review : CachedReview μ α} {result : Option α} {listing : Except FileError Unit}
    {files : FileTree}
    (h : session.cache.addToIndex review.key.indexId review.key.fingerprint world.files
      = (listing, files)) :
    Move session world (.review review) (.indexing result) { world with files } (.done (.ok result))
  /-- An invalidation asks for the lock of the index. -/
  | askIndex {chunkId : String} :
    Move session world (.invalidation chunkId) .idle world (.atIndex none)
  /-- It removes what the index lists. -/
  | removed {chunkId : String} {result : Option α} {count : Nat} {files : FileTree}
    (h : session.cache.invalidate chunkId world.files = (.ok count, files)) :
    Move session world (.invalidation chunkId) (.indexing result) { world with files }
      (.done (.ok result))
  /-- It cannot remove everything. -/
  | notRemoved {chunkId : String} {result : Option α} {e : FileError} {files : FileTree}
    (h : session.cache.invalidate chunkId world.files = (.error e, files)) :
    Move session world (.invalidation chunkId) (.indexing result) { world with files }
      (.done (.error (ReviewAction.cacheFailure e)))

namespace Schedule

/-- The chunk whose index a job works on. -/
def indexIdOf : Job μ α → String
  | .review review => review.key.indexId
  | .invalidation chunkId => parentId chunkId

/-- The locks of the fingerprints after a job has come to a phase. -/
def writersAfter (writers : KeyedLocks Nat Fingerprint) (i : Nat) :
    Job μ α → JobPhase α → KeyedLocks Nat Fingerprint
  | .review review, .atWriter => writers.ask i review.key.fingerprint
  | _, .searching => writers.grant i
  | _, .done _ => writers.leave i
  | _, _ => writers

/-- The locks of the indexes after a job has come to a phase. -/
def indexesAfter (indexes : KeyedLocks Nat String) (i : Nat) (job : Job μ α) :
    JobPhase α → KeyedLocks Nat String
  | .atIndex _ => indexes.ask i (indexIdOf job)
  | .indexing _ => indexes.grant i
  | .done _ => indexes.leave i
  | _ => indexes

/-- The permits after a job has come from one phase to another. -/
def permitsAfter (permits : Permits Nat) (i : Nat) : JobPhase α → JobPhase α → Permits Nat
  | .searching, .atPermit => permits.acquire i
  | .asking, _ => permits.release i
  | _, _ => permits

/-- The finished jobs after a job has come to a phase. -/
def finishedAfter (finished : List Nat) (i : Nat) : JobPhase α → List Nat
  | .done _ => finished ++ [i]
  | _ => finished

/-- The jobs with one of them in another phase. -/
def withPhase (jobs : List (Job μ α × JobPhase α)) (i : Nat) (phase : JobPhase α) :
    List (Job μ α × JobPhase α) :=
  jobs.modify i fun (job, _) => (job, phase)

/-- The state after a move of a job. -/
def after (state : Schedule μ α) (i : Nat) (job : Job μ α) (phase : JobPhase α) (world : World μ)
    (phase' : JobPhase α) : Schedule μ α where
  world := world
  writers := writersAfter state.writers i job phase'
  indexes := indexesAfter state.indexes i job phase'
  permits := permitsAfter state.permits i phase phase'
  jobs := withPhase state.jobs i phase'
  finished := finishedAfter state.finished i phase'

/-- Whether a job need not wait before it comes to a phase. -/
def MayEnter (state : Schedule μ α) (i : Nat) : JobPhase α → Prop
  | .searching => state.writers.isNext i
  | .asking => i ∈ state.permits.held
  | .indexing _ => state.indexes.isNext i
  | _ => True

variable {session : Session μ} {state next : Schedule μ α} {i : Nat}

/-- Whether a move of a job leads from a state to another. -/
def Moves (session : Session μ) (state : Schedule μ α) (i : Nat) (job : Job μ α) (phase : JobPhase α)
    (next : Schedule μ α) : Prop :=
  ∃ world phase', Move session state.world job phase world phase' ∧ state.MayEnter i phase'
    ∧ state.after i job phase world phase' = next

theorem moves_of_reviewStep? {review : CachedReview μ α} {phase : JobPhase α}
    (h : state.reviewStep? session i review phase = some next) :
  state.Moves session i (.review review) phase next
  := by
  cases phase with
  | idle => exact ⟨_, _, .ask, trivial, Option.some.inj h⟩
  | atWriter =>
      obtain ⟨hnext, h⟩ := Option.ite_none_right_eq_some.mp h
      exact ⟨_, _, .take, hnext, Option.some.inj h⟩
  | searching =>
      unfold reviewStep? at h
      dsimp only at h
      cases hfound : review.found? session.cache state.world.files with
      | some result =>
          rw [hfound] at h
          exact ⟨_, _, .hit hfound, trivial, Option.some.inj h⟩
      | none =>
          rw [hfound] at h
          exact ⟨_, _, .miss hfound, trivial, Option.some.inj h⟩
  | atPermit =>
      obtain ⟨hheld, h⟩ := Option.ite_none_right_eq_some.mp h
      exact ⟨_, _, .permit, hheld, Option.some.inj h⟩
  | asking =>
      unfold reviewStep? answered at h
      dsimp only at h
      cases hask : state.world.ask review.ask with
      | mk answer later =>
          rw [hask] at h
          rcases answer with e | ⟨result, kept⟩ | reason
          · dsimp only at h
            split at h
            · exact ⟨_, _, .fatal hask ‹_›, trivial, Option.some.inj h⟩
            · exact ⟨_, _, .failure hask (Bool.eq_false_iff.mpr ‹_›), trivial, Option.some.inj h⟩
          · exact ⟨_, _, .usable hask, trivial, Option.some.inj h⟩
          · exact ⟨_, _, .useless hask, trivial, Option.some.inj h⟩
  | keeping result kept =>
      unfold reviewStep? at h
      dsimp only [onFiles] at h
      cases hwrite : FileAction.writeJson (session.cache.entryPath review.key.fingerprint)
          (CacheEntry.ofKey review.key kept session.clock.seconds).toJson state.world.files with
      | mk written files =>
          rw [hwrite] at h
          cases written with
          | ok u => exact ⟨_, _, .kept hwrite, trivial, Option.some.inj h⟩
          | error e => exact ⟨_, _, .notKept hwrite, trivial, Option.some.inj h⟩
  | atIndex result =>
      obtain ⟨hnext, h⟩ := Option.ite_none_right_eq_some.mp h
      exact ⟨_, _, .takeIndex, hnext, Option.some.inj h⟩
  | indexing result =>
      unfold reviewStep? at h
      dsimp only [onFiles] at h
      cases hadd : session.cache.addToIndex review.key.indexId review.key.fingerprint
          state.world.files with
      | mk listing files =>
          rw [hadd] at h
          exact ⟨_, _, .listed hadd, trivial, Option.some.inj h⟩
  | done result => cases h

theorem moves_of_invalidationStep? {chunkId : String} {phase : JobPhase α}
    (h : state.invalidationStep? session i chunkId phase = some next) :
  state.Moves session i (.invalidation chunkId) phase next
  := by
  cases phase with
  | idle => exact ⟨_, _, .askIndex, trivial, Option.some.inj h⟩
  | atIndex result =>
      have h : state.takeIndex? i result = some next := h
      obtain ⟨hnext, h⟩ := Option.ite_none_right_eq_some.mp h
      exact ⟨_, _, .takeIndex, hnext, Option.some.inj h⟩
  | indexing result =>
      unfold invalidationStep? at h
      dsimp only [onFiles] at h
      cases hremove : session.cache.invalidate chunkId state.world.files with
      | mk removed files =>
          rw [hremove] at h
          cases removed with
          | ok count => exact ⟨_, _, .removed hremove, trivial, Option.some.inj h⟩
          | error e => exact ⟨_, _, .notRemoved hremove, trivial, Option.some.inj h⟩
  | _ => cases h

/-- The steps of a schedule are the moves of its jobs that need not wait. -/
theorem step?_eq_some_iff :
  state.step? session i = some next
    ↔ ∃ job phase, state.jobs[i]? = some (job, phase) ∧ state.Moves session i job phase next
  := by
  constructor
  · intro h
    rcases hjob : state.jobs[i]? with _ | ⟨review | chunkId, phase⟩
    · rw [step?, hjob] at h
      cases h
    · rw [step?, hjob] at h
      exact ⟨_, _, rfl, moves_of_reviewStep? h⟩
    · rw [step?, hjob] at h
      exact ⟨_, _, rfl, moves_of_invalidationStep? h⟩
  · rintro ⟨job, phase, hjob, world, phase', hmove, hmay, rfl⟩
    rw [step?, hjob]
    cases hmove with
    | ask => rfl
    | take => exact if_pos hmay
    | hit h =>
        unfold reviewStep?
        dsimp only
        rw [h]
        rfl
    | miss h =>
        unfold reviewStep?
        dsimp only
        rw [h]
        rfl
    | permit => exact if_pos hmay
    | usable h =>
        unfold reviewStep? answered
        dsimp only
        rw [h]
        rfl
    | useless h =>
        unfold reviewStep? answered
        dsimp only
        rw [h]
        rfl
    | failure h hfatal =>
        unfold reviewStep? answered
        dsimp only
        rw [h]
        dsimp only
        rw [hfatal]
        rfl
    | fatal h hfatal =>
        unfold reviewStep? answered
        dsimp only
        rw [h]
        dsimp only
        rw [hfatal]
        rfl
    | kept h =>
        unfold reviewStep?
        dsimp only [onFiles]
        rw [h]
        rfl
    | notKept h =>
        unfold reviewStep?
        dsimp only [onFiles]
        rw [h]
        rfl
    | @takeIndex job result =>
        cases job with
        | review review => exact if_pos hmay
        | invalidation chunkId => exact if_pos hmay
    | listed h =>
        unfold reviewStep?
        dsimp only [onFiles]
        rw [h]
        rfl
    | askIndex => rfl
    | removed h =>
        unfold invalidationStep?
        dsimp only [onFiles]
        rw [h]
        rfl
    | notRemoved h =>
        unfold invalidationStep?
        dsimp only [onFiles]
        rw [h]
        rfl

/-- A step of a review is one of its moves. -/
theorem exists_move_of_step? {review : CachedReview μ α} {phase : JobPhase α}
    (hjob : state.jobs[i]? = some (.review review, phase))
    (hstep : state.step? session i = some next) :
  ∃ world phase', Move session state.world (.review review) phase world phase'
    ∧ state.after i (.review review) phase world phase' = next
  := by
  obtain ⟨job, phase, hjob', world, phase', hmove, -, hnext⟩ := step?_eq_some_iff.mp hstep
  obtain ⟨rfl, rfl⟩ := Prod.mk.inj (Option.some.inj (hjob.symm.trans hjob'))
  exact ⟨world, phase', hmove, hnext⟩

/-! ### The jobs after a step -/

variable {jobs : List (Job μ α × JobPhase α)} {job : Job μ α} {phase phase' : JobPhase α}

theorem getElem?_withPhase (hjob : jobs[i]? = some (job, phase)) (phase' : JobPhase α) (j : Nat) :
  (withPhase jobs i phase')[j]? = if j = i then some (job, phase') else jobs[j]?
  := by
  rw [withPhase, List.getElem?_modify]
  split
  · rename_i heq
    subst heq
    rw [if_pos rfl, hjob]
    rfl
  · rename_i hne
    rw [if_neg (Ne.symm hne)]
    cases jobs[j]? <;> rfl

/-- The jobs afterwards: the one in its new phase, and the others as they were. -/
theorem of_getElem?_withPhase (hjob : jobs[i]? = some (job, phase)) {j : Nat} {other : Job μ α}
    {later : JobPhase α} (h : (withPhase jobs i phase')[j]? = some (other, later)) :
  j = i ∧ other = job ∧ later = phase' ∨ j ≠ i ∧ jobs[j]? = some (other, later)
  := by
  rw [getElem?_withPhase hjob] at h
  split at h
  · rename_i heq
    obtain ⟨rfl, rfl⟩ := Prod.mk.inj (Option.some.inj h)
    exact .inl ⟨heq, rfl, rfl⟩
  · rename_i hne
    exact .inr ⟨hne, h⟩

theorem map_fst_withPhase (jobs : List (Job μ α × JobPhase α)) (i : Nat) (phase : JobPhase α) :
  (withPhase jobs i phase).map Prod.fst = jobs.map Prod.fst
  := by
  apply List.ext_getElem?
  intro j
  rw [withPhase, List.getElem?_map, List.getElem?_map, List.getElem?_modify]
  cases jobs[j]? with
  | none => rfl
  | some pair =>
      rw [Option.map_eq_map, Option.map_some, Option.map_some]
      split <;> rfl

/-- The jobs stay the same. -/
theorem map_fst_of_step? (h : state.step? session i = some next) :
  next.jobs.map Prod.fst = state.jobs.map Prod.fst
  := by
  obtain ⟨job, phase, -, world, phase', -, -, rfl⟩ := step?_eq_some_iff.mp h
  apply map_fst_withPhase

/-! ### Runs -/

/-- What each step keeps, a run keeps. -/
theorem of_run? {P : Schedule μ α → Prop} {order : List Nat}
    (hstep : ∀ i ∈ order, ∀ state next, P state → state.step? session i = some next → P next)
    (h : P state) (hrun : state.run? session order = some next) :
  P next
  := by
  induction order generalizing state with
  | nil =>
      obtain rfl : state = next := Option.some.inj hrun
      apply h
  | cons i rest ih =>
      obtain ⟨middle, hmiddle, hrest⟩ := Option.bind_eq_some_iff.mp hrun
      apply ih _ _ hrest
      · intro j hj
        apply hstep j (List.mem_cons_of_mem i hj)
      · apply hstep i List.mem_cons_self _ _ h hmiddle

theorem run?_append (session : Session μ) (state : Schedule μ α) (order later : List Nat) :
  state.run? session (order ++ later) = (state.run? session order).bind (run? session · later)
  := by
  induction order generalizing state with
  | nil => rfl
  | cons i rest ih =>
      rw [List.cons_append, run?, run?, Option.bind_assoc]
      congr
      funext middle
      apply ih

theorem map_fst_of_run? {order : List Nat} (h : state.run? session order = some next) :
  next.jobs.map Prod.fst = state.jobs.map Prod.fst
  := by
  apply of_run? (P := fun middle => middle.jobs.map Prod.fst = state.jobs.map Prod.fst) _ rfl h
  intro i _ middle later hmiddle hstep
  rw [map_fst_of_step? hstep, hmiddle]

/-! ### Schedules of reviews -/

theorem map_fst_ofJobs (session : Session μ) (world : World μ) (jobs : List (Job μ α)) :
  (ofJobs session world jobs).jobs.map Prod.fst = jobs
  := by
  rw [ofJobs, List.map_map]
  apply List.map_id

theorem phase_eq_idle_of_ofJobs {world : World μ} {jobs : List (Job μ α)}
    (h : (ofJobs session world jobs).jobs[i]? = some (job, phase)) :
  phase = .idle
  := by
  obtain ⟨_, -, hpair⟩ := List.mem_map.mp (List.mem_of_getElem? h)
  exact (Prod.mk.inj hpair).2.symm

section

variable {reviews : List (CachedReview μ α)} (h : state.jobs.map Prod.fst = reviews.map Job.review)

include h

/-- If all jobs are reviews, each of them is. -/
theorem exists_review_of_getElem? (hjob : state.jobs[i]? = some (job, phase)) :
  ∃ review ∈ reviews, Job.review review = job
  := by
  apply List.mem_map.mp
  rw [← h]
  apply List.mem_map_of_mem (List.mem_of_getElem? hjob)

theorem mem_of_getElem? {review : CachedReview μ α}
    (hjob : state.jobs[i]? = some (.review review, phase)) :
  review ∈ reviews
  := by
  obtain ⟨other, hother, heq⟩ := exists_review_of_getElem? h hjob
  obtain rfl := Job.review.inj heq
  apply hother

end

end Schedule

end Scrutiny
