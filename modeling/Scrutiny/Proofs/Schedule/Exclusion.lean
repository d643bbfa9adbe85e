import Scrutiny.Proofs.Concurrency.Locks
import Scrutiny.Proofs.Concurrency.Permits
import Scrutiny.Proofs.Schedule.Step
import Mathlib.Data.List.Perm.Subperm

/-!
# Exclusion

In every state that a schedule can reach, the phases of the jobs agree with the locks and permits:
a review holds the lock of its fingerprint from its search to its end, and a job that asks the model
has a permit.  So no two reviews of one fingerprint are under way at the same time, and no more
questions than there are permits.
-/

namespace Scrutiny

variable {μ α : Type}

namespace JobPhase

/-- Whether a review in the phase has asked for the lock of its fingerprint, and holds it. -/
def writerHolds? : JobPhase α → Option Bool
  | .idle | .done _ => none
  | .atWriter => some false
  | _ => some true

/-- Whether a job in the phase has asked for the lock of its index, and holds it. -/
def indexHolds? : JobPhase α → Option Bool
  | .atIndex _ => some false
  | .indexing _ => some true
  | _ => none

/-- Whether a job in the phase has asked for a permit. -/
def asksPermit : JobPhase α → Bool
  | .atPermit | .asking => true
  | _ => false

/-- Whether a job in the phase has come to its end. -/
def isDone : JobPhase α → Bool
  | .done _ => true
  | _ => false

/-- Whether only a review can be in the phase. -/
def isOfReview : JobPhase α → Bool
  | .atWriter | .searching | .atPermit | .asking | .keeping _ _ => true
  | _ => false

end JobPhase

theorem Move.isDone_eq_false {session : Session μ} {world world' : World μ} {job : Job μ α}
    {phase phase' : JobPhase α} (h : Move session world job phase world' phase') :
  phase.isDone = false
  := by
  cases h <;> rfl

namespace Schedule

/-- The share of a job in the locks of the fingerprints. -/
def writerShare? : Job μ α × JobPhase α → Option (Fingerprint × Bool)
  | (.review review, phase) => phase.writerHolds?.map (review.key.fingerprint, ·)
  | (.invalidation _, _) => none

/-- The share of a job in the locks of the indexes. -/
def indexShare? : Job μ α × JobPhase α → Option (String × Bool)
  | (job, phase) => phase.indexHolds?.map (indexIdOf job, ·)

/-- The locks agree with the phases of the jobs. -/
structure Tracks {κ : Type} [DecidableEq κ] (locks : KeyedLocks Nat κ)
    (shareOf : Job μ α × JobPhase α → Option (κ × Bool)) (jobs : List (Job μ α × JobPhase α)) : Prop where
  coherent : locks.Coherent
  share?_eq : ∀ i, locks.share? i = (jobs[i]?).bind shareOf

namespace Tracks

variable {κ : Type} [DecidableEq κ] {locks : KeyedLocks Nat κ}
  {shareOf : Job μ α × JobPhase α → Option (κ × Bool)} {jobs : List (Job μ α × JobPhase α)}
  {i : Nat} {job : Job μ α} {phase phase' : JobPhase α} {key : κ}

theorem share?_self (h : Tracks locks shareOf jobs) (hjob : jobs[i]? = some (job, phase)) :
  locks.share? i = shareOf (job, phase)
  := by
  rw [h.share?_eq, hjob, Option.bind_some]

/-- Locks that agree with the jobs but for one of them agree after that one has changed its phase. -/
theorem of_share?_eq (h : Tracks locks shareOf jobs) (hjob : jobs[i]? = some (job, phase))
    {later : KeyedLocks Nat κ} (hcoherent : later.Coherent)
    (hshare : ∀ j, later.share? j = if j = i then shareOf (job, phase') else locks.share? j) :
  Tracks later shareOf (withPhase jobs i phase')
  := by
  use hcoherent
  intro j
  rw [hshare, getElem?_withPhase hjob]
  split
  · rfl
  · apply h.share?_eq

theorem keep (h : Tracks locks shareOf jobs) (hjob : jobs[i]? = some (job, phase))
    (hsame : shareOf (job, phase') = shareOf (job, phase)) :
  Tracks locks shareOf (withPhase jobs i phase')
  := by
  apply h.of_share?_eq hjob h.coherent
  intro j
  split
  · rename_i heq
    rw [heq, hsame, h.share?_self hjob]
  · rfl

theorem ask (h : Tracks locks shareOf jobs) (hjob : jobs[i]? = some (job, phase))
    (hbefore : shareOf (job, phase) = none) (hafter : shareOf (job, phase') = some (key, false)) :
  Tracks (locks.ask i key) shareOf (withPhase jobs i phase')
  := by
  have hnew : locks.share? i = none := by rw [h.share?_self hjob, hbefore]
  apply h.of_share?_eq hjob (h.coherent.ask hnew key)
  intro j
  rw [KeyedLocks.share?_ask hnew, hafter]

theorem grant (h : Tracks locks shareOf jobs) (hjob : jobs[i]? = some (job, phase))
    (hnext : locks.isNext i) (hbefore : shareOf (job, phase) = some (key, false))
    (hafter : shareOf (job, phase') = some (key, true)) :
  Tracks (locks.grant i) shareOf (withPhase jobs i phase')
  := by
  have hasked : locks.share? i = some (key, false) := by rw [h.share?_self hjob, hbefore]
  apply h.of_share?_eq hjob (h.coherent.grant hnext)
  intro j
  rw [KeyedLocks.share?_grant hasked, hafter]

theorem leave (h : Tracks locks shareOf jobs) (hjob : jobs[i]? = some (job, phase))
    (hafter : shareOf (job, phase') = none) :
  Tracks (locks.leave i) shareOf (withPhase jobs i phase')
  := by
  apply h.of_share?_eq hjob (h.coherent.leave i)
  intro j
  rw [KeyedLocks.share?_leave, hafter]

end Tracks

/-- The permits agree with the phases of the jobs. -/
structure TracksPermits (permits : Permits Nat) (jobs : List (Job μ α × JobPhase α)) : Prop where
  coherent : permits.Coherent
  mem_asked : ∀ i, i ∈ permits.asked ↔ ∃ pair ∈ jobs[i]?, pair.2.asksPermit
  mem_held : ∀ i job, jobs[i]? = some (job, .asking) → i ∈ permits.held

namespace TracksPermits

variable {permits : Permits Nat} {jobs : List (Job μ α × JobPhase α)} {i : Nat} {job : Job μ α}
  {phase phase' : JobPhase α}

theorem mem_asked_iff (h : TracksPermits permits jobs) (hjob : jobs[i]? = some (job, phase)) :
  i ∈ permits.asked ↔ phase.asksPermit
  := by
  rw [h.mem_asked, hjob]
  simp

/-- Permits that agree with the jobs but for one of them agree after that one has changed its
phase. -/
theorem of_mem_iff (h : TracksPermits permits jobs) (hjob : jobs[i]? = some (job, phase))
    {later : Permits Nat} (hcoherent : later.Coherent)
    (hasked : ∀ j, j ∈ later.asked ↔ if j = i then (phase'.asksPermit : Prop) else j ∈ permits.asked)
    (hheld : ∀ j, j ≠ i → j ∈ permits.held → j ∈ later.held)
    (hself : phase' = .asking → i ∈ later.held) :
  TracksPermits later (withPhase jobs i phase')
  := by
  use hcoherent
  · intro j
    rw [hasked, getElem?_withPhase hjob]
    split
    · simp
    · apply h.mem_asked
  · intro j other hother
    rcases of_getElem?_withPhase hjob hother with ⟨rfl, -, hphase⟩ | ⟨hne, hother⟩
    · apply hself hphase.symm
    · apply hheld j hne (h.mem_held j other hother)

theorem keep (h : TracksPermits permits jobs) (hjob : jobs[i]? = some (job, phase))
    (hsame : phase'.asksPermit = phase.asksPermit) (hself : phase' = .asking → i ∈ permits.held) :
  TracksPermits permits (withPhase jobs i phase')
  := by
  apply h.of_mem_iff hjob h.coherent _ _ hself
  · intro j
    split
    · rename_i heq
      rw [heq, h.mem_asked_iff hjob, hsame]
    · rfl
  · intro j _ hj
    apply hj

theorem acquire (h : TracksPermits permits jobs) (hjob : jobs[i]? = some (job, phase))
    (hbefore : phase.asksPermit = false) :
  TracksPermits (permits.acquire i) (withPhase jobs i .atPermit)
  := by
  have hnew : i ∉ permits.asked := by
    rw [h.mem_asked_iff hjob, hbefore]
    simp
  apply h.of_mem_iff hjob (h.coherent.acquire hnew)
  · intro j
    rw [Permits.asked_acquire, List.mem_append, List.mem_singleton]
    split
    · rename_i heq
      simp [heq, JobPhase.asksPermit]
    · rename_i hne
      simp [hne]
  · intro j _ hj
    apply Permits.mem_held_acquire hj
  · intro heq
    cases heq

theorem release (h : TracksPermits permits jobs) (hjob : jobs[i]? = some (job, .asking))
    (hafter : phase'.asksPermit = false) :
  TracksPermits (permits.release i) (withPhase jobs i phase')
  := by
  have hheld := h.mem_held i job hjob
  apply h.of_mem_iff hjob (h.coherent.release hheld)
  · intro j
    rw [Permits.asked_release hheld, h.coherent.nodup.mem_erase_iff]
    split
    · rename_i heq
      simp [heq, hafter]
    · rename_i hne
      simp [hne]
  · intro j hne hj
    apply Permits.mem_held_release hj hne
  · intro heq
    rw [heq] at hafter
    cases hafter

end TracksPermits

/-- The phases of the jobs agree with the locks and the permits. -/
structure Sound (session : Session μ) (state : Schedule μ α) : Prop where
  writers : Tracks state.writers writerShare? state.jobs
  indexes : Tracks state.indexes indexShare? state.jobs
  permits : TracksPermits state.permits state.jobs
  limit_eq : state.permits.limit = session.limit
  mem_finished : ∀ i, i ∈ state.finished ↔ ∃ pair ∈ state.jobs[i]?, pair.2.isDone
  of_invalidation : ∀ (i : Nat) (chunkId : String) (phase : JobPhase α),
    state.jobs[i]? = some (.invalidation chunkId, phase) → phase.isOfReview = false

variable {session : Session μ} {state next : Schedule μ α} {i j : Nat} {job : Job μ α}
  {phase phase' : JobPhase α} {world world' : World μ}

theorem sound_ofJobs (session : Session μ) (world : World μ) (jobs : List (Job μ α)) :
  (ofJobs session world jobs).Sound session
  := by
  have hidle (i : Nat) : (ofJobs session world jobs).jobs[i]? = jobs[i]?.map (·, .idle) :=
    List.getElem?_map
  constructor
  · use KeyedLocks.coherent_empty
    intro i
    rw [hidle]
    rcases jobs[i]? with _ | review | chunkId <;> rfl
  · use KeyedLocks.coherent_empty
    intro i
    rw [hidle]
    cases jobs[i]? <;> rfl
  · use Permits.coherent_ofLimit _
    · intro i
      rw [hidle]
      cases jobs[i]? with
      | none => simp [ofJobs, Permits.ofLimit, Permits.asked]
      | some job => simp [ofJobs, Permits.ofLimit, Permits.asked, JobPhase.asksPermit]
    · intro i job hjob
      rw [hidle] at hjob
      cases h : jobs[i]? with
      | none =>
          rw [h] at hjob
          cases hjob
      | some job =>
          rw [h] at hjob
          cases hjob
  · rfl
  · intro i
    rw [hidle]
    cases jobs[i]? with
    | none => simp [ofJobs]
    | some job => simp [ofJobs, JobPhase.isDone]
  · intro i chunkId phase hjob
    rw [hidle] at hjob
    obtain ⟨job, -, hpair⟩ := Option.map_eq_some_iff.mp hjob
    cases hpair
    rfl

/-! ### What a step keeps -/

theorem Sound.writers_after (h : state.Sound session) (hjob : state.jobs[i]? = some (job, phase))
    (hmove : Move session world job phase world' phase') (hmay : state.MayEnter i phase') :
  Tracks (writersAfter state.writers i job phase') writerShare? (withPhase state.jobs i phase')
  := by
  cases hmove with
  | ask => exact h.writers.ask hjob rfl rfl
  | take => exact h.writers.grant hjob hmay rfl rfl
  | miss | permit | usable | kept | askIndex => exact h.writers.keep hjob rfl
  | takeIndex => cases job <;> exact h.writers.keep hjob rfl
  | _ => exact h.writers.leave hjob rfl

theorem Sound.indexes_after (h : state.Sound session) (hjob : state.jobs[i]? = some (job, phase))
    (hmove : Move session world job phase world' phase') (hmay : state.MayEnter i phase') :
  Tracks (indexesAfter state.indexes i job phase') indexShare? (withPhase state.jobs i phase')
  := by
  cases hmove with
  | ask | take | miss | permit | usable => exact h.indexes.keep hjob rfl
  | kept | askIndex => exact h.indexes.ask hjob rfl rfl
  | takeIndex => exact h.indexes.grant hjob hmay rfl rfl
  | _ => exact h.indexes.leave hjob rfl

theorem Sound.permits_after (h : state.Sound session) (hjob : state.jobs[i]? = some (job, phase))
    (hmove : Move session world job phase world' phase') (hmay : state.MayEnter i phase') :
  TracksPermits (permitsAfter state.permits i phase phase') (withPhase state.jobs i phase')
  := by
  cases hmove with
  | miss => exact h.permits.acquire hjob rfl
  | permit => exact h.permits.keep hjob rfl fun _ => hmay
  | usable | useless | failure | fatal => exact h.permits.release hjob rfl
  | _ => exact h.permits.keep hjob rfl fun heq => by cases heq

theorem mem_finishedAfter {jobs : List (Job μ α × JobPhase α)} {finished : List Nat}
    (h : ∀ j, j ∈ finished ↔ ∃ pair ∈ jobs[j]?, pair.2.isDone) (hjob : jobs[i]? = some (job, phase))
    (hphase : phase.isDone = false) (j : Nat) :
  j ∈ finishedAfter finished i phase' ↔ ∃ pair ∈ (withPhase jobs i phase')[j]?, pair.2.isDone
  := by
  have hmem : j ∈ finishedAfter finished i phase' ↔ j ∈ finished ∨ (j = i ∧ phase'.isDone) := by
    cases phase' with
    | done result => simp [finishedAfter, JobPhase.isDone]
    | _ => simp [finishedAfter, JobPhase.isDone]
  rw [hmem, h, getElem?_withPhase hjob]
  split
  · rename_i heq
    subst heq
    simp [hjob, hphase]
  · rename_i hne
    simp [hne]

/-- An invalidation only comes to phases that are not of a review. -/
theorem isOfReview_withPhase {jobs : List (Job μ α × JobPhase α)}
    (h : ∀ (j : Nat) (chunkId : String) (phase : JobPhase α),
      jobs[j]? = some (.invalidation chunkId, phase) → phase.isOfReview = false)
    (hjob : jobs[i]? = some (job, phase))
    (hphase : ∀ chunkId, job = .invalidation chunkId → phase'.isOfReview = false) :
  ∀ (j : Nat) (chunkId : String) (phase : JobPhase α),
    (withPhase jobs i phase')[j]? = some (.invalidation chunkId, phase) → phase.isOfReview = false
  := by
  intro j chunkId later hlater
  rcases of_getElem?_withPhase hjob hlater with ⟨-, hself, rfl⟩ | ⟨-, hlater⟩
  · apply hphase chunkId hself.symm
  · apply h j chunkId later hlater

theorem isOfReview_of_move (hmove : Move session world job phase world' phase') (chunkId : String)
    (hjob : job = .invalidation chunkId) :
  phase'.isOfReview = false
  := by
  subst hjob
  cases hmove <;> rfl

theorem sound_of_step? (h : state.Sound session) (hstep : state.step? session i = some next) :
  next.Sound session
  := by
  obtain ⟨job, phase, hjob, world, phase', hmove, hmay, rfl⟩ := step?_eq_some_iff.mp hstep
  constructor
  · apply h.writers_after hjob hmove hmay
  · apply h.indexes_after hjob hmove hmay
  · apply h.permits_after hjob hmove hmay
  · rw [← h.limit_eq]
    cases hmove <;> simp [after, permitsAfter]
  · apply mem_finishedAfter h.mem_finished hjob hmove.isDone_eq_false
  · apply isOfReview_withPhase h.of_invalidation hjob (isOfReview_of_move hmove)

theorem sound_of_run? (h : state.Sound session) {order : List Nat}
    (hrun : state.run? session order = some next) :
  next.Sound session
  := by
  apply of_run? (P := (Sound session ·)) _ h hrun
  intro i _ state next hstate hstep
  apply sound_of_step? hstate hstep

/-! ### Exclusion and the limit -/

/-- No two reviews of one fingerprint are between their search and their end. -/
theorem Sound.eq_of_writerHolds? (h : state.Sound session) {review other : CachedReview μ α}
    (hi : state.jobs[i]? = some (.review review, phase))
    (hj : state.jobs[j]? = some (.review other, phase'))
    (hkey : review.key.fingerprint = other.key.fingerprint)
    (hphase : phase.writerHolds? = some true) (hphase' : phase'.writerHolds? = some true) :
  i = j
  := by
  have hshare : state.writers.share? i = some (review.key.fingerprint, true) := by
    rw [h.writers.share?_self hi, writerShare?, hphase]
    rfl
  apply h.writers.coherent.eq_of_share?_eq hshare
  rw [h.writers.share?_self hj, writerShare?, hphase', hkey]
  rfl

/-- The jobs that ask the model. -/
def asking (state : Schedule μ α) : List Nat :=
  (List.range state.jobs.length).filter fun i =>
    match state.jobs[i]? with
    | some (_, .asking) => true
    | _ => false

theorem mem_asking_iff :
  i ∈ state.asking ↔ ∃ job, state.jobs[i]? = some (job, .asking)
  := by
  rw [asking, List.mem_filter, List.mem_range]
  constructor
  · rintro ⟨-, hi⟩
    split at hi
    · rename_i job hjob
      use job
    · cases hi
  · rintro ⟨job, hjob⟩
    use (List.getElem?_eq_some_iff.mp hjob).1
    rw [hjob]

/-- At most as many questions are under way as the limit of the session admits. -/
theorem Sound.length_asking_le (h : state.Sound session) :
  state.asking.length ≤ session.limit
  := by
  have hnodup : state.asking.Nodup := List.Nodup.filter _ List.nodup_range
  have hsubset : state.asking ⊆ state.permits.held := by
    intro i hi
    obtain ⟨job, hjob⟩ := mem_asking_iff.mp hi
    apply h.permits.mem_held i job hjob
  calc state.asking.length
    _ ≤ state.permits.held.length := (hnodup.subperm hsubset).length_le
    _ ≤ state.permits.limit := h.permits.coherent.length_le
    _ = session.limit := h.limit_eq

end Schedule

end Scrutiny
