import Scrutiny.Proofs.Cache.Writing
import Scrutiny.Proofs.Review.Actions
import Scrutiny.Proofs.Schedule.Outcome
import Mathlib.Logic.Relation

/-!
# One review after the other

A review that is carried out alone makes its moves one after the other.  As long as all others have
not begun or have come to their end, each of these moves is a step of a schedule: reviews that are
carried out one after the other are one of the schedules.
-/

namespace Scrutiny

open Relation

variable {μ α : Type} {session : Session μ} {review : CachedReview μ α} {world world' : World μ}
  {phase phase' : JobPhase α}

/-- A review comes from one phase to another by moves of its own. -/
def Reaches (session : Session μ) (review : CachedReview μ α) :
    World μ × JobPhase α → World μ × JobPhase α → Prop :=
  ReflTransGen fun before after => Move session before.1 (.review review) before.2 after.1 after.2

theorem Move.reaches (h : Move session world (.review review) phase world' phase') :
  Reaches session review (world, phase) (world', phase')
  := .single h

theorem reaches_searching (session : Session μ) (review : CachedReview μ α) (world : World μ) :
  Reaches session review (world, .idle) (world, .searching)
  := Move.ask.reaches.trans Move.take.reaches

/-- A result that is kept is written and listed. -/
theorem reaches_of_keeping {result : α} {kept : Json} :
  Reaches session review (world, .keeping result kept)
    ({ world with files := (session.cache.store review.key kept session.clock.seconds world.files).2 },
      .done (.ok (some result)))
  := by
  rcases hwrite : FileAction.writeJson (session.cache.entryPath review.key.fingerprint)
      (CacheEntry.ofKey review.key kept session.clock.seconds).toJson world.files with ⟨e | ⟨⟩, files⟩
  · have hstore : session.cache.store review.key kept session.clock.seconds world.files
        = (.error e, files) := FileAction.bind_of_error _ hwrite
    rw [hstore]
    apply (Move.notKept hwrite).reaches
  · rcases hadd : session.cache.addToIndex review.key.indexId review.key.fingerprint files
      with ⟨listing, files'⟩
    rw [Cache.snd_store_of_writeJson_eq_ok hwrite, hadd]
    have hkept : Reaches session review (world, .keeping result kept)
        ({ world with files }, .atIndex (some result)) := (Move.kept hwrite).reaches
    have hlisted : Move session { world with files } (.review review) (.indexing (some result))
        { world with files := files' } (.done (.ok (some result))) := .listed hadd
    apply hkept.trans (Move.takeIndex.reaches.trans hlisted.reaches)

/-- What a review does that is carried out alone, it does by its moves. -/
theorem reaches_of_perform {result : Except ReviewError α}
    (h : session.perform review world = (result, world')) :
  Reaches session review (world, .idle) (world', .done (result.map some))
  := by
  apply (reaches_searching session review world).trans
  cases hfound : review.found? session.cache world.files with
  | some found =>
      rw [Session.perform_of_found hfound] at h
      obtain ⟨rfl, rfl⟩ := Prod.mk.inj h
      apply (Move.hit hfound).reaches
  | none =>
      rw [Session.perform_of_not_found hfound] at h
      apply ((Move.miss hfound).reaches.trans Move.permit.reaches).trans
      rcases hask : world.ask review.ask with ⟨e | ⟨value, kept⟩ | reason, later⟩
      · cases hfatal : e.isFatal with
        | true =>
            rw [Session.askAndKeep_of_fatal hask hfatal] at h
            obtain ⟨rfl, rfl⟩ := Prod.mk.inj h
            apply (Move.fatal hask hfatal).reaches
        | false =>
            rw [Session.askAndKeep_of_failure hask hfatal] at h
            obtain ⟨rfl, rfl⟩ := Prod.mk.inj h
            apply (Move.failure hask hfatal).reaches
      · rw [Session.askAndKeep_of_usable hask] at h
        obtain ⟨rfl, rfl⟩ := Prod.mk.inj h
        apply (Move.usable hask).reaches.trans reaches_of_keeping
      · rw [Session.askAndKeep_of_useless hask] at h
        obtain ⟨rfl, rfl⟩ := Prod.mk.inj h
        apply (Move.useless hask).reaches

/-- Whether a job in the phase has no locks and no permit, and waits for none. -/
def JobPhase.isQuiet : JobPhase α → Bool
  | .idle | .done _ => true
  | _ => false

namespace Schedule

variable {state next : Schedule μ α} {i : Nat} {job : Job μ α}

/-- All jobs but one are quiet. -/
def IsQuietBut (state : Schedule μ α) (i : Nat) : Prop :=
  ∀ j pair, state.jobs[j]? = some pair → j ≠ i → pair.2.isQuiet

theorem IsQuietBut.eq (h : state.IsQuietBut i) {j : Nat} (hjob : state.jobs[j]? = some (job, phase))
    (hphase : phase.isQuiet = false) :
  j = i
  := by
  by_contra hne
  have hquiet := h j (job, phase) hjob hne
  rw [hphase] at hquiet
  cases hquiet

/-- A job need not wait if all others are quiet. -/
theorem Sound.mayLeave_of_isQuietBut (h : state.Sound session) (hquiet : state.IsQuietBut i)
    (hjob : state.jobs[i]? = some (.review review, phase)) :
  state.MayLeave i phase
  := by
  cases phase with
  | atWriter =>
      have hshare : state.writers.share? i = some (review.key.fingerprint, false) := by
        rw [h.writers.share?_self hjob]
        rfl
      obtain ⟨j, key, hholds | ⟨hwaits, hnext⟩⟩ := h.writers.coherent.exists_holds_or_isNext hshare
      · obtain ⟨other, later, hother, hlater⟩ := h.of_writers_share? hholds
        obtain rfl := hquiet.eq hother (by cases later <;> first | rfl | cases hlater)
        rw [hshare] at hholds
        cases hholds
      · obtain ⟨other, later, hother, hlater⟩ := h.of_writers_share? hwaits
        obtain rfl := hquiet.eq hother (by cases later <;> first | rfl | cases hlater)
        apply hnext
  | atPermit =>
      have hasked : i ∈ state.permits.asked := (h.permits.mem_asked_iff hjob).mpr rfl
      by_contra hheld
      have hwaiting : i ∈ state.permits.waiting := (List.mem_append.mp hasked).resolve_left hheld
      obtain ⟨j, hj⟩ : ∃ j, j ∈ state.permits.held := by
        apply List.exists_mem_of_length_pos
        rw [h.permits.coherent.length_eq (List.ne_nil_of_mem hwaiting)]
        apply h.permits.coherent.pos
      obtain ⟨⟨other, later⟩, hother, hlater⟩ := (h.permits.mem_asked j).mp (List.mem_append_left _ hj)
      obtain rfl := hquiet.eq hother (by cases later <;> first | rfl | cases hlater)
      apply hheld hj
  | atIndex result =>
      have hshare : state.indexes.share? i = some (review.key.indexId, false) := by
        rw [h.indexes.share?_self hjob]
        rfl
      obtain ⟨j, key, hholds | ⟨hwaits, hnext⟩⟩ := h.indexes.coherent.exists_holds_or_isNext hshare
      · obtain ⟨other, later, hother, hlater⟩ := h.of_indexes_share? hholds
        obtain rfl := hquiet.eq hother (by cases later <;> first | rfl | cases hlater)
        rw [hshare] at hholds
        cases hholds
      · obtain ⟨other, later, hother, hlater⟩ := h.of_indexes_share? hwaits
        obtain rfl := hquiet.eq hother (by cases later <;> first | rfl | cases hlater)
        apply hnext
  | _ => trivial

/-- The moves of a review are steps of a schedule if all others are quiet. -/
theorem Sound.exists_run?_of_reaches (h : state.Sound session) (hquiet : state.IsQuietBut i)
    (hjob : state.jobs[i]? = some (.review review, phase)) {last : World μ × JobPhase α}
    (hreaches : Reaches session review (state.world, phase) last) :
  ∃ order final, state.run? session order = some final ∧ final.Sound session
    ∧ final.world = last.1 ∧ final.jobs = withPhase state.jobs i last.2
  := by
  induction hreaches with
  | refl =>
      use [], state, rfl, h, rfl
      apply List.ext_getElem?
      intro j
      rw [getElem?_withPhase hjob]
      split
      · rename_i heq
        rw [heq, hjob]
      · rfl
  | @tail before after _ hmove ih =>
      obtain ⟨order, middle, hrun, hsound, hworld, hjobs⟩ := ih
      have hjob' : middle.jobs[i]? = some (.review review, before.2) := by
        rw [hjobs, getElem?_withPhase hjob, if_pos rfl]
      have hquiet' : middle.IsQuietBut i := by
        intro j pair hpair hne
        rw [hjobs, getElem?_withPhase hjob, if_neg hne] at hpair
        apply hquiet j pair hpair hne
      rw [← hworld] at hmove
      have hstep : middle.step? session i
          = some (middle.after i (.review review) before.2 after.1 after.2) :=
        step?_eq_some_iff.mpr ⟨_, _, hjob', _, _, hmove,
          mayEnter_of_move hmove (hsound.mayLeave_of_isQuietBut hquiet' hjob'), rfl⟩
      use order ++ [i], middle.after i (.review review) before.2 after.1 after.2
      use ?_, sound_of_step? hsound hstep, rfl
      · change withPhase middle.jobs i after.2 = _
        apply List.ext_getElem?
        intro j
        rw [getElem?_withPhase hjob', getElem?_withPhase hjob, hjobs, getElem?_withPhase hjob]
        split <;> rfl
      · rw [run?_append, hrun, Option.bind_some, run?, hstep]
        rfl

/-- A review that has not begun can be carried out alone if all others are quiet. -/
theorem Sound.exists_run?_of_perform (h : state.Sound session) (hquiet : state.IsQuietBut i)
    (hjob : state.jobs[i]? = some (.review review, .idle)) {result : Except ReviewError α}
    (hperform : session.perform review state.world = (result, world')) :
  ∃ order final, state.run? session order = some final ∧ final.Sound session
    ∧ final.world = world' ∧ final.jobs = withPhase state.jobs i (.done (result.map some))
  := h.exists_run?_of_reaches hquiet hjob (reaches_of_perform hperform)

/-! ### All of them -/

/-- Reviews that have come to their end, each with its result. -/
def finishedWith (ended : List (CachedReview μ α × α)) : List (Job μ α × JobPhase α) :=
  ended.map fun (review, result) => (.review review, .done (.ok (some result)))

/-- Reviews that have not begun. -/
def waiting (reviews : List (CachedReview μ α)) : List (Job μ α × JobPhase α) :=
  reviews.map fun review => (.review review, .idle)

theorem finishedWith_concat (ended : List (CachedReview μ α × α)) (review : CachedReview μ α)
    (result : α) :
  finishedWith (ended ++ [(review, result)])
    = finishedWith ended ++ [(.review review, .done (.ok (some result)))]
  := List.map_append

theorem withPhase_append (earlier : List (Job μ α × JobPhase α)) (job : Job μ α)
    (phase phase' : JobPhase α) (later : List (Job μ α × JobPhase α)) :
  withPhase (earlier ++ (job, phase) :: later) earlier.length phase'
    = earlier ++ (job, phase') :: later
  := by
  induction earlier with
  | nil => rfl
  | cons pair rest ih => exact congrArg (pair :: ·) ih

theorem isQuietBut_length {ended : List (CachedReview μ α × α)} {rest : List (CachedReview μ α)}
    (hjobs : state.jobs = finishedWith ended ++ waiting (review :: rest)) :
  state.IsQuietBut ended.length
  := by
  intro j pair hpair _
  have hmem := List.mem_of_getElem? hpair
  rw [hjobs] at hmem
  rcases List.mem_append.mp hmem with hmem | hmem
  · obtain ⟨_, -, rfl⟩ := List.mem_map.mp hmem
    rfl
  · obtain ⟨_, -, rfl⟩ := List.mem_map.mp hmem
    rfl

/-- The outcome is the error of the one review that failed. -/
theorem Sound.outcome?_eq_error (h : state.Sound session)
    {ended : List (CachedReview μ α × α)} {rest : List (CachedReview μ α)} {e : ReviewError}
    (hjobs : state.jobs = finishedWith ended ++ (.review review, .done (.error e)) :: waiting rest) :
  state.outcome? = some (.error e)
  := by
  obtain ⟨i, hlt, hjob⟩ : ∃ i, ∃ h : i < state.jobs.length,
      state.jobs[i] = (.review review, .done (.error e)) := by
    apply List.mem_iff_getElem.mp
    rw [hjobs]
    apply List.mem_append_right _ List.mem_cons_self
  obtain ⟨e', he'⟩ := h.exists_outcome?_eq_error (List.getElem?_eq_some_iff.mpr ⟨hlt, hjob⟩)
  obtain ⟨j, job, hfailed⟩ := exists_of_outcome?_eq_error he'
  have hmem := List.mem_of_getElem? hfailed
  rw [hjobs] at hmem
  rcases List.mem_append.mp hmem with hmem | hmem
  · obtain ⟨_, -, heq⟩ := List.mem_map.mp hmem
    cases heq
  · rcases List.mem_cons.mp hmem with heq | hmem
    · cases heq
      apply he'
    · obtain ⟨_, -, heq⟩ := List.mem_map.mp hmem
      cases heq

/-- The reviews that are left can be carried out one after the other. -/
theorem Sound.exists_run?_of_mapM {ended : List (CachedReview μ α × α)} {rest : List (CachedReview μ α)}
    (h : state.Sound session) (hjobs : state.jobs = finishedWith ended ++ waiting rest)
    {result : Except ReviewError (List α)}
    (hperform : rest.mapM session.perform state.world = (result, world')) :
  ∃ order last, state.run? session order = some last ∧ last.world = world'
    ∧ last.outcome? = some (result.map (ended.map Prod.snd ++ ·))
  := by
  induction rest generalizing ended state result world' with
  | nil =>
      rw [List.mapM_nil] at hperform
      obtain ⟨rfl, rfl⟩ := Prod.mk.inj hperform
      use [], state, rfl, rfl
      rw [waiting, List.map_nil, List.append_nil] at hjobs
      apply outcome?_eq_ok
      dsimp only
      rw [hjobs, finishedWith, List.append_nil, List.forall₂_map_left_iff, List.forall₂_map_right_iff,
        List.forall₂_same]
      intro pair _
      rfl
  | cons review rest ih =>
      rw [List.mapM_cons] at hperform
      have hlength : ended.length = (finishedWith ended).length := (List.length_map _).symm
      have hwaiting : waiting (review :: rest) = (.review review, .idle) :: waiting rest := rfl
      have hjob : state.jobs[ended.length]? = some (.review review, .idle) := by
        rw [hjobs, hlength, List.getElem?_append_right (Nat.le_refl _), Nat.sub_self]
        rfl
      rcases hfirst : session.perform review state.world with ⟨first, middle⟩
      obtain ⟨order, final, hrun, hsound, hworld, hfinal⟩ :=
        h.exists_run?_of_perform (isQuietBut_length hjobs) hjob hfirst
      rw [hjobs, hlength, hwaiting, withPhase_append] at hfinal
      cases first with
      | error e =>
          rw [ReviewAction.bind_of_error _ hfirst] at hperform
          obtain ⟨rfl, rfl⟩ := Prod.mk.inj hperform
          exact ⟨order, final, hrun, hworld, hsound.outcome?_eq_error hfinal⟩
      | ok value =>
          rw [ReviewAction.bind_of_ok _ hfirst] at hperform
          have hended : final.jobs = finishedWith (ended ++ [(review, value)]) ++ waiting rest := by
            rw [hfinal, finishedWith_concat, List.append_assoc]
            rfl
          rcases hothers : rest.mapM session.perform middle with ⟨others, later⟩
          obtain ⟨order', last, hrun', hworld', houtcome⟩ :=
            ih hsound hended (by rw [hworld]; exact hothers)
          use order ++ order', last
          cases others with
          | error e =>
              rw [ReviewAction.bind_of_error _ hothers] at hperform
              obtain ⟨rfl, rfl⟩ := Prod.mk.inj hperform
              use (by rw [run?_append, hrun]; exact hrun'), hworld', houtcome
          | ok values =>
              rw [ReviewAction.bind_of_ok _ hothers] at hperform
              obtain ⟨rfl, rfl⟩ := Prod.mk.inj hperform
              use (by rw [run?_append, hrun]; exact hrun'), hworld'
              rw [houtcome, List.map_append]
              simp [Except.map]

/-- Reviews that are carried out one after the other are one of the schedules. -/
theorem exists_run?_eq_mapM (session : Session μ) (world : World μ)
    (reviews : List (CachedReview μ α)) :
  ∃ order last, (ofJobs session world (reviews.map .review)).run? session order = some last
    ∧ last.world = (reviews.mapM session.perform world).2
    ∧ last.outcome? = some (reviews.mapM session.perform world).1
  := by
  have hsound := sound_ofJobs session world (reviews.map Job.review)
  have hjobs : (ofJobs session world (reviews.map Job.review)).jobs
      = finishedWith [] ++ waiting reviews := List.map_map
  rcases hperform : reviews.mapM session.perform world with ⟨result, world'⟩
  obtain ⟨order, last, hrun, hworld, houtcome⟩ := hsound.exists_run?_of_mapM hjobs hperform
  use order, last, hrun, hworld
  rw [houtcome]
  cases result <;> rfl

end Schedule

end Scrutiny
