import Scrutiny.Proofs.Review.Lines
import Scrutiny.Proofs.Schedule.Contents
import Scrutiny.Review.Runs

/-!
# Reviews that fail

What comes of reviews that are told nothing of use, in a schedule and in an audit.
-/

/-!
## Reviews without a usable reply

A review that asks the model and is told nothing of use ends with a result that says so.  None of its
steps changes a file.
-/

namespace Scrutiny

variable {μ α : Type} {session : Session μ}

/-- Why an answer is of no use; nothing if it is of use, or if it ends the run. -/
def Judgement.failureOf? : Except InferenceError (Judgement α) → Option String
  | .ok (.usable _ _) => none
  | .ok (.useless reason) => some reason
  | .error e => if e.isFatal then none else some e.message

/-- Whether a review has asked the model, or has its result without that. -/
def JobPhase.isBeyondAsking : JobPhase α → Bool
  | .keeping _ _ | .atIndex _ | .indexing _ | .done _ => true
  | _ => false

theorem Move.isBeyondAsking {world world' : World μ} {job : Job μ α} {phase phase' : JobPhase α}
    (h : phase.isBeyondAsking) (hmove : Move session world job phase world' phase') :
  phase'.isBeyondAsking
  := by
  cases hmove <;> first | rfl | cases h

/-- Until a review has an answer, it changes no file. -/
theorem Move.files_eq {world world' : World μ} {review : CachedReview μ α} {phase phase' : JobPhase α}
    (h : phase.isBeyondAsking = false)
    (hmove : Move session world (.review review) phase world' phase') :
  world'.files = world.files
  := by
  cases hmove with
  | usable hask | fatal hask => apply World.files_of_ask hask
  | useless hask | failure hask =>
      rw [World.countFailure]
      apply World.files_of_ask hask
  | kept | notKept | takeIndex | listed => cases h
  | _ => rfl

/-- A review that is told nothing of use has come to its end. -/
theorem Move.of_failureOf? {world world' : World μ} {review : CachedReview μ α} {phase' : JobPhase α}
    {reason : String} (h : Judgement.failureOf? (review.ask world.model).result = some reason)
    (hmove : Move session world (.review review) .asking world' phase') :
  phase' = .done (.ok (some (review.failed reason)))
  := by
  cases hmove with
  | usable hask =>
      have hanswer : (review.ask world.model).result = _ := congrArg Prod.fst hask
      rw [hanswer] at h
      cases h
  | useless hask =>
      have hanswer : (review.ask world.model).result = _ := congrArg Prod.fst hask
      rw [hanswer] at h
      rw [Option.some.inj h]
  | failure hask hfatal =>
      have hanswer : (review.ask world.model).result = _ := congrArg Prod.fst hask
      rw [hanswer, Judgement.failureOf?, hfatal] at h
      rw [← Option.some.inj h]
  | fatal hask hfatal =>
      have hanswer : (review.ask world.model).result = _ := congrArg Prod.fst hask
      rw [hanswer, Judgement.failureOf?, hfatal] at h
      cases h

namespace Schedule

variable {start state last : Schedule μ α} {i : Nat} {order : List Nat} {job : Job μ α}
  {phase : JobPhase α}

/-- What the moves of a job keep of its phase, a run keeps. -/
theorem exists_phase_of_run? {Q : JobPhase α → Prop}
    (hmove : ∀ {world world' phase phase'}, Q phase → Move session world job phase world' phase' →
      Q phase')
    (hjob : state.jobs[i]? = some (job, phase)) (h : Q phase)
    (hrun : state.run? session order = some last) :
  ∃ phase', last.jobs[i]? = some (job, phase') ∧ Q phase'
  := by
  apply of_run? (P := fun state => ∃ phase, state.jobs[i]? = some (job, phase) ∧ Q phase) _
    ⟨phase, hjob, h⟩ hrun
  rintro j - state next ⟨phase, hjob, h⟩ hstep
  obtain ⟨other, phase', hother, world, later, hmoved, -, rfl⟩ := step?_eq_some_iff.mp hstep
  by_cases heq : i = j
  · subst heq
    obtain ⟨rfl, rfl⟩ := Prod.mk.inj (Option.some.inj (hjob.symm.trans hother))
    use later
    constructor
    · change (withPhase state.jobs i later)[i]? = _
      rw [getElem?_withPhase hjob, if_pos rfl]
    · apply hmove h hmoved
  · use phase
    constructor
    · change (withPhase state.jobs j later)[i]? = _
      rw [getElem?_withPhase hother, if_neg heq, hjob]
    · apply h

/-- In the course of some steps a job asks the model, in a world. -/
def AsksIn (session : Session μ) (start : Schedule μ α) (order : List Nat) (i : Nat)
    (world : World μ) : Prop :=
  ∃ before rest state job, order = before ++ i :: rest ∧ start.run? session before = some state
    ∧ state.jobs[i]? = some (job, .asking) ∧ state.world = world

/-- No step of a job changes a file. -/
def WritesNothing (session : Session μ) (start : Schedule μ α) (order : List Nat) (i : Nat) : Prop :=
  ∀ before rest state next, order = before ++ i :: rest → start.run? session before = some state →
    state.step? session i = some next → next.world.files = state.world.files

/-- As long as a review has no answer, its steps change no file. -/
theorem files_eq_of_asking {review : CachedReview μ α} {phase' : JobPhase α}
    (hjob : state.jobs[i]? = some (.review review, phase)) {next : Schedule μ α}
    (hstep : state.step? session i = some next) (hrun : state.run? session order = some last)
    (hasking : last.jobs[i]? = some (.review review, phase')) (hphase : phase'.isBeyondAsking = false) :
  next.world.files = state.world.files
  := by
  obtain ⟨world, later, hmove, rfl⟩ := exists_move_of_step? hjob hstep
  apply hmove.files_eq
  by_contra hbeyond
  rw [Bool.not_eq_false] at hbeyond
  obtain ⟨_, hasked, hbeyond'⟩ := exists_phase_of_run? (Q := (JobPhase.isBeyondAsking · = true))
    Move.isBeyondAsking hjob hbeyond hrun
  obtain ⟨-, rfl⟩ := Prod.mk.inj (Option.some.inj (hasking.symm.trans hasked))
  rw [hphase] at hbeyond'
  cases hbeyond'

/-- A job that has come to its end stays there. -/
theorem getElem?_of_done {result : Except ReviewError (Option α)}
    (hjob : state.jobs[i]? = some (job, .done result)) (hrun : state.run? session order = some last) :
  last.jobs[i]? = some (job, .done result)
  := by
  obtain ⟨_, hlast, rfl⟩ := exists_phase_of_run? (Q := (· = .done result)) (by
    rintro _ _ _ _ rfl hmove
    cases hmove) hjob rfl hrun
  apply hlast

/-- A review that is told nothing of use says so in its result, and has written nothing. -/
theorem of_asksIn {review : CachedReview μ α} (hjob : start.jobs[i]? = some (.review review, phase))
    (hrun : start.run? session order = some last) {world : World μ}
    (hasks : start.AsksIn session order i world) {reason : String}
    (hfailed : Judgement.failureOf? (review.ask world.model).result = some reason) :
  last.jobs[i]? = some (.review review, .done (.ok (some (review.failed reason))))
    ∧ start.WritesNothing session order i
  := by
  obtain ⟨before, rest, state, job, rfl, hbefore, hasking, rfl⟩ := hasks
  have hreview {steps : List Nat} {middle : Schedule μ α} (h : start.run? session steps = some middle) :
      ∃ phase', middle.jobs[i]? = some (.review review, phase') := by
    obtain ⟨phase', hphase, -⟩ := exists_phase_of_run? (Q := fun _ => True) (fun _ _ => trivial) hjob
      trivial h
    exact ⟨phase', hphase⟩
  obtain ⟨_, hsame⟩ := hreview hbefore
  obtain ⟨rfl, -⟩ := Prod.mk.inj (Option.some.inj (hsame.symm.trans hasking))
  rw [run?_append, hbefore, Option.bind_some, run?] at hrun
  obtain ⟨next, hstep, hrest⟩ := Option.bind_eq_some_iff.mp hrun
  obtain ⟨world, phase', hmove, hnext⟩ := exists_move_of_step? hasking hstep
  obtain rfl := hmove.of_failureOf? hfailed
  have hdone : next.jobs[i]? = some (.review review, .done (.ok (some (review.failed reason)))) := by
    rw [← hnext]
    change (withPhase state.jobs i _)[i]? = _
    rw [getElem?_withPhase hasking, if_pos rfl]
  use getElem?_of_done hdone hrest
  -- The step is one before the answer, the answer itself, or one after it.
  intro before' rest' earlier later heq hearlier hlater
  obtain ⟨_, hphase⟩ := hreview hearlier
  rcases List.append_eq_append_iff.mp heq with ⟨steps, rfl, hsteps⟩ | ⟨steps, rfl, hsteps⟩
  · cases steps with
    | nil =>
        rw [List.append_nil, hbefore] at hearlier
        obtain rfl := Option.some.inj hearlier
        have hnothing : state.run? session [] = some state := rfl
        apply files_eq_of_asking hphase hlater hnothing hasking rfl
    | cons first steps =>
        obtain ⟨rfl, rfl⟩ := List.cons.inj hsteps
        rw [run?_append, hbefore, Option.bind_some, run?] at hearlier
        obtain ⟨_, hagain, hmiddle⟩ := Option.bind_eq_some_iff.mp hearlier
        obtain rfl := Option.some.inj (hstep.symm.trans hagain)
        rw [step?, getElem?_of_done hdone hmiddle] at hlater
        cases hlater
  · rw [run?_append, hearlier] at hbefore
    apply files_eq_of_asking hphase hlater hbefore hasking rfl

end Schedule

end Scrutiny

/-!
## Reviewers that are told nothing of use

An auditor that asks about a chunk and is told nothing of use contributes one issue to the audit of the
chunk, which says so, and writes nothing.  In the same way an explanation that cannot be had is a
failure, and nothing is written.
-/

namespace Scrutiny

/-- All reviews that have come to their end have results, if no error ends the run. -/
theorem Schedule.forall₂_jobs_of_reviews {μ α : Type} {session : Session μ} {world : World μ}
    {reviews : List (CachedReview μ α)} {order : List Nat} {last : Schedule μ α}
    (hrun : (ofJobs session world (reviews.map .review)).run? session order = some last)
    {found : List α} (houtcome : last.outcome? = some (.ok found)) :
  List.Forall₂ (fun pair value => pair.2 = JobPhase.done (.ok (some value))) last.jobs found
  := by
  apply forall₂_jobs_of_outcome?_eq_ok (sound_of_run? (sound_ofJobs session world _) hrun) _ houtcome
  intro i job result hjob
  have hjobs := map_fst_of_run? hrun
  have hfst : ((ofJobs session world (reviews.map Job.review)).jobs[i]?).map Prod.fst = some job := by
    rw [← List.getElem?_map, ← hjobs, List.getElem?_map, hjob]
    rfl
  obtain ⟨⟨_, phase⟩, hstart, rfl⟩ := Option.map_eq_some_iff.mp hfst
  obtain rfl := phase_eq_idle_of_ofJobs hstart
  obtain ⟨review, -, rfl⟩ := exists_review_of_getElem? (map_fst_ofJobs session world _) hstart
  have hany : review.GivesOnly (fun _ => True) (fun _ => True) :=
    ⟨fun _ _ _ _ => trivial, fun _ _ _ _ => ⟨trivial, trivial⟩, fun _ => trivial⟩
  obtain ⟨_, hphase, hcarries⟩ := exists_phase_of_run? (Q := JobPhase.Carries fun _ => True)
    (hany.carries_of_move fun _ _ => trivial) hstart trivial hrun
  obtain ⟨-, rfl⟩ := Prod.mk.inj (Option.some.inj (hjob.symm.trans hphase))
  obtain ⟨value, rfl, -⟩ := hcarries
  rfl

namespace Session

variable {μ : Type} {session : Session μ} {refresh : Bool} {reviewers : List Reviewer}
  {chunks : List Chunk} {order : List Nat} {world later : World μ}

/-- Why what an auditor is told is of no use: an error that does not end the run, or a reply without a
list of issues. -/
def failureOf? : Except InferenceError Json → Option String
  | .ok reply =>
    if ((reply.field? "issues").bind Json.array?).isSome then none else some Issue.missingList
  | .error e => if e.isFatal then none else some e.message

theorem failureOf?_ask_issueReview (session : Session μ) (refresh : Bool) (chunk : Chunk)
    (reviewer : Reviewer) (state : μ) :
  Judgement.failureOf? ((session.issueReview refresh chunk reviewer).ask state).result
    = failureOf? (Inference.object session.config session.model reviewer.prompt
      (session.bounded chunk.text) state).result
  := by
  change Judgement.failureOf? (Except.map _ _) = _
  cases (Inference.object session.config session.model reviewer.prompt (session.bounded chunk.text)
    state).result with
  | error e => rfl
  | ok reply =>
      change Judgement.failureOf? (.ok (judgeIssues reviewer.issueType reply)) = _
      rw [judgeIssues, Issue.ofReply?, failureOf?]
      cases (reply.field? "issues").bind Json.array? <;> rfl

/-! ### Where each review stands -/

/-- The reviews of an audit before any of them has begun. -/
abbrev auditSchedule (session : Session μ) (refresh : Bool) (reviewers : List Reviewer)
    (chunks : List Chunk) (world : World μ) : Schedule μ (List Issue) :=
  .ofJobs session world ((session.auditReviews refresh reviewers chunks).map .review)

theorem getElem?_auditReviews (session : Session μ) (refresh : Bool) {k r : Nat} {chunk : Chunk}
    {reviewer : Reviewer} (hchunk : chunks[k]? = some chunk) (hreviewer : reviewers[r]? = some reviewer) :
  (session.auditReviews refresh reviewers chunks)[k * reviewers.length + r]?
    = some (session.issueReview refresh chunk reviewer)
  := by
  have hlt := (List.getElem?_eq_some_iff.mp hreviewer).1
  induction chunks generalizing k with
  | nil => cases hchunk
  | cons first rest ih =>
      rw [auditReviews, List.flatMap_cons]
      cases k with
      | zero =>
          obtain rfl := Option.some.inj hchunk
          rw [Nat.zero_mul, Nat.zero_add, List.getElem?_append_left (by rwa [List.length_map]),
            List.getElem?_map, hreviewer]
          rfl
      | succ k =>
          have hindex : (k + 1) * reviewers.length + r
              = (reviewers.map (session.issueReview refresh first)).length
                + (k * reviewers.length + r) := by
            rw [List.length_map, Nat.succ_mul]
            omega
          rw [hindex, List.getElem?_append_right (Nat.le_add_right _ _), Nat.add_sub_cancel_left]
          apply ih hchunk

theorem getElem?_auditSchedule {k r : Nat} {chunk : Chunk} {reviewer : Reviewer}
    (hchunk : chunks[k]? = some chunk) (hreviewer : reviewers[r]? = some reviewer) :
  (session.auditSchedule refresh reviewers chunks world).jobs[k * reviewers.length + r]?
    = some (.review (session.issueReview refresh chunk reviewer), .idle)
  := by
  rw [auditSchedule, Schedule.ofJobs, List.getElem?_map, List.getElem?_map,
    session.getElem?_auditReviews refresh hchunk hreviewer]
  rfl

theorem take_flatten_eq (count : Nat) (found : List (List Issue)) :
  (found.take count).flatten = (List.range count).flatMap fun r => (found[r]?).getD []
  := by
  induction count generalizing found with
  | zero => rfl
  | succ count ih =>
      rw [List.range_succ_eq_map, List.flatMap_cons, List.flatMap_map]
      cases found with
      | nil => simp
      | cons first rest => rw [List.take_succ_cons, List.flatten_cons, ih]; rfl

theorem getElem?_regroup (count : Nat) (chunks : List Chunk) (found : List (List Issue)) (k : Nat) :
  (regroup count chunks found)[k]?
    = (chunks[k]?).map fun chunk =>
        (chunk, (List.range count).flatMap fun r => (found[k * count + r]?).getD [])
  := by
  induction chunks generalizing k found with
  | nil => rfl
  | cons chunk rest ih =>
      rw [regroup]
      cases k with
      | zero =>
          rw [take_flatten_eq]
          simp
      | succ k =>
          rw [List.getElem?_cons_succ, List.getElem?_cons_succ, ih]
          simp only [List.getElem?_drop, Nat.succ_mul, Nat.add_comm, Nat.add_left_comm]

/-! ### What each auditor contributes -/

/-- The audit of each chunk is made of what each auditor contributes to it, in their order. -/
def AreMadeOf (count : Nat) (chunks : List Chunk) (part : Nat → Nat → List Issue)
    (audits : List ChunkAudit) : Prop :=
  audits.length = chunks.length ∧ ∀ k chunk, chunks[k]? = some chunk →
    ∃ audit, audits[k]? = some audit ∧ auditOf? chunk ((List.range count).flatMap (part k)) = some audit

theorem areMadeOf_of_conclude {count : Nat} {found : List (List Issue)} {audits : List ChunkAudit}
    (h : (conclude count chunks (.ok found) world).1 = .ok audits) :
  AreMadeOf count chunks (fun k r => (found[k * count + r]?).getD []) audits
  := by
  use length_of_conclude h
  intro k chunk hchunk
  rw [conclude_eq] at h
  cases haudits : (regroup count chunks found).mapM fun pair => auditOf? pair.1 pair.2 with
  | none =>
      rw [haudits] at h
      cases h
  | some audits' =>
      rw [haudits] at h
      obtain rfl := Except.ok.inj h
      have hpair := getElem?_regroup count chunks found k
      rw [hchunk] at hpair
      apply exists_getElem?_of_forall₂ (mapM_eq_some_iff.mp haudits) hpair

/-- While chunks are audited by some steps, the auditor with number `r` asks the model about the chunk
with number `k`, and is told nothing of use. -/
def FailsOn (session : Session μ) (refresh : Bool) (reviewers : List Reviewer) (chunks : List Chunk)
    (order : List Nat) (world : World μ) (k r : Nat) (reason : String) : Prop :=
  ∃ chunk reviewer asked, chunks[k]? = some chunk ∧ reviewers[r]? = some reviewer
    ∧ (session.auditSchedule refresh reviewers chunks world).AsksIn session order
      (k * reviewers.length + r) asked
    ∧ failureOf? (Inference.object session.config session.model reviewer.prompt
      (session.bounded chunk.text) asked.model).result = some reason

/-- An audit in which all lines can be counted is made of what each auditor contributes; one that is
told nothing of use contributes one issue, which says so. -/
theorem exists_areMadeOf_of_auditChunksBy? {audits : List ChunkAudit}
    (h : session.auditChunksBy? refresh reviewers chunks order world = some (.ok audits, later)) :
  ∃ part, AreMadeOf reviewers.length chunks part audits
    ∧ ∀ k r reviewer reason, reviewers[r]? = some reviewer →
      session.FailsOn refresh reviewers chunks order world k r reason →
      part k r = [Issue.ofFailure reviewer.id reason]
  := by
  obtain ⟨last, outcome, hrun, houtcome, hconclude⟩ :=
    (session.auditChunksBy?_eq_some_iff refresh reviewers).mp h
  cases outcome with
  | error e => cases congrArg Prod.fst hconclude
  | ok found =>
      have hjobs := Schedule.forall₂_jobs_of_reviews hrun houtcome
      refine ⟨_, areMadeOf_of_conclude (congrArg Prod.fst hconclude), ?_⟩
      rintro k r reviewer reason hreviewer ⟨chunk, other, asked, hchunk, hother, hasks, hfailed⟩
      obtain rfl := Option.some.inj (hother.symm.trans hreviewer)
      rw [← failureOf?_ask_issueReview] at hfailed
      obtain ⟨hdone, -⟩ := Schedule.of_asksIn (getElem?_auditSchedule hchunk hreviewer) hrun hasks hfailed
      obtain ⟨issues, hissues, hphase⟩ := exists_getElem?_of_forall₂ hjobs hdone
      rw [hissues, Option.getD_some]
      cases hphase
      rfl

/-- An auditor that is told nothing of use writes nothing, whatever comes of the audit. -/
theorem writesNothing_of_failsOn {result : Except ReviewError (List ChunkAudit)}
    (h : session.auditChunksBy? refresh reviewers chunks order world = some (result, later))
    {k r : Nat} {reason : String}
    (hfails : session.FailsOn refresh reviewers chunks order world k r reason) :
  (session.auditSchedule refresh reviewers chunks world).WritesNothing session order
    (k * reviewers.length + r)
  := by
  obtain ⟨last, outcome, hrun, -, -⟩ := (session.auditChunksBy?_eq_some_iff refresh reviewers).mp h
  obtain ⟨chunk, reviewer, asked, hchunk, hreviewer, hasks, hfailed⟩ := hfails
  rw [← failureOf?_ask_issueReview] at hfailed
  exact (Schedule.of_asksIn (getElem?_auditSchedule hchunk hreviewer) hrun hasks hfailed).2

/-! ### Explanations that cannot be had -/

/-- The requests for explanations before any of them has begun. -/
abbrev explainSchedule (session : Session μ) (refresh : Bool) (chunks : List Chunk) (world : World μ) :
    Schedule μ RationaleOutcome :=
  .ofJobs session world ((chunks.map (session.rationaleReview refresh)).map .review)

/-- While chunks are explained by some steps, the model is asked about the chunk with number `k`, and
the answer is an error that does not end the run. -/
def FailsToExplain (session : Session μ) (refresh : Bool) (chunks : List Chunk) (order : List Nat)
    (world : World μ) (k : Nat) (reason : String) : Prop :=
  ∃ chunk asked e, chunks[k]? = some chunk
    ∧ (session.explainSchedule refresh chunks world).AsksIn session order k asked
    ∧ (Inference.text session.config session.model Reviewer.whyExtractor.prompt
      (session.bounded chunk.text) asked.model).result = .error e
    ∧ e.isFatal = false ∧ e.message = reason

/-- An explanation that cannot be had is a failure, and nothing is written. -/
theorem of_failsToExplain {result : Except ReviewError (List RationaleOutcome)}
    (h : session.explainChunksBy? refresh chunks order world = some (result, later)) {k : Nat}
    {reason : String} (hfails : session.FailsToExplain refresh chunks order world k reason) :
  (session.explainSchedule refresh chunks world).WritesNothing session order k
    ∧ ∀ outcomes, result = .ok outcomes → outcomes[k]? = some (.failed reason)
  := by
  obtain ⟨chunk, asked, e, hchunk, hasks, hanswer, hfatal, rfl⟩ := hfails
  obtain ⟨last, hrun, h⟩ := Option.bind_eq_some_iff.mp h
  obtain ⟨outcome, houtcome, heq⟩ := Option.bind_eq_some_iff.mp h
  obtain ⟨rfl, rfl⟩ := Prod.mk.inj (Option.some.inj heq)
  have hjob : (session.explainSchedule refresh chunks world).jobs[k]?
      = some (.review (session.rationaleReview refresh chunk), .idle) := by
    rw [explainSchedule, Schedule.ofJobs, List.getElem?_map, List.getElem?_map, List.getElem?_map,
      hchunk]
    rfl
  have hfailed : Judgement.failureOf? ((session.rationaleReview refresh chunk).ask asked.model).result
      = some e.message := by
    change Judgement.failureOf? (Except.map _ _) = _
    rw [hanswer]
    apply if_neg
    rw [hfatal]
    exact Bool.false_ne_true
  obtain ⟨hdone, hwrites⟩ := Schedule.of_asksIn hjob hrun hasks hfailed
  use hwrites
  rintro outcomes rfl
  obtain ⟨found, hfound, hphase⟩ :=
    exists_getElem?_of_forall₂ (Schedule.forall₂_jobs_of_reviews hrun houtcome) hdone
  rw [hfound]
  cases hphase
  rfl

end Session

end Scrutiny
