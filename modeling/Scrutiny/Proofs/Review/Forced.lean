import Scrutiny.Proofs.Review.Repetition
import Scrutiny.Proofs.Schedule.Refilled
import Scrutiny.Proofs.Schedule.Tally

/-!
# Forced audits

A forced audit asks the model about each chunk once for each auditor, whatever the cache holds.  It
fills the cache anew: the next audit that is not forced does not ask the model.
-/

namespace Scrutiny.Session

variable {μ ν : Type} {session : Session μ} {again : Session ν} {path root : String} {force : Bool}
  {order : List Nat} {world later : World μ} {audit : FileAudit}

/-- Removing results counts nothing. -/
theorem tally_forget (session : Session μ) (force : Bool) (chunks : List Chunk) (world : World μ) :
  (session.forget force chunks world).2.tally = world.tally
  := by
  cases force with
  | false => rfl
  | true =>
      apply ReviewAction.holds_of_forM (P := (World.tally · = world.tally)) _ _ rfl
      intro id middle hmiddle
      rw [ReviewAction.bind_pure_eq]
      apply hmiddle

/-- The reviews of a file before any of them has begun, after what the cache has about it was removed
if so told; none if it does not come to this. -/
def begun? (session : Session μ) (path root : String) (force : Bool) (world : World μ) :
    Option (Schedule μ (List Issue)) :=
  match session.planFor path root world.files with
  | .error _ => none
  | .ok (_, outcome) =>
    match session.forget force outcome.chunks world with
    | (.error _, _) => none
    | (.ok (), left) =>
      some (.ofJobs session left
        ((session.auditReviews force Reviewer.auditors outcome.chunks).map .review))

/-- Each reply that is to be kept while a file is audited, forced or not, is kept, and can be read
back. -/
def KeepsAll (session : Session μ) (path root : String) (force : Bool) (order : List Nat)
    (world : World μ) : Prop :=
  ∀ state, session.begun? path root force world = some state → state.KeepsReplies session order

theorem areFaithful_auditReviews {refresh : Bool} {reviewers : List Reviewer} {chunks : List Chunk} :
  Schedule.AreFaithful (session.auditReviews refresh reviewers chunks)
  := by
  constructor
  · intro review hreview
    obtain ⟨chunk, -, reviewer, -, rfl⟩ := mem_auditReviews_iff.mp hreview
    apply isFaithful_issueReview
  · intro review hreview other hother _ kept
    obtain ⟨chunk, -, reviewer, -, rfl⟩ := mem_auditReviews_iff.mp hreview
    obtain ⟨chunk', -, reviewer', -, rfl⟩ := mem_auditReviews_iff.mp hother
    rw [isSome_readBack?_issueReview, isSome_readBack?_issueReview]

/-- An audit of some chunks counts one hit or one question for each chunk and auditor. -/
theorem tally_of_auditChunksBy?_eq_ok {refresh : Bool} {reviewers : List Reviewer}
    {chunks : List Chunk} {audits : List ChunkAudit}
    (h : session.auditChunksBy? refresh reviewers chunks order world = some (.ok audits, later)) :
  later.tally.calls + later.tally.hits
      = world.tally.calls + world.tally.hits + chunks.length * reviewers.length
    ∧ (refresh → later.tally.hits = world.tally.hits)
  := by
  obtain ⟨last, result, hrun, houtcome, hconclude⟩ :=
    (session.auditChunksBy?_eq_some_iff refresh reviewers).mp h
  cases result with
  | error e => cases congrArg Prod.fst hconclude
  | ok found =>
      rw [conclude_ok_eq _ _ _ last.world last.world] at hconclude
      obtain ⟨-, rfl⟩ := Prod.mk.inj hconclude
      obtain ⟨hsum, hhits⟩ := Schedule.tally_of_outcome?_eq_ok hrun houtcome
      rw [length_auditReviews] at hsum
      use hsum
      rintro rfl
      apply hhits
      intro review hreview
      obtain ⟨chunk, -, reviewer, -, rfl⟩ := mem_auditReviews_iff.mp hreview
      rfl

/-- An audit of a file counts one hit or one question for each chunk and auditor. -/
theorem tally_of_auditFileBy?_eq_ok
    (h : session.auditFileBy? path root force order world = some (.ok audit, later)) :
  later.tally.calls + later.tally.hits
      = world.tally.calls + world.tally.hits + audit.chunks.length * Reviewer.auditors.length
    ∧ (force → later.tally.hits = world.tally.hits)
  := by
  obtain ⟨outcome, -, -, hlength, hchunks⟩ := of_auditFileBy?_eq_ok h
  rw [hlength]
  rcases hchunks with ⟨hempty, rfl⟩ | ⟨-, left, hforget, hchunks⟩
  · rw [hempty]
    simp
  · have htally := session.tally_forget force outcome.chunks world
    rw [hforget] at htally
    rw [← htally]
    apply tally_of_auditChunksBy?_eq_ok hchunks

/-! ### The next audit -/

/-- An audit in which no review failed and that has kept its replies leaves a result for each chunk and
auditor. -/
theorem isKept_of_auditFileBy?_eq_ok (hroot : world.files.HasFolder session.cache.root)
    (hnow : session.clock.seconds < 2 ^ 64) (hkeeps : session.KeepsAll path root force order world)
    (haudited : session.auditFileBy? path root force order world = some (.ok audit, later))
    (hclean : ∀ chunk ∈ audit.chunks, ∀ issue ∈ chunk.issues, issue.isFailure = false)
    {outcome : ChunkOutcome} (hplan : session.planFor path root world.files = .ok (audit.file, outcome)) :
  ∀ chunk ∈ outcome.chunks, ∀ reviewer ∈ Reviewer.auditors,
    (session.issueReview force chunk reviewer).IsKept session.cache later.files
  := by
  intro chunk hchunk reviewer hreviewer
  obtain ⟨outcome', hplan', -, hlength, hchunks⟩ := of_auditFileBy?_eq_ok haudited
  obtain ⟨-, rfl⟩ := Prod.mk.inj (Except.ok.inj (hplan.symm.trans hplan'))
  rcases hchunks with ⟨hempty, -⟩ | ⟨-, left, hforget, hchunks⟩
  · rw [hempty] at hchunk
    cases hchunk
  · obtain ⟨last, result, hrun, houtcome, hconclude⟩ :=
      (session.auditChunksBy?_eq_some_iff force Reviewer.auditors).mp hchunks
    have hspares := session.spares_forget session.cache.isApart_empty force outcome.chunks world
      hroot.sound
    rw [hforget] at hspares
    have hstate := hkeeps _ (by rw [begun?, hplan]; dsimp only; rw [hforget])
    cases result with
    | error e => cases congrArg Prod.fst hconclude
    | ok found =>
        have hfilled := Schedule.forall₂_isKept_of_keepsReplies areFaithful_auditReviews
          (hroot.of_keeps hspares.toKeeps) hnow hstate hrun houtcome
        have hcount : found.length = outcome.chunks.length * Reviewer.auditors.length := by
          rw [← hfilled.length_eq, length_auditReviews]
        rw [conclude_ok_eq _ _ _ last.world last.world] at hconclude
        obtain ⟨haudits, rfl⟩ := Prod.mk.inj hconclude
        have hgood := isFailure_eq_false_of_conclude hcount hclean haudits
        obtain ⟨issues, hissues, hkept | ⟨reason, rfl⟩⟩ := exists_of_mem_left hfilled
          (mem_auditReviews_iff.mpr ⟨chunk, hchunk, reviewer, hreviewer, rfl⟩)
        · apply hkept
        · cases hgood _ hissues _ List.mem_cons_self

/-- What was kept for one session is found by another one like it. -/
theorem IsLike.exists_found?_eq (hlike : again.IsLike session) {tree next : FileTree}
    (hagrees : session.cache.Agrees tree next) {refresh : Bool} {chunk : Chunk} {reviewer : Reviewer}
    (h : (session.issueReview refresh chunk reviewer).IsKept session.cache tree) :
  ∃ issues, (again.issueReview false chunk reviewer).found? again.cache next = some issues
  := by
  have hread : (session.issueReview false chunk reviewer).found? session.cache tree
      = (session.cache.value? tree (session.issueReview refresh chunk reviewer).key.fingerprint).bind
        (session.issueReview refresh chunk reviewer).readBack? := by
    rw [CachedReview.found?_eq]
    rfl
  rw [hlike.found?_issueReview_eq hagrees, hread]
  exact Option.isSome_iff_exists.mp h

/-- Reviews that all find their results ask nobody. -/
theorem calls_of_auditChunksBy?_of_found {reviewers : List Reviewer} {chunks : List Chunk}
    {start : World ν}
    (hfound : ∀ chunk ∈ chunks, ∀ reviewer ∈ reviewers,
      ∃ issues, (again.issueReview false chunk reviewer).found? again.cache start.files = some issues)
    {audited : Except ReviewError (List ChunkAudit) × World ν}
    (h : again.auditChunksBy? false reviewers chunks order start = some audited) :
  audited.2.tally.calls = start.tally.calls
  := by
  obtain ⟨last, result, hrun, houtcome, rfl⟩ :=
    (again.auditChunksBy?_eq_some_iff false reviewers).mp h
  have hall : List.Forall₂ (fun review issues =>
      CachedReview.found? review again.cache start.files = some issues)
      (again.auditReviews false reviewers chunks)
      ((again.auditReviews false reviewers chunks).map fun review =>
        (review.found? again.cache start.files).getD []) := by
    rw [List.forall₂_map_right_iff, List.forall₂_same]
    intro review hreview
    obtain ⟨chunk, hchunk, reviewer, hreviewer, rfl⟩ := mem_auditReviews_iff.mp hreview
    obtain ⟨issues, hissues⟩ := hfound chunk hchunk reviewer hreviewer
    rw [hissues, Option.getD_some]
  obtain ⟨-, -, -, htally⟩ := Schedule.of_found? hall hrun houtcome
  rw [snd_conclude, htally]

/-- An audit that succeeds counts one hit or one question for each chunk and auditor, and questions only
if it is forced, whatever the cache holds and in any order.  If no review failed and all replies were
kept, the next audit of the same file that is not forced asks nothing, whatever its model and its
order. -/
theorem auditFileBy?_counts
    (haudited : session.auditFileBy? path root force order world = some (.ok audit, later)) :
  ∃ outcome, session.planFor path root world.files = .ok (audit.file, outcome)
    ∧ later.tally.calls + later.tally.hits
      = world.tally.calls + world.tally.hits + outcome.chunks.length * Reviewer.auditors.length
    ∧ (force → later.tally.calls
        = world.tally.calls + outcome.chunks.length * Reviewer.auditors.length
      ∧ later.tally.hits = world.tally.hits)
    ∧ (world.files.HasFolder session.cache.root → session.clock.seconds < 2 ^ 64 →
      session.KeepsAll path root force order world →
      (∀ chunk ∈ audit.chunks, ∀ issue ∈ chunk.issues, issue.isFailure = false) →
      (world.files.isFolder root → SameSource path root world.files later.files)
      ∧ ∀ {ν : Type} (again : Session ν) (start : World ν), again.IsLike session →
        SameSource path root world.files start.files →
        session.cache.Agrees later.files start.files →
        (∀ order' audited, again.auditFileBy? path root false order' start = some audited →
          audited.2.tally.calls = start.tally.calls)
        ∧ (again.auditFile path root false start).2.tally.calls = start.tally.calls)
  := by
  obtain ⟨outcome, hplan, -, hlength, -⟩ := of_auditFileBy?_eq_ok haudited
  obtain ⟨hsum, hhits⟩ := tally_of_auditFileBy?_eq_ok haudited
  rw [hlength] at hsum
  use outcome, hplan, hsum
  constructor
  · intro hforce
    have hhits := hhits hforce
    use by omega
  · intro hroot hnow hkeeps hclean
    use fun hfolder => session.sameSource_of_auditFileBy? hroot.sound hfolder haudited
    intro ν again start hlike hsource hagrees
    have hplan' : again.planFor path root start.files = .ok (audit.file, outcome) := by
      rw [hlike.planFor_eq hsource, hplan]
    have hkept := isKept_of_auditFileBy?_eq_ok hroot hnow hkeeps haudited hclean hplan
    have hall (order' : List Nat) (audited : Except ReviewError FileAudit × World ν)
        (h : again.auditFileBy? path root false order' start = some audited) :
        audited.2.tally.calls = start.tally.calls := by
      rw [again.auditFileBy?_of_planFor hplan'] at h
      dsimp only at h
      split at h
      · rw [← Option.some.inj h]
      · obtain ⟨⟨result, last⟩, hchunks, rfl⟩ := Option.map_eq_some_iff.mp h
        apply calls_of_auditChunksBy?_of_found _ hchunks
        intro chunk hchunk reviewer hreviewer
        apply hlike.exists_found?_eq hagrees (hkept chunk hchunk reviewer hreviewer)
    use hall
    obtain ⟨order', horder'⟩ := again.exists_auditFileBy?_eq path root false start
    apply hall _ _ horder'

/-- In an unused cache there is nothing to be removed. -/
theorem forget_of_isUnused {tree : FileTree} (h : Cache.IsUnused tree) (force : Bool)
    (chunks : List Chunk) :
  quietSession.forget force chunks (quietWorld tree) = (.ok (), quietWorld tree)
  := by
  cases force with
  | false => rfl
  | true =>
      rw [forget, if_pos rfl]
      induction parentIds chunks with
      | nil => rfl
      | cons id rest ih =>
          have hnothing : ReviewAction.onFiles ReviewAction.cacheFailure (quietSession.cache.invalidate id)
              (quietWorld tree) = (.ok 0, quietWorld tree) := by
            rw [ReviewAction.onFiles]
            dsimp only [quietWorld, quietSession]
            rw [h.invalidate_eq]
            rfl
          have hfirst : (do
              let _ ← ReviewAction.onFiles ReviewAction.cacheFailure (quietSession.cache.invalidate id) :
              ReviewAction Unit PUnit) (quietWorld tree) = (.ok (), quietWorld tree) := by
            rw [ReviewAction.bind_pure_eq, hnothing]
            rfl
          rw [List.forM_eq_forM, List.forM_cons, ReviewAction.bind_of_ok _ hfirst]
          apply ih

/-- A file with one line can be audited with force, with a new cache and a model that finds nothing, and
all replies are kept. -/
theorem exists_auditFileBy?_lineTree :
  ∃ tree order audit later chunk degraded, Cache.openAt "cache" lineTree = (.ok ⟨"cache"⟩, tree)
    ∧ tree.isFolder "."
    ∧ quietSession.planFor "a.py" "." tree = .ok (audit.file, { chunks := [chunk], degraded })
    ∧ quietSession.auditFileBy? "a.py" "." true order (quietWorld tree) = some (.ok audit, later)
    ∧ quietSession.KeepsAll "a.py" "." true order (quietWorld tree)
    ∧ ∀ chunk ∈ audit.chunks, ∀ issue ∈ chunk.issues, issue.isFailure = false
  := by
  obtain ⟨tree, chunk, degraded, hopen, hfolder, hplan, hkeys⟩ := exists_planFor_lineTree
  have hunused := isUnused_lineTree hopen
  have hplan' : quietSession.planFor "a.py" "." (quietWorld tree).files
      = .ok ("/a.py", { chunks := [chunk], degraded }) := hplan
  have hforget := forget_of_isUnused hunused true [chunk]
  obtain ⟨order, audits, later, hchunks, hkept, hclean, -⟩ :=
    exists_auditChunksBy?_quiet hunused hkeys true
  refine ⟨tree, order,
    { file := "/a.py", chunks := audits, degraded := degraded.map ChunkError.message }, later, chunk,
    degraded, hopen, hfolder, hplan, ?_, ?_, hclean⟩
  · rw [auditFileBy?, hplan']
    dsimp only
    rw [List.isEmpty_cons, if_neg Bool.false_ne_true, hforget]
    dsimp only
    rw [hchunks]
    rfl
  · intro state hstate
    rw [begun?, hplan'] at hstate
    dsimp only at hstate
    rw [hforget] at hstate
    obtain rfl := Option.some.inj hstate
    apply hkept

/-- A file with one line is audited with force, with a new cache and a model that finds nothing. -/
theorem auditFileBy?_counts_lineTree :
  ∃ tree order audit later, Cache.openAt "cache" lineTree = (.ok ⟨"cache"⟩, tree)
    ∧ quietSession.auditFileBy? "a.py" "." true order (quietWorld tree) = some (.ok audit, later)
    ∧ quietSession.KeepsAll "a.py" "." true order (quietWorld tree)
    ∧ (∀ chunk ∈ audit.chunks, ∀ issue ∈ chunk.issues, issue.isFailure = false)
    ∧ later.tally.calls = 2 ∧ later.tally.hits = 0
    ∧ (quietSession.auditFile "a.py" "." false later).2.tally.calls = 2
  := by
  obtain ⟨tree, order, audit, later, chunk, degraded, hopen, hfolder, hplan, haudited, hkeeps, hclean⟩ :=
    exists_auditFileBy?_lineTree
  refine ⟨tree, order, audit, later, hopen, haudited, hkeeps, hclean, ?_⟩
  obtain ⟨outcome, hplan', -, hforced, hnext⟩ := auditFileBy?_counts haudited
  obtain ⟨-, rfl⟩ := Prod.mk.inj (Except.ok.inj (hplan.symm.trans hplan'))
  obtain ⟨hcalls, hhits⟩ := hforced rfl
  obtain ⟨hsame, hagain⟩ := hnext (isUnused_lineTree hopen).hasFolder (by decide) hkeeps hclean
  obtain ⟨-, hnone⟩ := hagain quietSession later ⟨rfl, rfl, rfl, rfl⟩ (hsame hfolder) (fun _ _ => rfl)
  use hcalls, hhits
  rw [hnone, hcalls]
  rfl

end Scrutiny.Session
