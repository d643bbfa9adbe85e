import Scrutiny.Proofs.Review.Concurrent
import Scrutiny.Proofs.Review.Regular

/-!
# The lines of issues

The line of an issue is the sum of where its chunk starts and of what the reply says, and it has to
fit into 64 bits.  What is read from a reply, or from the cache, is carried to the end of a review as
it is, so as long as no reply tells a line so large that the sum does not fit, an audit ends with
results or because the model cannot be asked.  Nothing keeps replies from telling such a line.
-/

namespace Scrutiny

variable {μ α : Type} {session : Session μ}

/-! ### Results that have a property -/

/-- The results of a review have the property `P` if the values it reads have the property `Q`. -/
structure CachedReview.GivesOnly (Q : Json → Prop) (P : α → Prop) (review : CachedReview μ α) :
    Prop where
  /-- Results that are read back have the property. -/
  of_readBack : ∀ value result, Q value → review.readBack? value = some result → P result
  /-- Results of the model have the property, and so has what is kept of them. -/
  of_usable : ∀ model result kept, (review.ask model).result = .ok (.usable result kept) →
    P result ∧ Q kept.reread
  /-- Results of failed reviews have the property. -/
  of_failed : ∀ reason, P (review.failed reason)

/-- The result that a phase carries has a property; an error is one of a model that cannot be
asked. -/
def JobPhase.Carries (P : α → Prop) : JobPhase α → Prop
  | .idle | .atWriter | .searching | .atPermit | .asking => True
  | .keeping result _ => P result
  | .atIndex result | .indexing result | .done (.ok result) => ∃ value, result = some value ∧ P value
  | .done (.error e) => ∃ cause : InferenceError, cause.isFatal = true ∧ e = .inference cause

/-- Each move of a review carries its result on. -/
theorem CachedReview.GivesOnly.carries_of_move {Q : Json → Prop} {P : α → Prop}
    {review : CachedReview μ α} (h : review.GivesOnly Q P) {world world' : World μ}
    {phase phase' : JobPhase α}
    (hvalue : ∀ value, session.cache.value? world.files review.key.fingerprint = some value → Q value)
    (hcarries : phase.Carries P) (hmove : Move session world (.review review) phase world' phase') :
  phase'.Carries P
  := by
  cases hmove with
  | ask | take | miss | permit => trivial
  | hit hfound =>
      rw [found?_eq] at hfound
      split at hfound
      · cases hfound
      · obtain ⟨value, hstored, hread⟩ := Option.bind_eq_some_iff.mp hfound
        exact ⟨_, rfl, h.of_readBack value _ (hvalue value hstored) hread⟩
  | usable hask => exact (h.of_usable world.model _ _ (congrArg Prod.fst hask)).1
  | useless | failure => exact ⟨_, rfl, h.of_failed _⟩
  | fatal hask hfatal => exact ⟨_, hfatal, rfl⟩
  | kept | notKept => exact ⟨_, rfl, hcarries⟩
  | takeIndex | listed => exact hcarries

namespace Schedule

variable {Q : Json → Prop} {P : α → Prop} {reviews : List (CachedReview μ α)}
  {state next : Schedule μ α} {i : Nat}

/-- All values under the fingerprints of the reviews have the property `Q`, and all results so far
have the property `P`. -/
structure CarriesOnly (session : Session μ) (reviews : List (CachedReview μ α)) (Q : Json → Prop)
    (P : α → Prop) (state : Schedule μ α) : Prop where
  jobs_eq : state.jobs.map Prod.fst = reviews.map Job.review
  of_value : ∀ review ∈ reviews, ∀ value,
    session.cache.value? state.world.files review.key.fingerprint = some value → Q value
  carries : ∀ (i : Nat) (review : CachedReview μ α) (phase : JobPhase α),
    state.jobs[i]? = some (.review review, phase) → phase.Carries P

theorem carriesOnly_ofJobs {world : World μ}
    (hvalue : ∀ review ∈ reviews, ∀ value,
      session.cache.value? world.files review.key.fingerprint = some value → Q value) :
  (ofJobs session world (reviews.map .review)).CarriesOnly session reviews Q P
  := by
  constructor
  · apply map_fst_ofJobs
  · apply hvalue
  · intro i review phase hjob
    obtain rfl := phase_eq_idle_of_ofJobs hjob
    trivial

theorem carriesOnly_of_step? (h : state.CarriesOnly session reviews Q P)
    (hgives : ∀ review ∈ reviews, review.GivesOnly Q P) (hstocked : state.IsStocked session)
    (hnow : session.clock.seconds < 2 ^ 64) (hstep : state.step? session i = some next) :
  next.CarriesOnly session reviews Q P
  := by
  have hjobs := map_fst_of_step? hstep
  obtain ⟨job, phase, hjob, world, phase', hmove, -, rfl⟩ := step?_eq_some_iff.mp hstep
  obtain ⟨review, hreview, rfl⟩ := exists_review_of_getElem? h.jobs_eq hjob
  have heffect := hstocked.effect hnow hjob hmove
  -- Under the fingerprint of the review there is what was there, or what it has just written.
  have hself : ∀ value, session.cache.value? world.files review.key.fingerprint = some value →
      Q value := by
    intro value hvalue
    rw [heffect.value?_self, valueAfter.eq_def] at hvalue
    split at hvalue
    · rename_i result kept _
      obtain ⟨model, hmodel⟩ := hstocked.usable i review result kept hjob
      rw [Cache.storedValue?] at hvalue
      split at hvalue
      · rw [← Option.some.inj hvalue]
        apply ((hgives review hreview).of_usable model result kept hmodel).2
      · cases hvalue
    · apply h.of_value review hreview value hvalue
  constructor
  · rw [hjobs, h.jobs_eq]
  · intro other hother value hvalue
    by_cases hkey : other.key.fingerprint = review.key.fingerprint
    · rw [hkey] at hvalue
      apply hself value hvalue
    · have hjob' : Job.review other ∈ state.jobs.map Prod.fst := by
        rw [h.jobs_eq]
        apply List.mem_map_of_mem hother
      obtain ⟨⟨_, phase⟩, hmem, rfl⟩ := List.mem_map.mp hjob'
      obtain ⟨j, hj⟩ := List.getElem?_of_mem hmem
      have hvalid := (hstocked.isRegular j other phase hj).isValid
      apply h.of_value other hother value
      rw [← heffect.value?_ne _ hvalid hkey]
      apply hvalue
  · intro j other later hlater
    rcases of_getElem?_withPhase hjob hlater with ⟨-, heq, rfl⟩ | ⟨-, hlater⟩
    · apply (hgives review hreview).carries_of_move (h.of_value review hreview)
        (h.carries i review phase hjob) hmove
    · apply h.carries j other later hlater

/-- The outcome of reviews whose results have a property: results that have it, or the error of a
model that cannot be asked. -/
theorem outcome?_of_givesOnly {world : World μ} {order : List Nat} {last : Schedule μ α}
    (hroot : world.files.HasFolder session.cache.root) (hnow : session.clock.seconds < 2 ^ 64)
    (hregular : ∀ review ∈ reviews, review.IsRegular)
    (hgives : ∀ review ∈ reviews, review.GivesOnly Q P)
    (hvalue : ∀ review ∈ reviews, ∀ value,
      session.cache.value? world.files review.key.fingerprint = some value → Q value)
    (hrun : (ofJobs session world (reviews.map .review)).run? session order = some last)
    {outcome : Except ReviewError (List α)} (h : last.outcome? = some outcome) :
  (∃ found, outcome = .ok found ∧ ∀ result ∈ found, P result)
    ∨ ∃ cause : InferenceError, cause.isFatal = true ∧ outcome = .error (.inference cause)
  := by
  obtain ⟨hcarries, -⟩ : last.CarriesOnly session reviews Q P ∧ last.IsStocked session := by
    apply of_run? _ _ hrun
    · intro i _ state next ⟨hstate, hstocked⟩ hstep
      use carriesOnly_of_step? hstate hgives hstocked hnow hstep
      apply isStocked_of_step? hstocked hnow hstep
    · use carriesOnly_ofJobs hvalue
      apply isStocked_ofReviews hroot hregular
  cases outcome with
  | ok found =>
      left
      use found, rfl
      have hall := forall₂_of_outcome?_eq_ok (P := fun _ result => P result)
        (sound_of_run? (sound_ofJobs session world _) hrun) hcarries.jobs_eq
        (fun i review result hdone => hcarries.carries i review _ hdone) h
      intro result hresult
      obtain ⟨review, -, hP⟩ := exists_of_mem_right hall hresult
      apply hP
  | error e =>
      right
      obtain ⟨i, job, hjob⟩ := exists_of_outcome?_eq_error h
      obtain ⟨review, -, rfl⟩ := exists_review_of_getElem? hcarries.jobs_eq hjob
      obtain ⟨cause, hfatal, rfl⟩ := hcarries.carries i review _ hjob
      use cause, hfatal

end Schedule

/-! ### Lines -/

/-- An issue has no line in the file exactly if the line does not fit into 64 bits. -/
theorem Issue.resolved?_eq_none_iff {issue : Issue} {startLine : Nat} :
  issue.resolved? startLine = none ↔ Nat.pow 2 64 ≤ startLine + issue.lineOffset + 1
  := by
  rw [resolved?, Option.map_eq_none_iff, lineFrom?]
  split
  · rename_i hfits
    constructor
    · rintro ⟨⟩
    · intro hlarge
      cases Nat.not_lt.mpr hlarge hfits
  · rename_i hlarge
    constructor
    · intro _
      apply Nat.not_lt.mp hlarge
    · intro _
      rfl

namespace Session

variable {refresh : Bool} {reviewers : List Reviewer} {chunks : List Chunk} {world : World μ}

/-- The last line that can be added to that of any chunk which starts on one of the first 2²⁰ + 1
lines. -/
def lastOffset : Nat := Nat.pow 2 64 - Nat.pow 2 20 - 2

/-- The issues of a reply, of whatever type, are on lines that can be added. -/
def TellsLines (reply : Json) : Prop :=
  ∀ type issues, Issue.ofReply? reply type = some issues →
    ∀ issue ∈ issues, issue.lineOffset ≤ lastOffset

theorem givesOnly_issueReview {chunk : Chunk} {reviewer : Reviewer}
    (hmodel : ∀ state issues kept,
      ((session.issueReview refresh chunk reviewer).ask state).result = .ok (.usable issues kept) →
      TellsLines kept) :
  (session.issueReview refresh chunk reviewer).GivesOnly TellsLines
    fun issues => ∀ issue ∈ issues, issue.lineOffset ≤ lastOffset
  := by
  constructor
  · intro value issues hvalue hread
    apply hvalue reviewer.issueType issues hread
  · intro state issues kept husable
    have hkept := hmodel state issues kept husable
    obtain ⟨hissues, reply, hreply⟩ := of_ask_issueReview husable
    obtain ⟨-, hfits, -⟩ := Reply.of_objectIn?_eq_some hreply
    use hkept reviewer.issueType issues hissues
    intro type others hothers
    rw [Issue.ofReply?_reread hfits] at hothers
    apply hkept type others hothers
  · intro reason issue hissue
    rw [List.mem_singleton.mp hissue]
    apply Nat.zero_le

/-- What is put together for a chunk are issues that were found. -/
theorem of_mem_regroup {count : Nat} {found : List (List Issue)} {pair : Chunk × List Issue}
    (h : pair ∈ regroup count chunks found) :
  pair.1 ∈ chunks ∧ ∀ issue ∈ pair.2, ∃ issues ∈ found, issue ∈ issues
  := by
  induction chunks generalizing found with
  | nil => cases h
  | cons chunk rest ih =>
      rw [regroup] at h
      rcases List.mem_cons.mp h with rfl | h
      · use List.mem_cons_self
        intro issue hissue
        obtain ⟨issues, hissues, hmem⟩ := List.mem_flatten.mp hissue
        use issues, List.mem_of_mem_take hissues
      · obtain ⟨hchunk, hall⟩ := ih h
        use List.mem_cons_of_mem _ hchunk
        intro issue hissue
        obtain ⟨issues, hissues, hmem⟩ := hall issue hissue
        use issues, List.mem_of_mem_drop hissues

/-- Issues on lines that can be added give an audit of each chunk. -/
theorem conclude_of_lines {count : Nat} {found : List (List Issue)}
    (hstart : ∀ chunk ∈ chunks, chunk.startLine ≤ Nat.pow 2 20)
    (hfound : ∀ issues ∈ found, ∀ issue ∈ issues, issue.lineOffset ≤ lastOffset) (last : World μ) :
  ∃ audits, conclude count chunks (.ok found) last = (.ok audits, last)
    ∧ audits.length = chunks.length
  := by
  have heq := conclude_eq count chunks found last
  cases haudits : (regroup count chunks found).mapM fun pair => auditOf? pair.1 pair.2 with
  | some audits =>
      rw [haudits] at heq
      use audits, heq
      apply length_of_conclude (congrArg Prod.fst heq)
  | none =>
      exfalso
      obtain ⟨pair, hpair, hnone⟩ := exists_of_mapM_eq_none haudits
      obtain ⟨issue, hissue, hline⟩ := exists_of_mapM_eq_none (Option.map_eq_none_iff.mp hnone)
      obtain ⟨hchunk, hall⟩ := of_mem_regroup hpair
      obtain ⟨issues, hissues, hmem⟩ := hall issue hissue
      have hoffset := hfound issues hissues issue hmem
      have hle := hstart pair.1 hchunk
      have hlarge := Issue.resolved?_eq_none_iff.mp hline
      have hlast : lastOffset + Nat.pow 2 20 + 2 = Nat.pow 2 64 := by decide
      omega

/-- An audit by any steps of chunks near the start of a file ends with an audit of each chunk, or
because the model cannot be asked, if neither the model nor the cache tells a line that is too large
to be added. -/
theorem auditChunksBy?_of_tellsLines (hroot : world.files.HasFolder session.cache.root)
    (hnow : session.clock.seconds < 2 ^ 64)
    (hstart : ∀ chunk ∈ chunks, chunk.startLine ≤ Nat.pow 2 20)
    (hmodel : ∀ chunk ∈ chunks, ∀ reviewer ∈ reviewers, ∀ state issues kept,
      ((session.issueReview refresh chunk reviewer).ask state).result = .ok (.usable issues kept) →
      TellsLines kept)
    (hcache : ∀ chunk ∈ chunks, ∀ reviewer ∈ reviewers, ∀ value,
      session.cache.value? world.files (session.keyOf chunk reviewer.id).fingerprint = some value →
      TellsLines value)
    {order : List Nat} {audited : Except ReviewError (List ChunkAudit) × World μ}
    (h : session.auditChunksBy? refresh reviewers chunks order world = some audited) :
  (∃ audits, audited.1 = .ok audits ∧ audits.length = chunks.length)
    ∨ ∃ cause : InferenceError, cause.isFatal = true ∧ audited.1 = .error (.inference cause)
  := by
  obtain ⟨last, outcome, hrun, houtcome, rfl⟩ :=
    (session.auditChunksBy?_eq_some_iff refresh reviewers).mp h
  have hgives : ∀ review ∈ session.auditReviews refresh reviewers chunks,
      review.GivesOnly TellsLines fun issues => ∀ issue ∈ issues, issue.lineOffset ≤ lastOffset := by
    intro review hreview
    obtain ⟨chunk, hchunk, reviewer, hreviewer, rfl⟩ := mem_auditReviews_iff.mp hreview
    apply givesOnly_issueReview (hmodel chunk hchunk reviewer hreviewer)
  have hregular : ∀ review ∈ session.auditReviews refresh reviewers chunks, review.IsRegular := by
    intro review hreview
    obtain ⟨chunk, hchunk, reviewer, hreviewer, rfl⟩ := mem_auditReviews_iff.mp hreview
    apply isRegular_issueReview
  have hvalue : ∀ review ∈ session.auditReviews refresh reviewers chunks, ∀ value,
      session.cache.value? world.files review.key.fingerprint = some value → TellsLines value := by
    intro review hreview
    obtain ⟨chunk, hchunk, reviewer, hreviewer, rfl⟩ := mem_auditReviews_iff.mp hreview
    apply hcache chunk hchunk reviewer hreviewer
  rcases Schedule.outcome?_of_givesOnly hroot hnow hregular hgives hvalue hrun houtcome with
    ⟨found, rfl, hfound⟩ | ⟨cause, hfatal, rfl⟩
  · left
    obtain ⟨audits, haudits, hlength⟩ := conclude_of_lines hstart hfound last.world
    use audits, congrArg Prod.fst haudits
  · right
    use cause, hfatal
    rfl

/-- A chunk is shown to two auditors that find nothing, with a new cache. -/
theorem auditChunksBy?_of_tellsLines_quiet :
  ∃ tree order last, Cache.openAt "cache" .empty = (.ok ⟨"cache"⟩, tree)
    ∧ quietSession.auditChunksBy? false Reviewer.auditors [quietChunk] order (quietWorld tree)
      = some last
    ∧ ((∃ audits, last.1 = .ok audits ∧ audits.length = 1)
      ∨ ∃ cause : InferenceError, cause.isFatal = true ∧ last.1 = .error (.inference cause))
  := by
  obtain ⟨tree, hopen, hnew⟩ := Cache.exists_isNew
  obtain ⟨reply, -, hreply⟩ := exists_ask_quietSession
  have hissues (type : String) : Issue.ofReply? reply type = some [] := by
    have husable := hreply false quietChunk { Reviewer.security with issueType := type }
    apply (of_ask_issueReview husable).1
  obtain ⟨order, horder⟩ := quietSession.exists_auditChunksBy?_eq false Reviewer.auditors [quietChunk]
    (quietWorld tree)
  refine ⟨tree, order, _, hopen, horder, ?_⟩
  apply auditChunksBy?_of_tellsLines hnew.hasFolder (by decide) _ _ _ horder
  · intro chunk hchunk
    rw [List.mem_singleton.mp hchunk]
    apply Nat.zero_le
  · intro chunk _ reviewer _ state issues kept husable
    obtain ⟨rfl, rfl⟩ := Judgement.usable.inj (Except.ok.inj
      ((hreply false chunk reviewer).symm.trans husable))
    intro type others hothers
    rw [hissues] at hothers
    obtain rfl := Option.some.inj hothers
    simp
  · intro chunk _ reviewer _ value hvalue
    have hnone := hnew.lookup_eq_none (isRegular_issueReview quietSession false chunk reviewer).isValid
    rw [Cache.value?] at hvalue
    obtain ⟨entry, hentry, -⟩ := Option.map_eq_some_iff.mp hvalue
    cases hnone.symm.trans hentry

/-- A reply with an issue on the last line that can be told. -/
def lastLineReply : Json :=
  .object [("issues", .array [.object [("description", .string "x"),
    ("line_number_offset", .number (.int 18446744073709551615))]])]

/-- The issue is accepted, and has no line in the file. -/
theorem not_resolved_lastLineReply :
  ∃ issue, Issue.ofReply? lastLineReply "security" = some [issue] ∧ issue.resolved? 0 = none
  := by
  refine ⟨{ type := "security", severity := .low, description := "x", suggestion := none,
            lineOffset := 18446744073709551615, absoluteLine := none }, ?_, ?_⟩
  · decide
  · apply Issue.resolved?_eq_none_iff.mpr
    decide

end Session

end Scrutiny
