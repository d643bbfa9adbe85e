import Scrutiny.Proofs.Review.Concurrent

/-!
# Audits in any order

If the replies of the model depend on the request alone, an audit of some chunks gives the same by
whatever steps it is done: what it gives if one review is carried out after the other.
-/

namespace Scrutiny

variable {μ : Type}

theorem result_judged_eq {α β : Type} {asked asked' : Asked α μ} (judge : α → Judgement β)
    (h : asked.result = asked'.result) :
  (asked.judged judge).result = (asked'.judged judge).result
  := by
  rw [Asked.judged, Asked.judged, h]

/-- An audit of a chunk is steady if the replies of the model depend on the request alone. -/
theorem isSteady_issueReview {session : Session μ} (hmodel : Model.IsStateless session.model)
    (refresh : Bool) (chunk : Chunk) (reviewer : Reviewer) :
  (session.issueReview refresh chunk reviewer).IsSteady
  := by
  use isFaithful_issueReview session refresh chunk reviewer
  intro state state'
  apply result_judged_eq
  apply Inference.result_attempt_eq hmodel

namespace Session

variable {session : Session μ} {refresh : Bool} {reviewers : List Reviewer} {chunks : List Chunk}
  {world : World μ}

/-- Fingerprints tell texts and auditors apart. -/
def TellsApart (session : Session μ) (reviewers : List Reviewer) (chunks : List Chunk) : Prop :=
  ∀ chunk ∈ chunks, ∀ chunk' ∈ chunks, ∀ reviewer ∈ reviewers, ∀ reviewer' ∈ reviewers,
    (session.keyOf chunk reviewer.id).fingerprint = (session.keyOf chunk' reviewer'.id).fingerprint →
    chunk.text = chunk'.text ∧ reviewer = reviewer'

/-- The reviews of a single chunk are told apart if its fingerprints tell the auditors apart. -/
theorem tellsApart_singleton {chunk : Chunk}
    (h : ∀ first ∈ reviewers, ∀ second ∈ reviewers,
      (session.keyOf chunk first.id).fingerprint = (session.keyOf chunk second.id).fingerprint →
      first = second) :
  session.TellsApart reviewers [chunk]
  := by
  intro first hfirst second hsecond reviewer hreviewer reviewer' hreviewer' hkey
  rw [List.mem_singleton.mp hfirst, List.mem_singleton.mp hsecond] at hkey ⊢
  use rfl
  apply h reviewer hreviewer reviewer' hreviewer' hkey

/-- Reviews of one text by one auditor ask the same. -/
theorem ask_issueReview_eq (session : Session μ) (refresh : Bool) {chunk chunk' : Chunk}
    (reviewer : Reviewer) (h : chunk.text = chunk'.text) :
  (session.issueReview refresh chunk reviewer).ask = (session.issueReview refresh chunk' reviewer).ask
  := by
  rw [issueReview, issueReview, h]

theorem areSteady_auditReviews (hroot : world.files.HasFolder session.cache.root)
    (hnow : session.clock.seconds < 2 ^ 64) (hmodel : Model.IsStateless session.model)
    (htells : session.TellsApart reviewers chunks) :
  Schedule.AreSteady session world (session.auditReviews refresh reviewers chunks)
  := by
  constructor
  · intro review hreview
    obtain ⟨chunk, -, reviewer, -, rfl⟩ := mem_auditReviews_iff.mp hreview
    apply isSteady_issueReview hmodel
  · intro review hreview other hother hkey
    obtain ⟨chunk, hchunk, reviewer, hreviewer, rfl⟩ := mem_auditReviews_iff.mp hreview
    obtain ⟨chunk', hchunk', reviewer', hreviewer', rfl⟩ := mem_auditReviews_iff.mp hother
    obtain ⟨htext, rfl⟩ := htells chunk hchunk chunk' hchunk' reviewer hreviewer reviewer' hreviewer' hkey
    apply CachedReview.valueAlone_eq (isRegular_issueReview session refresh chunk reviewer)
      (isRegular_issueReview session refresh chunk' reviewer) hroot hnow hkey rfl rfl
    apply ask_issueReview_eq session refresh reviewer htext

/-- No auditor fails on any chunk if it is alone with it. -/
def IsAnswered (session : Session μ) (refresh : Bool) (reviewers : List Reviewer) (chunks : List Chunk)
    (world : World μ) : Prop :=
  ∀ chunk ∈ chunks, ∀ reviewer ∈ reviewers, ∃ issues,
    (session.reviewChunk refresh chunk reviewer world).1 = .ok issues

theorem isAnswered_iff :
  session.IsAnswered refresh reviewers chunks world
    ↔ ∀ review ∈ session.auditReviews refresh reviewers chunks, ∃ issues,
      review.resultAlone session world = .ok issues
  := by
  constructor
  · intro h review hreview
    obtain ⟨chunk, hchunk, reviewer, hreviewer, rfl⟩ := mem_auditReviews_iff.mp hreview
    apply h chunk hchunk reviewer hreviewer
  · intro h chunk hchunk reviewer hreviewer
    apply h
    apply mem_auditReviews_iff.mpr
    use chunk, hchunk, reviewer

/-- The audit of a chunk that is made of what each auditor gives if it is alone with the chunk, in the
order of the auditors. -/
def IsAuditOf (session : Session μ) (refresh : Bool) (reviewers : List Reviewer) (world : World μ)
    (chunk : Chunk) (audit : ChunkAudit) : Prop :=
  ∃ lists, List.Forall₂ (fun reviewer issues =>
      (session.reviewChunk refresh chunk reviewer world).1 = .ok issues) reviewers lists
    ∧ auditOf? chunk lists.flatten = some audit

/-- Some auditor, alone with some chunk, gives an issue whose line cannot be counted. -/
def Overflows (session : Session μ) (refresh : Bool) (reviewers : List Reviewer) (chunks : List Chunk)
    (world : World μ) : Prop :=
  ∃ chunk ∈ chunks, ∃ reviewer ∈ reviewers, ∃ issues,
    (session.reviewChunk refresh chunk reviewer world).1 = .ok issues
      ∧ ∃ issue ∈ issues, issue.resolved? chunk.startLine = none

/-- What becomes of the results of all reviews. -/
theorem of_conclude {found : List (List Issue)}
    (h : List.Forall₂ (fun review issues => CachedReview.resultAlone review session world = .ok issues)
      (session.auditReviews refresh reviewers chunks) found) (last : World μ) :
  (∃ audits, conclude reviewers.length chunks (.ok found) last = (.ok audits, last)
      ∧ List.Forall₂ (session.IsAuditOf refresh reviewers world) chunks audits)
    ∨ conclude reviewers.length chunks (.ok found) last = (.error .lineOverflow, last)
      ∧ session.Overflows refresh reviewers chunks world
  := by
  have hgroups := session.forall₂_regroup refresh reviewers h
  rw [conclude_eq]
  cases haudits : (regroup reviewers.length chunks found).mapM fun pair => auditOf? pair.1 pair.2 with
  | some audits =>
      left
      use audits, rfl
      apply (forall₂_trans hgroups (mapM_eq_some_iff.mp haudits)).imp
      rintro chunk audit ⟨⟨_, _⟩, ⟨rfl, lists, hlists, rfl⟩, haudit⟩
      use lists, hlists, haudit
  | none =>
      right
      use rfl
      obtain ⟨⟨_, _⟩, hpair, hnone⟩ := exists_of_mapM_eq_none haudits
      obtain ⟨chunk, hchunk, rfl, lists, hlists, rfl⟩ := exists_of_mem_right hgroups hpair
      obtain ⟨issue, hissue, hline⟩ := exists_of_mapM_eq_none (Option.map_eq_none_iff.mp hnone)
      obtain ⟨issues, hissues, hmem⟩ := List.mem_flatten.mp hissue
      obtain ⟨reviewer, hreviewer, halone⟩ := exists_of_mem_right hlists hissues
      use chunk, hchunk, reviewer, hreviewer, issues, halone, issue

section

variable (hroot : world.files.HasFolder session.cache.root) (hnow : session.clock.seconds < 2 ^ 64)
  (hmodel : Model.IsStateless session.model) (htells : session.TellsApart reviewers chunks)

include hroot hnow hmodel htells

/-- If no auditor fails, an audit by any steps gives what it gives one review after the other. -/
theorem eq_auditChunks_of_isAnswered (h : session.IsAnswered refresh reviewers chunks world)
    {order : List Nat} {audited : Except ReviewError (List ChunkAudit) × World μ}
    (haudited : session.auditChunksBy? refresh reviewers chunks order world = some audited) :
  audited.1 = (session.auditChunks refresh reviewers chunks world).1
    ∧ session.cache.Agrees audited.2.files
      (session.auditChunks refresh reviewers chunks world).2.files
  := by
  have hsteady : Schedule.AreSteady session world (session.auditReviews refresh reviewers chunks) :=
    areSteady_auditReviews hroot hnow hmodel htells
  obtain ⟨last, outcome, hrun, houtcome, rfl⟩ :=
    (session.auditChunksBy?_eq_some_iff refresh reviewers).mp haudited
  obtain ⟨order', last', hrun', hworld', houtcome'⟩ :=
    Schedule.exists_run?_eq_mapM session world (session.auditReviews refresh reviewers chunks)
  rcases Schedule.outcome?_eq_of_areSteady hsteady hroot hnow hrun hrun' houtcome houtcome' with
    ⟨found, rfl, hfound, hagrees⟩ | ⟨cause, cause', rfl, -⟩
  · rw [auditChunks_eq, hfound, ← hworld', conclude_ok_eq _ _ _ last.world last'.world,
      conclude_ok_eq _ _ _ last'.world last'.world]
    exact ⟨rfl, hagrees⟩
  · rcases Schedule.of_outcome?_of_areSteady hsteady hroot hnow hrun houtcome with
      ⟨found, heq, -⟩ | ⟨e, -, review, hreview, he⟩
    · cases heq
    · obtain ⟨issues, hissues⟩ := isAnswered_iff.mp h review hreview
      rw [he] at hissues
      cases hissues

/-- If some auditor fails, an audit by any steps fails as the model cannot be asked. -/
theorem exists_cause_of_not_isAnswered (h : ¬ session.IsAnswered refresh reviewers chunks world)
    {order : List Nat} {audited : Except ReviewError (List ChunkAudit) × World μ}
    (haudited : session.auditChunksBy? refresh reviewers chunks order world = some audited) :
  ∃ cause : InferenceError, audited.1 = .error (.inference cause) ∧ cause.isFatal
  := by
  have hsteady : Schedule.AreSteady session world (session.auditReviews refresh reviewers chunks) :=
    areSteady_auditReviews hroot hnow hmodel htells
  obtain ⟨last, outcome, hrun, houtcome, rfl⟩ :=
    (session.auditChunksBy?_eq_some_iff refresh reviewers).mp haudited
  rcases Schedule.of_outcome?_of_areSteady hsteady hroot hnow hrun houtcome with
    ⟨found, rfl, hfound, -⟩ | ⟨e, rfl, review, hreview, he⟩
  · cases h (isAnswered_iff.mpr fun review hreview => by
      obtain ⟨issues, -, hissues⟩ := exists_of_mem_left hfound hreview
      use issues)
  · obtain ⟨cause, rfl, hfatal⟩ := CachedReview.exists_of_resultAlone_eq_error he
    exact ⟨cause, rfl, hfatal⟩

/-- If no auditor fails, an audit gives for each chunk what each auditor gives alone, unless the line
of some issue cannot be counted. -/
theorem of_auditChunks_of_isAnswered (h : session.IsAnswered refresh reviewers chunks world) :
  (∃ audits, (session.auditChunks refresh reviewers chunks world).1 = .ok audits
      ∧ List.Forall₂ (session.IsAuditOf refresh reviewers world) chunks audits)
    ∨ (session.auditChunks refresh reviewers chunks world).1 = .error .lineOverflow
      ∧ session.Overflows refresh reviewers chunks world
  := by
  have hsteady : Schedule.AreSteady session world (session.auditReviews refresh reviewers chunks) :=
    areSteady_auditReviews hroot hnow hmodel htells
  obtain ⟨order, last, hrun, hworld, houtcome⟩ :=
    Schedule.exists_run?_eq_mapM session world (session.auditReviews refresh reviewers chunks)
  rcases Schedule.of_outcome?_of_areSteady hsteady hroot hnow hrun houtcome with
    ⟨found, heq, hfound, -⟩ | ⟨e, -, review, hreview, he⟩
  · rw [auditChunks_eq, heq]
    rcases of_conclude hfound _ with ⟨audits, haudits, hall⟩ | ⟨hfailed, hoverflows⟩
    · left
      exact ⟨audits, congrArg Prod.fst haudits, hall⟩
    · right
      exact ⟨congrArg Prod.fst hfailed, hoverflows⟩
  · obtain ⟨issues, hissues⟩ := isAnswered_iff.mp h review hreview
    rw [he] at hissues
    cases hissues

/-- The line of an issue that cannot be counted leaves no audit. -/
theorem auditChunks_of_overflows (h : session.IsAnswered refresh reviewers chunks world)
    (hover : session.Overflows refresh reviewers chunks world) :
  (session.auditChunks refresh reviewers chunks world).1 = .error .lineOverflow
  := by
  rcases of_auditChunks_of_isAnswered hroot hnow hmodel htells h with
    ⟨audits, -, hall⟩ | ⟨hoverflow, -⟩
  · -- The issue would have a line in the audit of its chunk.
    exfalso
    obtain ⟨chunk, hchunk, reviewer, hreviewer, issues, hissues, issue, hissue, hline⟩ := hover
    obtain ⟨audit, -, lists, hlists, haudit⟩ := exists_of_mem_left hall hchunk
    obtain ⟨others, hothers, halone⟩ := exists_of_mem_left hlists hreviewer
    obtain rfl := Except.ok.inj (hissues.symm.trans halone)
    obtain ⟨resolved, hresolved, -⟩ := Option.map_eq_some_iff.mp haudit
    obtain ⟨counted, -, hcounted⟩ := exists_of_mem_left (mapM_eq_some_iff.mp hresolved)
      (List.mem_flatten.mpr ⟨issues, hothers, hissue⟩)
    cases hline.symm.trans hcounted
  · exact hoverflow

/-- By whatever steps an audit is done: if no auditor fails, it gives the same results and leaves the
same values in the cache as if one review is carried out after the other, namely for each chunk what
each auditor gives alone, unless the line of some issue cannot be counted; and if some auditor fails,
it fails as the model cannot be asked.  One review after the other is one of the ways, and every audit
that was begun can be brought to its end. -/
theorem auditChunksBy?_isDeterminate :
  (session.IsAnswered refresh reviewers chunks world →
      (∀ order audited, session.auditChunksBy? refresh reviewers chunks order world = some audited →
        audited.1 = (session.auditChunks refresh reviewers chunks world).1
          ∧ session.cache.Agrees audited.2.files
            (session.auditChunks refresh reviewers chunks world).2.files)
      ∧ ((∃ audits, (session.auditChunks refresh reviewers chunks world).1 = .ok audits
          ∧ List.Forall₂ (session.IsAuditOf refresh reviewers world) chunks audits)
        ∨ (session.auditChunks refresh reviewers chunks world).1 = .error .lineOverflow
          ∧ session.Overflows refresh reviewers chunks world))
    ∧ (¬ session.IsAnswered refresh reviewers chunks world →
      ∀ order audited, session.auditChunksBy? refresh reviewers chunks order world = some audited →
        ∃ cause : InferenceError, audited.1 = .error (.inference cause) ∧ cause.isFatal)
    ∧ (∃ order, session.auditChunksBy? refresh reviewers chunks order world
      = some (session.auditChunks refresh reviewers chunks world))
    ∧ ∀ order state, (Schedule.ofJobs session world
        ((session.auditReviews refresh reviewers chunks).map .review)).run? session order = some state →
      ∃ later, (session.auditChunksBy? refresh reviewers chunks (order ++ later) world).isSome
  := by
  constructor
  · intro h
    use fun order audited => eq_auditChunks_of_isAnswered hroot hnow hmodel htells h
    apply of_auditChunks_of_isAnswered hroot hnow hmodel htells h
  use fun h order audited => exists_cause_of_not_isAnswered hroot hnow hmodel htells h
  use session.exists_auditChunksBy?_eq refresh reviewers chunks world
  intro order state
  apply session.exists_isSome_auditChunksBy? refresh reviewers

end

theorem found?_replyingSession {tree : FileTree} (hnew : Cache.IsUnused tree) (text : String)
    (refresh : Bool) (chunk : Chunk) (reviewer : Reviewer) :
  ((replyingSession text).issueReview refresh chunk reviewer).found? (replyingSession text).cache tree
    = none
  := by
  rw [CachedReview.found?]
  split
  · rfl
  · exact congrArg (Option.bind · _)
      (hnew.lookup_eq_none (isRegular_issueReview (replyingSession text) refresh chunk reviewer).isValid)

/-- An auditor alone with a chunk finds what the reply says. -/
theorem resultAlone_replyingSession {tree : FileTree} (hnew : Cache.IsUnused tree) {text : String}
    {reply : Json} {reviewer : Reviewer} {issues : List Issue}
    (hreply : Reply.objectIn? text.toList = some reply)
    (hissues : Issue.ofReply? reply reviewer.issueType = some issues) (refresh : Bool) (chunk : Chunk) :
  ((replyingSession text).issueReview refresh chunk reviewer).resultAlone (replyingSession text)
    (quietWorld tree) = .ok issues
  := by
  have hregular := isRegular_issueReview (replyingSession text) refresh chunk reviewer
  have hnow : (replyingSession text).clock.seconds < 2 ^ 64 := by
    change 0 < 2 ^ 64
    decide
  have hnone : ((replyingSession text).issueReview refresh chunk reviewer).found?
      (replyingSession text).cache (quietWorld tree).files = none :=
    found?_replyingSession hnew text refresh chunk reviewer
  obtain ⟨halone, -⟩ := CachedReview.alone_of_usable hnone hregular hnew.hasFolder hnow
    (ask_replyingSession hreply hissues refresh chunk)
  exact halone

theorem resultAlone_quietSession {tree : FileTree} (hnew : Cache.IsUnused tree) (refresh : Bool)
    (chunk : Chunk) (reviewer : Reviewer) :
  (quietSession.issueReview refresh chunk reviewer).resultAlone quietSession (quietWorld tree) = .ok []
  := by
  obtain ⟨reply, hreply, hissues, -⟩ := exists_objectIn?_quiet
  apply resultAlone_replyingSession hnew hreply (hissues reviewer.issueType) refresh chunk

theorem isAnswered_quietSession {tree : FileTree} (hnew : Cache.IsUnused tree) (refresh : Bool)
    (reviewers : List Reviewer) (chunks : List Chunk) :
  quietSession.IsAnswered refresh reviewers chunks (quietWorld tree)
  := by
  intro chunk _ reviewer _
  use []
  apply resultAlone_quietSession hnew

/-- An auditor that finds nothing has no issue whose line cannot be counted. -/
theorem not_overflows_quietSession {tree : FileTree} (hnew : Cache.IsUnused tree) :
  ¬ quietSession.Overflows refresh reviewers chunks (quietWorld tree)
  := by
  rintro ⟨chunk, -, reviewer, -, issues, hissues, issue, hissue, -⟩
  have hnone := resultAlone_quietSession hnew refresh chunk reviewer
  obtain rfl := Except.ok.inj (hnone.symm.trans hissues)
  cases hissue

/-- Two chunks with the same text are audited at the same time, with a new cache. -/
theorem auditChunksBy?_isDeterminate_quiet :
  ∃ tree order audits last, Cache.openAt "cache" .empty = (.ok ⟨"cache"⟩, tree)
    ∧ quietSession.auditChunksBy? false [.security] [quietChunk, quietChunk] order
        (quietWorld tree) = some (.ok audits, last)
    ∧ List.Forall₂ (quietSession.IsAuditOf false [.security] (quietWorld tree))
        [quietChunk, quietChunk] audits
  := by
  obtain ⟨tree, hopen, hnew⟩ := Cache.exists_isNew
  have hsame {chunk : Chunk} (h : chunk ∈ [quietChunk, quietChunk]) : chunk = quietChunk := by
    simpa using h
  have htells : quietSession.TellsApart [.security] [quietChunk, quietChunk] := by
    intro chunk hchunk chunk' hchunk' reviewer hreviewer reviewer' hreviewer' _
    rw [hsame hchunk, hsame hchunk', List.mem_singleton.mp hreviewer, List.mem_singleton.mp hreviewer']
    exact ⟨rfl, rfl⟩
  obtain ⟨hanswered, -, ⟨order, horder⟩, -⟩ :=
    @auditChunksBy?_isDeterminate _ quietSession false [.security] [quietChunk, quietChunk]
      (quietWorld tree) hnew.hasFolder (by decide) (fun _ _ _ => rfl) htells
  obtain ⟨-, ⟨audits, haudits, hall⟩ | ⟨-, hoverflows⟩⟩ :=
    hanswered (isAnswered_quietSession hnew.toIsUnused _ _ _)
  · use tree, order, audits, (quietSession.auditChunks false [.security] [quietChunk, quietChunk]
      (quietWorld tree)).2, hopen
    use (by rw [horder, ← haudits]; rfl), hall
  · cases not_overflows_quietSession hnew.toIsUnused hoverflows

/-- A session whose model always finds an issue on the last line that can be told. -/
def lastLineSession : Session Unit :=
  replyingSession
    "\x7b\"issues\": [\x7b\"description\": \"x\", \"line_number_offset\": 18446744073709551615\x7d]\x7d"

theorem exists_resultAlone_lastLineSession {tree : FileTree} (hnew : Cache.IsUnused tree) :
  ∃ issue : Issue, issue.resolved? 0 = none
    ∧ (lastLineSession.issueReview false quietChunk .security).resultAlone lastLineSession
      (quietWorld tree) = .ok [issue]
  := by
  have hreply : (Reply.objectIn?
      "\x7b\"issues\": [\x7b\"description\": \"x\", \"line_number_offset\": 18446744073709551615\x7d]\x7d".toList).map
      (Issue.ofReply? · "security") = some (some [{
        type := "security", severity := .low, description := "x", suggestion := none,
        lineOffset := 18446744073709551615, absoluteLine := none }]) := by
    decide +kernel
  obtain ⟨reply, hobject, hissues⟩ := Option.map_eq_some_iff.mp hreply
  refine ⟨_, ?_, resultAlone_replyingSession hnew hobject hissues false quietChunk⟩
  decide

/-- No auditor fails on a chunk, and yet there is no audit of it in any order: the line of an issue cannot
be counted. -/
theorem not_audited_lastLineSession :
  ∃ tree, Cache.openAt "cache" .empty = (.ok ⟨"cache"⟩, tree)
    ∧ lastLineSession.IsAnswered false [.security] [quietChunk] (quietWorld tree)
    ∧ (∃ order, (lastLineSession.auditChunksBy? false [.security] [quietChunk] order
      (quietWorld tree)).isSome)
    ∧ ∀ order audited, lastLineSession.auditChunksBy? false [.security] [quietChunk] order
        (quietWorld tree) = some audited → audited.1 = .error .lineOverflow
  := by
  obtain ⟨tree, hopen, hnew⟩ := Cache.exists_isNew
  obtain ⟨issue, hline, halone⟩ := exists_resultAlone_lastLineSession hnew.toIsUnused
  have htells : lastLineSession.TellsApart [.security] [quietChunk] := by
    apply tellsApart_singleton
    intro first hfirst second hsecond _
    rw [List.mem_singleton.mp hfirst, List.mem_singleton.mp hsecond]
  have hanswered : lastLineSession.IsAnswered false [.security] [quietChunk] (quietWorld tree) := by
    intro chunk hchunk reviewer hreviewer
    rw [List.mem_singleton.mp hchunk, List.mem_singleton.mp hreviewer]
    use [issue]
    apply halone
  have hroot : (quietWorld tree).files.HasFolder lastLineSession.cache.root := hnew.hasFolder
  have hnow : lastLineSession.clock.seconds < 2 ^ 64 := by decide
  refine ⟨tree, hopen, hanswered, ?_, ?_⟩
  · obtain ⟨order, horder⟩ := lastLineSession.exists_auditChunksBy?_eq false [.security] [quietChunk]
      (quietWorld tree)
    use order
    rw [horder]
    rfl
  · intro order audited haudited
    obtain ⟨hsame, -⟩ := eq_auditChunks_of_isAnswered hroot hnow (fun _ _ _ => rfl) htells hanswered
      haudited
    rw [hsame]
    apply auditChunks_of_overflows hroot hnow (fun _ _ _ => rfl) htells hanswered
    use quietChunk, List.mem_singleton_self _, .security, List.mem_singleton_self _, [issue], halone,
      issue, List.mem_singleton_self _, hline

end Session

end Scrutiny
