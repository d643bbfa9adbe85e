import Scrutiny.Proofs.Review.AnyOrder
import Scrutiny.Proofs.Review.Source
import Scrutiny.Proofs.Schedule.Repeated

/-!
# Repeated audits

An audit that has kept all replies and in which no review failed gives the same when it is done again,
without asking the model: all of it comes from the cache.
-/

namespace Scrutiny

variable {μ ν : Type}

namespace Session

/-- Sessions that cut files and keep results in the same way; their models may differ. -/
structure IsLike (again : Session ν) (session : Session μ) : Prop where
  model_eq : again.config.model = session.config.model
  maxOutputTokens_eq : again.config.maxOutputTokens = session.config.maxOutputTokens
  cache_eq : again.cache = session.cache
  charLimit_eq : again.settings.charLimit = session.settings.charLimit

variable {session : Session μ} {again : Session ν} {refresh : Bool} {reviewers : List Reviewer}
  {chunks : List Chunk}

theorem length_auditReviews (session : Session μ) (refresh : Bool) (reviewers : List Reviewer)
    (chunks : List Chunk) :
  (session.auditReviews refresh reviewers chunks).length = chunks.length * reviewers.length
  := by
  rw [auditReviews, List.length_flatMap]
  simp

theorem areReadable_auditReviews :
  Schedule.AreReadable (session.auditReviews false reviewers chunks)
  := by
  constructor
  · intro review hreview
    obtain ⟨chunk, -, reviewer, -, rfl⟩ := mem_auditReviews_iff.mp hreview
    apply isFaithful_issueReview
  · intro review hreview
    obtain ⟨chunk, -, reviewer, -, rfl⟩ := mem_auditReviews_iff.mp hreview
    rfl
  · intro review hreview other hother _ kept
    obtain ⟨chunk, -, reviewer, -, rfl⟩ := mem_auditReviews_iff.mp hreview
    obtain ⟨chunk', -, reviewer', -, rfl⟩ := mem_auditReviews_iff.mp hother
    rw [isSome_readBack?_issueReview, isSome_readBack?_issueReview]

/-- What auditors find in the cache does not depend on the model. -/
theorem IsLike.found?_issueReview_eq (h : again.IsLike session) {tree next : FileTree}
    (hagrees : session.cache.Agrees tree next) (chunk : Chunk) (reviewer : Reviewer) :
  (again.issueReview refresh chunk reviewer).found? again.cache next
    = (session.issueReview refresh chunk reviewer).found? session.cache tree
  := by
  have hkey : (again.issueReview refresh chunk reviewer).key
      = (session.issueReview refresh chunk reviewer).key := by
    dsimp only [issueReview, keyOf]
    rw [h.model_eq, h.maxOutputTokens_eq]
  rw [CachedReview.found?_eq, CachedReview.found?_eq, hkey, h.cache_eq,
    hagrees _ (isRegular_issueReview session refresh chunk reviewer).isValid]
  rfl

/-! ### Issues in an audit -/

theorem exists_mem_regroup {count : Nat} {found : List (List Issue)}
    (hlength : found.length = chunks.length * count) {issues : List Issue} (h : issues ∈ found) :
  ∃ pair ∈ regroup count chunks found, issues ⊆ pair.2
  := by
  induction chunks generalizing found with
  | nil =>
      rw [List.length_nil, Nat.zero_mul] at hlength
      rw [List.eq_nil_of_length_eq_zero hlength] at h
      cases h
  | cons chunk rest ih =>
      rw [← List.take_append_drop count found] at h
      rcases List.mem_append.mp h with h | h
      · use (chunk, (found.take count).flatten), List.mem_cons_self
        intro issue hissue
        exact List.mem_flatten.mpr ⟨issues, h, hissue⟩
      · obtain ⟨pair, hpair, hsubset⟩ := ih (by
          rw [List.length_drop, hlength, List.length_cons, Nat.add_one_mul, Nat.add_sub_cancel]) h
        use pair, List.mem_cons_of_mem _ hpair

/-- If no review failed in the audits, none of the issues that were found stands for a failure. -/
theorem isFailure_eq_false_of_conclude {found : List (List Issue)} {world : World μ}
    {audits : List ChunkAudit} (hlength : found.length = chunks.length * reviewers.length)
    (hclean : ∀ audit ∈ audits, ∀ issue ∈ audit.issues, issue.isFailure = false)
    (h : (conclude reviewers.length chunks (.ok found) world).1 = .ok audits) :
  ∀ issues ∈ found, ∀ issue ∈ issues, issue.isFailure = false
  := by
  intro issues hissues issue hissue
  obtain ⟨pair, hpair, hsubset⟩ := exists_mem_regroup hlength hissues
  rw [conclude_eq] at h
  cases haudits : (regroup reviewers.length chunks found).mapM fun pair => auditOf? pair.1 pair.2 with
  | none =>
      rw [haudits] at h
      cases h
  | some audits' =>
      rw [haudits] at h
      obtain rfl := Except.ok.inj h
      obtain ⟨audit, haudit, hof⟩ := exists_of_mem_left (mapM_eq_some_iff.mp haudits) hpair
      obtain ⟨resolved, hresolved, rfl⟩ := Option.map_eq_some_iff.mp hof
      obtain ⟨issue', hissue', hline⟩ :=
        exists_of_mem_left (mapM_eq_some_iff.mp hresolved) (hsubset hissue)
      obtain ⟨line, -, rfl⟩ := Option.map_eq_some_iff.mp hline
      apply hclean _ haudit _ hissue'

/-! ### Auditing chunks again -/

/-- There is one review for each chunk and auditor. -/
theorem auditReviews_eq_map (session : Session μ) (refresh : Bool) (reviewers : List Reviewer)
    (chunks : List Chunk) :
  session.auditReviews refresh reviewers chunks
    = (chunks.product reviewers).map fun pair => session.issueReview refresh pair.1 pair.2
  := by
  rw [auditReviews, List.product, List.map_flatMap]
  congr 1
  funext chunk
  rw [List.map_map]
  rfl

/-- Chunks that are audited again, with any model and in any order. -/
theorem auditChunksBy?_again (hlike : again.IsLike session) {world later : World μ}
    (hroot : world.files.HasFolder session.cache.root) (hnow : session.clock.seconds < 2 ^ 64)
    {order : List Nat}
    (hkeeps : (Schedule.ofJobs session world
      ((session.auditReviews false reviewers chunks).map .review)).KeepsReplies session order)
    {audits : List ChunkAudit}
    (haudited : session.auditChunksBy? false reviewers chunks order world = some (.ok audits, later))
    (hclean : ∀ audit ∈ audits, ∀ issue ∈ audit.issues, issue.isFailure = false)
    {start : World ν} (hagrees : session.cache.Agrees later.files start.files) {order' : List Nat}
    {audited : Except ReviewError (List ChunkAudit) × World ν}
    (hagain : again.auditChunksBy? false reviewers chunks order' start = some audited) :
  audited = (.ok audits, { start with tally :=
    { start.tally with hits := start.tally.hits + chunks.length * reviewers.length } })
  := by
  obtain ⟨last, outcome, hrun, houtcome, hconclude⟩ :=
    (session.auditChunksBy?_eq_some_iff false reviewers).mp haudited
  obtain ⟨last', outcome', hrun', houtcome', rfl⟩ :=
    (again.auditChunksBy?_eq_some_iff false reviewers).mp hagain
  cases outcome with
  | error e => cases congrArg Prod.fst hconclude
  | ok found =>
      have hleft := Schedule.forall₂_of_keepsReplies areReadable_auditReviews hroot hnow hkeeps hrun
        houtcome
      have hlength : found.length = chunks.length * reviewers.length := by
        rw [← hleft.length_eq, length_auditReviews]
      rw [conclude_ok_eq _ _ _ last.world last.world] at hconclude
      obtain ⟨haudits, rfl⟩ := Prod.mk.inj hconclude
      have hgood := isFailure_eq_false_of_conclude hlength hclean haudits
      have hfound : List.Forall₂ (fun review issues =>
          CachedReview.found? review again.cache start.files = some issues)
          (again.auditReviews false reviewers chunks) found := by
        rw [auditReviews_eq_map, List.forall₂_map_left_iff] at hleft ⊢
        apply forall₂_of_mem_right hleft
        rintro ⟨chunk, reviewer⟩ issues hissues (hfound | ⟨reason, rfl⟩)
        · rw [hlike.found?_issueReview_eq hagrees]
          apply hfound
        · cases hgood _ hissues _ List.mem_cons_self
      obtain ⟨rfl, hfiles, hmodel, htally⟩ := Schedule.of_found? hfound hrun' houtcome'
      rw [conclude_ok_eq _ _ _ last'.world last.world, haudits]
      rw [length_auditReviews] at htally
      have hworld : last'.world = { start with tally :=
          { start.tally with hits := start.tally.hits + chunks.length * reviewers.length } } :=
        World.ext hfiles hmodel htally
      rw [hworld]

/-! ### Auditing files again -/

variable {path root : String}

/-- The same is audited of a file that has not changed. -/
theorem IsLike.planFor_eq (h : again.IsLike session) {tree next : FileTree}
    (hsource : SameSource path root tree next) :
  again.planFor path root next = session.planFor path root tree
  := by
  cases hcanonical : tree.canonical path with
  | error e =>
      rw [planFor, planFor, hsource.canonical_eq, hcanonical]
      rfl
  | ok file =>
      rw [planFor_of_canonical _ hcanonical,
        planFor_of_canonical _ (hsource.canonical_eq.trans hcanonical), hsource.root_eq,
        chunkFileGuarded, chunkFileGuarded, readSource, readSource, hsource.read_eq file hcanonical,
        chunkConfig, chunkConfig, h.charLimit_eq]

/-- The reviews of a file before any of them has begun; none if they cannot be planned. -/
def reviewsOf? (session : Session μ) (path root : String) (world : World μ) :
    Option (Schedule μ (List Issue)) :=
  (session.planFor path root world.files).toOption.map fun (_, outcome) =>
    .ofJobs session world ((session.auditReviews false Reviewer.auditors outcome.chunks).map .review)

/-- Each reply that is to be kept while a file is audited is kept, and can be read back. -/
def KeepsReplies (session : Session μ) (path root : String) (order : List Nat) (world : World μ) :
    Prop :=
  ∀ state, session.reviewsOf? path root world = some state → state.KeepsReplies session order

/-- What an audit of a file has done. -/
theorem of_auditFileBy?_eq_ok {force : Bool} {order : List Nat} {world later : World μ}
    {audit : FileAudit}
    (h : session.auditFileBy? path root force order world = some (.ok audit, later)) :
  ∃ outcome, session.planFor path root world.files = .ok (audit.file, outcome)
    ∧ audit.degraded = outcome.degraded.map ChunkError.message
    ∧ audit.chunks.length = outcome.chunks.length
    ∧ (outcome.chunks = [] ∧ later = world ∨ outcome.chunks ≠ []
      ∧ ∃ left, session.forget force outcome.chunks world = (.ok (), left)
        ∧ session.auditChunksBy? force Reviewer.auditors outcome.chunks order left
          = some (.ok audit.chunks, later))
  := by
  rw [auditFileBy?] at h
  cases hplan : session.planFor path root world.files with
  | error e =>
      rw [hplan] at h
      cases h
  | ok plan =>
      obtain ⟨file, outcome⟩ := plan
      rw [hplan] at h
      dsimp only at h
      by_cases hempty : outcome.chunks = []
      · rw [if_pos (List.isEmpty_iff.mpr hempty)] at h
        obtain ⟨haudit, rfl⟩ := Prod.mk.inj (Option.some.inj h)
        obtain rfl := Except.ok.inj haudit
        exact ⟨outcome, rfl, rfl, by rw [hempty]; rfl, .inl ⟨hempty, rfl⟩⟩
      · rw [if_neg (List.isEmpty_iff.not.mpr hempty)] at h
        rcases hforget : session.forget force outcome.chunks world with ⟨e | ⟨⟩, left⟩
        · rw [hforget] at h
          cases congrArg Prod.fst (Option.some.inj h)
        · rw [hforget] at h
          obtain ⟨⟨audited, last⟩, hchunks, heq⟩ := Option.map_eq_some_iff.mp h
          obtain ⟨haudit, rfl⟩ := Prod.mk.inj heq
          cases audited with
          | error e => cases haudit
          | ok audits =>
              obtain rfl := Except.ok.inj haudit
              obtain ⟨_, result, _, _, hconclude⟩ :=
                (session.auditChunksBy?_eq_some_iff force Reviewer.auditors).mp hchunks
              cases result with
              | error e => cases congrArg Prod.fst hconclude
              | ok found =>
                  exact ⟨outcome, rfl, rfl, length_of_conclude (congrArg Prod.fst hconclude),
                    .inr ⟨hempty, left, hforget, hchunks⟩⟩

theorem auditFileBy?_again (hlike : again.IsLike session) {world later : World μ}
    (hroot : world.files.HasFolder session.cache.root) (hnow : session.clock.seconds < 2 ^ 64)
    {order : List Nat} (hkeeps : session.KeepsReplies path root order world) {audit : FileAudit}
    (haudited : session.auditFileBy? path root false order world = some (.ok audit, later))
    (hclean : ∀ chunk ∈ audit.chunks, ∀ issue ∈ chunk.issues, issue.isFailure = false)
    {start : World ν} (hsource : SameSource path root world.files start.files)
    (hagrees : session.cache.Agrees later.files start.files) :
  let found : Except ReviewError FileAudit × World ν := (.ok audit, { start with tally :=
    { start.tally with
      hits := start.tally.hits + audit.chunks.length * Reviewer.auditors.length } })
  (∀ order' audited, again.auditFileBy? path root false order' start = some audited → audited = found)
    ∧ again.auditFile path root false start = found
    ∧ ∀ state order' reached, again.reviewsOf? path root start = some state →
      state.run? again order' = some reached →
      ∃ rest, again.auditFileBy? path root false (order' ++ rest) start = some found
  := by
  intro found
  obtain ⟨outcome, hplan, hdegraded, hlength, hchunks⟩ := of_auditFileBy?_eq_ok haudited
  have hplan' : again.planFor path root start.files = .ok (audit.file, outcome) := by
    rw [hlike.planFor_eq hsource, hplan]
  have hall (order' : List Nat) (audited : Except ReviewError FileAudit × World ν)
      (h : again.auditFileBy? path root false order' start = some audited) : audited = found := by
    rw [again.auditFileBy?_of_planFor hplan'] at h
    dsimp only at h
    rcases hchunks with ⟨hempty, -⟩ | ⟨hne, left, hforget, hchunks⟩
    · rw [if_pos (List.isEmpty_iff.mpr hempty)] at h
      have hnone : audit.chunks = [] := List.eq_nil_of_length_eq_zero (by rw [hlength, hempty]; rfl)
      have haudit : FileAudit.mk audit.file [] audit.degraded = audit := by rw [← hnone]
      rw [← Option.some.inj h, ← hdegraded, haudit]
      dsimp only [found]
      rw [hnone, List.length_nil, Nat.zero_mul, Nat.add_zero]
    · rw [if_neg (List.isEmpty_iff.not.mpr hne)] at h
      obtain rfl : world = left := congrArg Prod.snd hforget
      obtain ⟨⟨result, last⟩, hagain, rfl⟩ := Option.map_eq_some_iff.mp h
      have hstate := hkeeps _ (by rw [reviewsOf?, hplan]; rfl)
      obtain ⟨rfl, rfl⟩ := Prod.mk.inj (auditChunksBy?_again hlike hroot hnow hstate hchunks hclean hagrees hagain)
      rw [← hlength, ← hdegraded]
      rfl
  use hall
  constructor
  · obtain ⟨order', horder'⟩ := again.exists_auditFileBy?_eq path root false start
    apply hall _ _ horder'
  · intro state order' reached hstate hreached
    rw [reviewsOf?, hplan'] at hstate
    obtain rfl := Option.some.inj hstate
    obtain ⟨rest, hsome⟩ := again.exists_isSome_auditChunksBy? false Reviewer.auditors hreached
    use rest
    have haudited' := again.auditFileBy?_of_planFor hplan' (order' ++ rest)
    have hsome' : (again.auditFileBy? path root false (order' ++ rest) start).isSome := by
      rw [haudited']
      dsimp only
      split
      · rfl
      · rw [Option.isSome_map, hsome]
    obtain ⟨audited, haudited⟩ := Option.isSome_iff_exists.mp hsome'
    rw [haudited, hall _ _ haudited]

/-! ### A file that is audited twice -/

theorem isUnused_lineTree {cache : Cache} {tree : FileTree}
    (hopen : Cache.openAt "cache" lineTree = (.ok cache, tree)) :
  Cache.IsUnused tree
  := by
  apply Cache.isUnused_of_openAt sound_lineTree rfl _ _ hopen
  · rintro names ⟨entries, hat⟩
    cases names with
    | nil => apply Nat.zero_le
    | cons name rest =>
        exfalso
        obtain ⟨node, hnode, hrest⟩ := Option.bind_eq_some_iff.mp hat
        obtain ⟨entry, hentry, rfl⟩ := Option.map_eq_some_iff.mp hnode
        obtain rfl := List.mem_singleton.mp (List.mem_of_find?_eq_some hentry)
        cases rest with
        | nil => cases hrest
        | cons other others => cases hrest
  · rintro names ⟨others, rfl⟩
    rfl

/-- There is one chunk in the file, and its reviews have different fingerprints. -/
theorem exists_planFor_lineTree :
  ∃ tree chunk degraded, Cache.openAt "cache" lineTree = (.ok ⟨"cache"⟩, tree) ∧ tree.isFolder "."
    ∧ quietSession.planFor "a.py" "." tree = .ok ("/a.py", { chunks := [chunk], degraded })
    ∧ (quietSession.keyOf chunk Reviewer.security.id).fingerprint
      ≠ (quietSession.keyOf chunk Reviewer.readability.id).fingerprint
  := by
  have hshape : ((Cache.openAt "cache" lineTree).1.toOption.map (·.root),
      (Cache.openAt "cache" lineTree).2.isFolder ".",
      (quietSession.planFor "a.py" "." (Cache.openAt "cache" lineTree).2).toOption.map
        fun (file, outcome) => (file, outcome.chunks.map fun chunk =>
          (quietSession.keyOf chunk Reviewer.security.id).fingerprint
            == (quietSession.keyOf chunk Reviewer.readability.id).fingerprint))
      = (some "cache", true, some ("/a.py", [false])) := by
    decide +kernel
  generalize hopened : Cache.openAt "cache" lineTree = opened at hshape
  obtain ⟨result, tree⟩ := opened
  obtain ⟨hcache, hshape⟩ := Prod.mk.inj hshape
  obtain ⟨hroot, hplan⟩ := Prod.mk.inj hshape
  obtain ⟨⟨root⟩, hresult, rfl⟩ := Option.map_eq_some_iff.mp hcache
  obtain ⟨⟨file, outcome⟩, hplan, hpair⟩ := Option.map_eq_some_iff.mp hplan
  obtain ⟨rfl, hchunks⟩ := Prod.mk.inj hpair
  obtain ⟨chunk, hchunk, hkeys⟩ := List.map_eq_singleton_iff.mp hchunks
  have hok : result = .ok ⟨"cache"⟩ := by
    cases result with
    | error e => cases hresult
    | ok cache => exact congrArg Except.ok (Option.some.inj hresult)
  have hplan : quietSession.planFor "a.py" "." tree = .ok ("/a.py", outcome) := by
    cases hfound : quietSession.planFor "a.py" "." tree with
    | error e =>
        rw [hfound] at hplan
        cases hplan
    | ok plan =>
        rw [hfound] at hplan
        exact congrArg Except.ok (Option.some.inj hplan)
  refine ⟨tree, chunk, outcome.degraded, by rw [hok], hroot, ?_, beq_eq_false_iff_ne.mp hkeys⟩
  rw [hplan, ← hchunk]

theorem tellsApart_auditors {chunk : Chunk}
    (hkeys : (session.keyOf chunk Reviewer.security.id).fingerprint
      ≠ (session.keyOf chunk Reviewer.readability.id).fingerprint) :
  session.TellsApart Reviewer.auditors [chunk]
  := by
  apply tellsApart_singleton
  intro first hfirst second hsecond hkey
  rw [Reviewer.auditors, List.mem_pair] at hfirst hsecond
  rcases hfirst with rfl | rfl
  · rcases hsecond with rfl | rfl
    · rfl
    · cases hkeys hkey
  · rcases hsecond with rfl | rfl
    · cases hkeys hkey.symm
    · rfl

/-- A new cache keeps all replies of a model that finds nothing, in any order. -/
theorem keepsReplies_quietSession {tree : FileTree} (hunused : Cache.IsUnused tree) (refresh : Bool)
    (reviewers : List Reviewer) (chunks : List Chunk) (order : List Nat) :
  (Schedule.ofJobs quietSession (quietWorld tree)
    ((quietSession.auditReviews refresh reviewers chunks).map .review)).KeepsReplies quietSession order
  := by
  obtain ⟨reply, hdepth, hreply⟩ := exists_ask_quietSession
  have hregular : ∀ review ∈ quietSession.auditReviews refresh reviewers chunks, review.IsRegular := by
    intro review hreview
    obtain ⟨chunk, -, reviewer, -, rfl⟩ := mem_auditReviews_iff.mp hreview
    apply isRegular_issueReview
  apply Schedule.keepsReplies_of_canKeep (Schedule.map_fst_ofJobs _ _ _)
    (Schedule.isStocked_ofReviews hunused.hasFolder hregular) (by decide)
  · intro review hreview state issues kept husable
    obtain ⟨chunk, -, reviewer, -, rfl⟩ := mem_auditReviews_iff.mp hreview
    obtain ⟨rfl, rfl⟩ := Judgement.usable.inj (Except.ok.inj
      ((hreply refresh chunk reviewer).symm.trans husable))
    apply hdepth
  · intro review _
    apply hunused.canKeep

/-- The audit of a chunk in which each auditor alone finds nothing has no issues. -/
theorem issues_eq_nil_of_isAuditOf {tree : FileTree} (hunused : Cache.IsUnused tree) {chunk : Chunk}
    {audit : ChunkAudit} (h : quietSession.IsAuditOf refresh reviewers (quietWorld tree) chunk audit) :
  audit.issues = []
  := by
  obtain ⟨lists, hlists, hof⟩ := h
  have hnil : lists.flatten = [] := by
    apply List.flatten_eq_nil_iff.mpr
    intro issues hissues
    obtain ⟨reviewer, -, halone⟩ := exists_of_mem_right hlists hissues
    have hnone := resultAlone_quietSession hunused refresh chunk reviewer
    exact (Except.ok.inj (hnone.symm.trans halone)).symm
  rw [hnil] at hof
  obtain rfl := Option.some.inj hof
  rfl

/-- A chunk is audited, forced or not, with a new cache and a model that finds nothing. -/
theorem exists_auditChunksBy?_quiet {tree : FileTree} (hunused : Cache.IsUnused tree) {chunk : Chunk}
    (hkeys : (quietSession.keyOf chunk Reviewer.security.id).fingerprint
      ≠ (quietSession.keyOf chunk Reviewer.readability.id).fingerprint) (refresh : Bool) :
  ∃ order audits later,
    quietSession.auditChunksBy? refresh Reviewer.auditors [chunk] order (quietWorld tree)
      = some (.ok audits, later)
    ∧ (Schedule.ofJobs quietSession (quietWorld tree)
      ((quietSession.auditReviews refresh Reviewer.auditors [chunk]).map .review)).KeepsReplies
        quietSession order
    ∧ (∀ audit ∈ audits, ∀ issue ∈ audit.issues, issue.isFailure = false) ∧ audits.length = 1
  := by
  obtain ⟨audits, haudits, hall⟩ : ∃ audits,
      (quietSession.auditChunks refresh Reviewer.auditors [chunk] (quietWorld tree)).1 = .ok audits
      ∧ List.Forall₂ (quietSession.IsAuditOf refresh Reviewer.auditors (quietWorld tree)) [chunk] audits
    := by
    rcases of_auditChunks_of_isAnswered hunused.hasFolder (by decide) (fun _ _ _ => rfl)
      (tellsApart_auditors hkeys) (isAnswered_quietSession hunused refresh _ _) with
      haudits | ⟨-, hoverflows⟩
    · apply haudits
    · cases not_overflows_quietSession hunused hoverflows
  obtain ⟨order, horder⟩ := quietSession.exists_auditChunksBy?_eq refresh Reviewer.auditors [chunk]
    (quietWorld tree)
  refine ⟨order, audits,
    (quietSession.auditChunks refresh Reviewer.auditors [chunk] (quietWorld tree)).2, ?_, ?_, ?_,
    hall.length_eq.symm⟩
  · rw [horder, ← haudits]
    rfl
  · apply keepsReplies_quietSession hunused
  · intro audit haudit issue hissue
    obtain ⟨first, -, hof⟩ := exists_of_mem_right hall haudit
    rw [issues_eq_nil_of_isAuditOf hunused hof] at hissue
    cases hissue

/-- A file is audited a second time, with any model and in any order, after an audit that kept all
replies and in which no review failed.  If the file and what the cache holds are as the first audit has
left them, which has not changed the file itself, then the model is not asked, each result comes from
the cache, and the audit is the same. -/
theorem auditFileBy?_twice (hlike : again.IsLike session) {world later : World μ}
    (hroot : world.files.HasFolder session.cache.root) (hnow : session.clock.seconds < 2 ^ 64)
    {order : List Nat} (hkeeps : session.KeepsReplies path root order world) {audit : FileAudit}
    (haudited : session.auditFileBy? path root false order world = some (.ok audit, later))
    (hclean : ∀ chunk ∈ audit.chunks, ∀ issue ∈ chunk.issues, issue.isFailure = false) :
  (world.files.isFolder root → SameSource path root world.files later.files)
    ∧ ∀ start : World ν, SameSource path root world.files start.files →
      session.cache.Agrees later.files start.files →
      let found : Except ReviewError FileAudit × World ν := (.ok audit, { start with tally :=
        { start.tally with
          hits := start.tally.hits + audit.chunks.length * Reviewer.auditors.length } })
      (∀ order' audited, again.auditFileBy? path root false order' start = some audited →
          audited = found)
        ∧ again.auditFile path root false start = found
        ∧ ∀ state order' reached, again.reviewsOf? path root start = some state →
          state.run? again order' = some reached →
          ∃ rest, again.auditFileBy? path root false (order' ++ rest) start = some found
  := by
  constructor
  · intro hfolder
    apply session.sameSource_of_auditFileBy? hroot.sound hfolder haudited
  · intro start hsource hagrees
    apply auditFileBy?_again hlike hroot hnow hkeeps haudited hclean hsource hagrees

/-- A file with one line is audited twice, with a new cache and a model that finds nothing. -/
theorem auditFileBy?_twice_lineTree :
  ∃ tree order audit later, Cache.openAt "cache" lineTree = (.ok ⟨"cache"⟩, tree)
    ∧ quietSession.KeepsReplies "a.py" "." order (quietWorld tree)
    ∧ quietSession.auditFileBy? "a.py" "." false order (quietWorld tree) = some (.ok audit, later)
    ∧ (∀ chunk ∈ audit.chunks, ∀ issue ∈ chunk.issues, issue.isFailure = false)
    ∧ quietSession.auditFile "a.py" "." false later = (.ok audit, { later with tally :=
      { later.tally with hits := later.tally.hits + 2 } })
  := by
  obtain ⟨tree, chunk, degraded, hopen, hfolder, hplan, hkeys⟩ := exists_planFor_lineTree
  have hunused := isUnused_lineTree hopen
  have hplan : quietSession.planFor "a.py" "." (quietWorld tree).files
      = .ok ("/a.py", { chunks := [chunk], degraded }) := hplan
  have hnow : quietSession.clock.seconds < 2 ^ 64 := by decide
  obtain ⟨order, audits, later, hchunks, hkept, hclean, hlength⟩ :=
    exists_auditChunksBy?_quiet hunused hkeys false
  have hkeeps : quietSession.KeepsReplies "a.py" "." order (quietWorld tree) := by
    intro state hstate
    rw [reviewsOf?, hplan] at hstate
    obtain rfl := Option.some.inj hstate
    apply hkept
  have haudited : quietSession.auditFileBy? "a.py" "." false order (quietWorld tree)
      = some (.ok { file := "/a.py", chunks := audits, degraded := degraded.map ChunkError.message },
        later) := by
    rw [quietSession.auditFileBy?_of_planFor hplan]
    dsimp only
    rw [List.isEmpty_cons, if_neg Bool.false_ne_true, hchunks]
    rfl
  refine ⟨tree, order, _, _, hopen, hkeeps, haudited, hclean, ?_⟩
  obtain ⟨hsame, htwice⟩ := @auditFileBy?_twice _ _ quietSession quietSession "a.py" "."
    ⟨rfl, rfl, rfl, rfl⟩ (quietWorld tree) _ hunused.hasFolder hnow order hkeeps _ haudited hclean
  obtain ⟨-, hfound, -⟩ := htwice _ (hsame hfolder) (fun _ _ => rfl)
  rw [hfound, hlength]
  rfl

end Session

end Scrutiny
