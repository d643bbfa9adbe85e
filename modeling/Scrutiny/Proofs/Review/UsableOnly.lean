import Mathlib.Logic.Relation
import Scrutiny.Proofs.Review.Beside
import Scrutiny.Proofs.Review.Failures
import Scrutiny.Proofs.Review.Forced
import Scrutiny.Proofs.Review.Project
import Scrutiny.Proofs.Review.Regular
import Scrutiny.Proofs.Review.Runs
import Scrutiny.Proofs.Schedule.Files
import Scrutiny.Proofs.Text.Lines

/-!
# Usable results

Only usable results are written to a cache, whatever is run and however often.
-/

/-!
## Usable results and runs

What makes a result usable, and that runs leave only usable results in the cache.
-/

namespace Scrutiny

open Text

/-!
## Usable results

A result of an auditor is usable if there is a list of issues in it, and an explanation if it is a text
that is not blank and has been trimmed.  Reviews keep only such results.
-/

/-- The result of the entry is what its reviewer is expected to give. -/
structure CacheEntry.IsUsable (entry : CacheEntry) : Prop where
  /-- The issues of an auditor can be read. -/
  issues : ∀ reviewer ∈ Reviewer.auditors, entry.reviewer = reviewer.id →
    (Issue.ofReply? entry.result reviewer.issueType).isSome
  /-- An explanation is a trimmed text. -/
  rationale : entry.reviewer = Reviewer.whyExtractor.id →
    ∃ text, entry.result = Session.rationaleJson text ∧ isBlankText text.toList = false
      ∧ trim text.toList = text.toList

/-- The entry that is read after a value was written is that of the value as it is read again. -/
theorem Cache.readsOnly_ofKey {P : CacheEntry → Prop} {key : CacheKey} {kept : Json} {now : Nat}
    (hnormal : kept.IsNormal) (hfits : kept.Fits) (hnow : now < 2 ^ 64)
    (h : P (CacheEntry.ofKey key kept.reread now)) :
  ReadsOnly P (CacheEntry.ofKey key kept now).bytes
  := by
  intro entry hentry
  rw [CacheEntry.ofBytes?_bytes_ofKey key hnormal hfits hnow] at hentry
  obtain ⟨-, heq⟩ := Option.ite_none_right_eq_some.mp hentry
  rw [← Option.some.inj heq]
  apply h

variable {μ α : Type}

/-- Whether there are issues in a value does not depend on the auditor. -/
theorem Issue.isSome_ofReply?_eq (value : Json) (type type' : String) :
  (ofReply? value type).isSome = (ofReply? value type').isSome
  := by
  rw [ofReply?, ofReply?, Option.isSome_map, Option.isSome_map]

/-- No auditor explains chunks. -/
theorem Reviewer.id_ne_whyExtractor {reviewer : Reviewer} (h : reviewer ∈ auditors) :
  reviewer.id ≠ whyExtractor.id
  := by
  rw [auditors, List.mem_pair] at h
  rcases h with rfl | rfl <;> decide

theorem keepsOnly_issueReview (session : Session μ) (refresh : Bool) (chunk : Chunk)
    {reviewer : Reviewer} (hreviewer : reviewer ∈ Reviewer.auditors) {now : Nat} (hnow : now < 2 ^ 64) :
  (session.issueReview refresh chunk reviewer).KeepsOnly CacheEntry.IsUsable now
  := by
  have hregular := isRegular_issueReview session refresh chunk reviewer
  use hregular.isValid
  intro state issues kept husable
  obtain ⟨hnormal, hfits⟩ := hregular.of_usable state issues kept husable
  refine Cache.readsOnly_ofKey hnormal hfits hnow ?_
  constructor
  · intro other _ _
    have hread : Issue.ofReply? kept.reread reviewer.issueType = some issues :=
      readBack?_issueReview husable
    change (Issue.ofReply? kept.reread other.issueType).isSome
    rw [Issue.isSome_ofReply?_eq _ _ reviewer.issueType, hread]
    rfl
  · intro hid
    cases Reviewer.id_ne_whyExtractor hreviewer hid

/-- What is kept of an explanation is its trimmed text, which is not blank. -/
theorem exists_text_of_ask_rationaleReview {session : Session μ} {refresh : Bool} {chunk : Chunk}
    {state : μ} {outcome : RationaleOutcome} {kept : Json}
    (h : ((session.rationaleReview refresh chunk).ask state).result = .ok (.usable outcome kept)) :
  ∃ text : String, kept = Session.rationaleJson text ∧ isBlankText text.toList = false
    ∧ trim text.toList = text.toList
  := by
  obtain ⟨reply, hreply, hjudge⟩ := of_judged_eq_ok h
  obtain ⟨_, rfl⟩ := Judgement.usable.inj hjudge
  refine ⟨String.ofList (trim reply.toList), rfl, ?_⟩
  rw [String.toList_ofList, trim_trim, isBlankText_trim]
  refine ⟨?_, rfl⟩
  obtain ⟨answer, haccept⟩ := Inference.exists_accept_of_attempt hreply
  rw [Inference.acceptText] at haccept
  split at haccept
  · cases haccept
  · rename_i hblank
    rw [← Except.ok.inj haccept]
    apply Bool.eq_false_iff.mpr hblank

theorem keepsOnly_rationaleReview (session : Session μ) (refresh : Bool) (chunk : Chunk) {now : Nat}
    (hnow : now < 2 ^ 64) :
  (session.rationaleReview refresh chunk).KeepsOnly CacheEntry.IsUsable now
  := by
  have hregular := isRegular_rationaleReview session refresh chunk
  use hregular.isValid
  intro state outcome kept husable
  obtain ⟨hnormal, hfits⟩ := hregular.of_usable state outcome kept husable
  refine Cache.readsOnly_ofKey hnormal hfits hnow ?_
  constructor
  · intro reviewer hreviewer hid
    cases Reviewer.id_ne_whyExtractor hreviewer hid.symm
  · intro _
    obtain ⟨text, rfl, htext⟩ := exists_text_of_ask_rationaleReview husable
    exact ⟨text, rfl, htext⟩

/-!
## What runs leave in the cache

A cache that holds only usable results holds only usable results after any run, in any order and
whatever comes of it.
-/

variable {P : CacheEntry → Prop}

namespace OrderedAction

/-- What leaves the files of results as they were keeps what holds of them. -/
theorem maintains_of_spares {cache : Cache} {action : ReviewAction μ α}
    (h : ReviewAction.Spares Cache.resultNames action) :
  Maintains (cache.HoldsOnly P) (lift action)
  := by
  apply Maintains.lift
  intro world hholds
  apply hholds.of_spares (h world hholds.hasFolder.sound)

end OrderedAction

namespace Session

open OrderedAction

theorem holdsOnly_forget (session : Session μ) (force : Bool) (chunks : List Chunk) {world : World μ}
    (h : session.cache.HoldsOnly P world.files) :
  session.cache.HoldsOnly P (session.forget force chunks world).2.files
  := by
  cases force with
  | false => apply h
  | true =>
      apply ReviewAction.holds_of_forM (P := (session.cache.HoldsOnly P ·.files)) _ _ h
      intro id middle hmiddle
      have hremoved := hmiddle.invalidate id
      rw [ReviewAction.bind_pure_eq, ReviewAction.onFiles]
      generalize session.cache.invalidate id middle.files = removed at hremoved ⊢
      apply hremoved

/-! ### Runs -/

variable {session : Session μ} (hnow : session.clock.seconds < 2 ^ 64)

include hnow

theorem holdsOnly_auditChunksBy? {refresh : Bool} {reviewers : List Reviewer}
    (hreviewers : ∀ reviewer ∈ reviewers, reviewer ∈ Reviewer.auditors) {chunks : List Chunk}
    {order : List Nat} {world later : World μ} {result : Except ReviewError (List ChunkAudit)}
    (h : session.cache.HoldsOnly CacheEntry.IsUsable world.files)
    (haudited : session.auditChunksBy? refresh reviewers chunks order world = some (result, later)) :
  session.cache.HoldsOnly CacheEntry.IsUsable later.files
  := by
  obtain ⟨last, outcome, hrun, -, hconclude⟩ :=
    (session.auditChunksBy?_eq_some_iff refresh reviewers).mp haudited
  obtain rfl : last.world = later := by
    rw [← snd_conclude reviewers.length chunks outcome last.world, hconclude]
  apply Schedule.holdsOnly_of_run? h _ hrun
  intro review hreview
  obtain ⟨chunk, -, reviewer, hreviewer, rfl⟩ := mem_auditReviews_iff.mp hreview
  apply keepsOnly_issueReview session refresh chunk (hreviewers reviewer hreviewer) hnow

theorem maintains_auditFile (path root : String) (force : Bool) :
  Maintains (session.cache.HoldsOnly CacheEntry.IsUsable) (group (session.auditFileBy? path root force))
  := by
  apply Maintains.group
  intro order world result later hholds haudited
  rw [auditFileBy?] at haudited
  split at haudited
  · obtain ⟨-, rfl⟩ := Prod.mk.inj (Option.some.inj haudited)
    apply hholds
  · rename_i file outcome _
    dsimp only at haudited
    split at haudited
    · obtain ⟨-, rfl⟩ := Prod.mk.inj (Option.some.inj haudited)
      apply hholds
    · have hleft := session.holdsOnly_forget force outcome.chunks hholds
      split at haudited
      · rename_i hforget
        rw [hforget] at hleft
        obtain ⟨-, rfl⟩ := Prod.mk.inj (Option.some.inj haudited)
        apply hleft
      · rename_i hforget
        rw [hforget] at hleft
        obtain ⟨⟨audited, last⟩, hchunks, heq⟩ := Option.map_eq_some_iff.mp haudited
        obtain ⟨-, rfl⟩ := Prod.mk.inj heq
        apply holdsOnly_auditChunksBy? hnow (fun _ hreviewer => hreviewer) hleft hchunks

theorem maintains_auditMember (root : String) (force : Bool) (out : Option String)
    (progress : AuditProgress) (path : String) :
  Maintains (session.cache.HoldsOnly CacheEntry.IsUsable)
    (session.auditMemberInOrder root force out progress path)
  := by
  apply Maintains.tryCatch
  · apply Maintains.bind (maintains_auditFile hnow path root force)
    intro audit
    split
    · apply Maintains.pure
    · apply Maintains.bind
      · apply maintains_of_spares
        apply FileAudit.spares_write
      · intro _
        apply Maintains.pure
  · intro e
    split
    · apply Maintains.throw
    · apply Maintains.pure

theorem maintains_auditProject (folder : String) (force : Bool) (out : Option String) :
  Maintains (session.cache.HoldsOnly CacheEntry.IsUsable)
    (session.auditProjectInOrder folder force out)
  := by
  apply Maintains.bind (maintains_of_spares (spares_existingFolder folder))
  intro root
  apply Maintains.bind (maintains_of_spares (ReviewAction.Spares.look _))
  intro files
  apply Maintains.bind
  · apply Maintains.foldlM
    intro progress path
    apply maintains_auditMember hnow root force out progress path
  · intro progress
    apply Maintains.bind
    · apply maintains_of_spares
      apply ProjectAudit.spares_writeSummary
    · intro _
      apply Maintains.pure

theorem maintains_explainChunks (refresh : Bool) (chunks : List Chunk) :
  Maintains (session.cache.HoldsOnly CacheEntry.IsUsable)
    (group (session.explainChunksBy? refresh chunks))
  := by
  apply Maintains.group
  intro order world result later hholds hexplained
  obtain ⟨last, hrun, hexplained⟩ := Option.bind_eq_some_iff.mp hexplained
  obtain ⟨outcome, -, heq⟩ := Option.bind_eq_some_iff.mp hexplained
  obtain ⟨-, rfl⟩ := Prod.mk.inj (Option.some.inj heq)
  apply Schedule.holdsOnly_of_run? hholds _ hrun
  intro review hreview
  obtain ⟨chunk, -, rfl⟩ := List.mem_map.mp hreview
  apply keepsOnly_rationaleReview session refresh chunk hnow

theorem maintains_explainFile (folder project : String) (root : String) (force : Bool)
    (progress : RationaleProgress) (path : String) :
  Maintains (session.cache.HoldsOnly CacheEntry.IsUsable)
    (session.explainFileInOrder root (RationaleStore.pathFor folder project) force progress path)
  := by
  apply Maintains.bind (maintains_of_spares (session.spares_chunksOrNone path root))
  rintro (_ | chunks)
  · apply Maintains.pure
  · dsimp only
    split
    · apply Maintains.pure
    · apply Maintains.bind (maintains_explainChunks hnow force _)
      intro outcomes
      apply Maintains.bind
      · apply maintains_of_spares
        apply ReviewAction.Spares.onFiles
        apply RationaleStore.spares_save
      · intro _
        apply Maintains.pure

theorem maintains_extractRationale (folder : String) (force : Bool) :
  Maintains (session.cache.HoldsOnly CacheEntry.IsUsable) (session.extractRationaleInOrder folder force)
  := by
  apply Maintains.bind (maintains_of_spares (spares_existingFolder folder))
  intro root
  apply Maintains.bind (maintains_of_spares (spares_takeLock (avoids_storeLock _)))
  intro _
  apply Maintains.bind (maintains_of_spares (ReviewAction.Spares.look _))
  intro store
  apply Maintains.bind (maintains_of_spares (ReviewAction.Spares.look _))
  intro files
  apply Maintains.bind
  · apply Maintains.foldlM
    intro progress path
    apply maintains_explainFile hnow
  · intro progress
    apply Maintains.pure

/-- Any run leaves only usable results. -/
theorem maintains_carryOut (run : ReviewRun) :
  Maintains (session.cache.HoldsOnly CacheEntry.IsUsable) (session.carryOut run)
  := by
  cases run with
  | auditFile path root force =>
      apply Maintains.bind (maintains_auditFile hnow path root force)
      intro _
      apply Maintains.pure
  | auditProject folder force out =>
      apply Maintains.bind (maintains_auditProject hnow folder force out)
      intro _
      apply Maintains.pure
  | extractRationale folder force =>
      apply Maintains.bind (maintains_extractRationale hnow folder force)
      intro _
      apply Maintains.pure

end Session

end Scrutiny

/-!
## Only usable results are kept

If a cache is empty at first, there are only usable results in it after any number of runs.  What is of
no use is not kept: it is told in the audit, and nothing is written.
-/

namespace Scrutiny

variable {cache : Cache} {tree next : FileTree}

/-- A usable reply to some review of a session is to be kept under a key. -/
inductive Session.Gives {μ : Type} (session : Session μ) : CacheKey → Json → Prop where
  /-- An auditor replies with a list of issues. -/
  | issues {refresh : Bool} {chunk : Chunk} {reviewer : Reviewer} {state : μ} {issues : List Issue}
    {kept : Json} (hreviewer : reviewer ∈ Reviewer.auditors)
    (h : ((session.issueReview refresh chunk reviewer).ask state).result = .ok (.usable issues kept)) :
    Gives session (session.issueReview refresh chunk reviewer).key kept
  /-- A chunk is explained. -/
  | explanation {refresh : Bool} {chunk : Chunk} {state : μ} {outcome : RationaleOutcome} {kept : Json}
    (h : ((session.rationaleReview refresh chunk).ask state).result = .ok (.usable outcome kept)) :
    Gives session (session.rationaleReview refresh chunk).key kept

/-- What may be done at once to the files around a cache. -/
inductive Cache.Becomes (cache : Cache) : FileTree → FileTree → Prop where
  /-- A run is carried out to its end, in some order, whatever comes of it. -/
  | ran {μ : Type} {session : Session μ} {run : ReviewRun} {world later : World μ}
    {orders rest : List (List Nat)} {result : Except ReviewError Unit} (hcache : session.cache = cache)
    (hnow : session.clock.seconds < 2 ^ 64)
    (h : session.carryOut run (world, orders) = some (result, later, rest)) :
    Becomes cache world.files later.files
  /-- The process is killed while it stores the reply to a review. -/
  | killed {μ : Type} {session : Session μ} {key : CacheKey} {kept : Json} {tree next : FileTree}
    (hnow : session.clock.seconds < 2 ^ 64) (hgives : session.Gives key kept)
    (h : cache.StoreInterrupted key kept session.clock.seconds tree next) :
    Becomes cache tree next
  /-- Other files are changed between the runs. -/
  | edited {tree next : FileTree} (h : FileTree.Spares resultNames tree next) :
    Becomes cache tree next

theorem Session.Gives.readsOnly {μ : Type} {session : Session μ} {key : CacheKey} {kept : Json}
    (h : session.Gives key kept) (hnow : session.clock.seconds < 2 ^ 64) :
  key.fingerprint.IsValid
    ∧ Cache.ReadsOnly CacheEntry.IsUsable (CacheEntry.ofKey key kept session.clock.seconds).bytes
  := by
  cases h with
  | @issues refresh chunk _ _ _ _ hreviewer h =>
      have hkeeps := keepsOnly_issueReview session refresh chunk hreviewer hnow
      exact ⟨hkeeps.isValid, hkeeps.readsOnly _ _ _ h⟩
  | @explanation refresh chunk _ _ _ h =>
      have hkeeps := keepsOnly_rationaleReview session refresh chunk hnow
      exact ⟨hkeeps.isValid, hkeeps.readsOnly _ _ _ h⟩

theorem Cache.HoldsOnly.of_becomes (h : cache.HoldsOnly CacheEntry.IsUsable tree)
    (hbecomes : cache.Becomes tree next) :
  cache.HoldsOnly CacheEntry.IsUsable next
  := by
  cases hbecomes with
  | ran hcache hnow hrun =>
      subst hcache
      apply Session.maintains_carryOut hnow _ _ _ _ _ _ h hrun
  | killed hnow hgives hstore =>
      obtain ⟨hvalid, hentry⟩ := hgives.readsOnly hnow
      apply h.of_storeInterrupted hvalid hentry hstore
  | edited hspares => apply h.of_spares hspares

/-- If a cache is empty at first, all entries in it are usable after any runs, in any order and whatever
the models reply.  Each auditor that is told nothing of use contributes one issue to the audit of its
chunk, which says so, and writes nothing; so does a failing explanation. -/
theorem Cache.isUsable_of_runs (hroot : tree.HasFolder cache.root) (hempty : cache.IsEmpty tree)
    (hruns : Relation.ReflTransGen cache.Becomes tree next) :
  cache.HoldsOnly CacheEntry.IsUsable next
    ∧ (∀ fingerprint : Fingerprint, fingerprint.IsValid → ∀ entry,
      cache.lookup next fingerprint = some entry → entry.IsUsable)
    ∧ ∀ {μ : Type} (session : Session μ) (refresh : Bool) (chunks : List Chunk) (order : List Nat)
      (world later : World μ),
      (∀ reviewers result,
        session.auditChunksBy? refresh reviewers chunks order world = some (result, later) →
        (∀ k r reason, session.FailsOn refresh reviewers chunks order world k r reason →
          (session.auditSchedule refresh reviewers chunks world).WritesNothing session order
            (k * reviewers.length + r))
        ∧ ∀ audits, result = .ok audits → ∃ part, Session.AreMadeOf reviewers.length chunks part audits
          ∧ ∀ k r reviewer reason, reviewers[r]? = some reviewer →
            session.FailsOn refresh reviewers chunks order world k r reason →
            part k r = [Issue.ofFailure reviewer.id reason])
      ∧ ∀ result, session.explainChunksBy? refresh chunks order world = some (result, later) →
        ∀ k reason, session.FailsToExplain refresh chunks order world k reason →
          (session.explainSchedule refresh chunks world).WritesNothing session order k
          ∧ ∀ outcomes, result = .ok outcomes → outcomes[k]? = some (.failed reason)
  := by
  have hholds : cache.HoldsOnly CacheEntry.IsUsable next := by
    induction hruns with
    | refl => apply hempty.holdsOnly hroot
    | tail _ hbecomes ih => apply ih.of_becomes hbecomes
  use hholds
  constructor
  · intro fingerprint hvalid entry hfound
    apply hholds.of_lookup hvalid hfound
  · intro μ session refresh chunks order world later
    constructor
    · intro reviewers result haudited
      constructor
      · intro k r reason hfails
        apply Session.writesNothing_of_failsOn haudited hfails
      · rintro audits rfl
        apply Session.exists_areMadeOf_of_auditChunksBy? haudited
    · intro result hexplained k reason hfails
      apply Session.of_failsToExplain hexplained hfails

/-- An auditor that is told an empty text fails on a chunk. -/
theorem Session.failsOn_muteSession :
  muteSession.FailsOn true [.security] [quietChunk] [0, 0, 0, 0, 0] (quietWorld lineTree) 0 0
    "Malformed model response: Reply is not a JSON object: "
  := by
  refine ⟨quietChunk, .security, quietWorld lineTree, rfl, rfl, ⟨[0, 0, 0, 0], [], ?_⟩, ?_⟩
  · exact ⟨_, _, rfl, rfl, rfl, rfl⟩
  · decide +kernel

theorem Session.exists_auditChunksBy?_muteSession :
  ∃ audits later, muteSession.auditChunksBy? true [.security] [quietChunk] [0, 0, 0, 0, 0]
    (quietWorld lineTree) = some (.ok audits, later)
  := by
  have hsome : ((muteSession.auditChunksBy? true [.security] [quietChunk] [0, 0, 0, 0, 0]
      (quietWorld lineTree)).bind (·.1.toOption)).isSome := by
    decide +kernel
  obtain ⟨audits, haudits⟩ := Option.isSome_iff_exists.mp hsome
  obtain ⟨⟨result, later⟩, hmute, hresult⟩ := Option.bind_eq_some_iff.mp haudits
  use audits, later
  rw [hmute]
  cases result with
  | error e => cases hresult
  | ok found => rw [← Option.some.inj hresult]

/-- A file with one line is audited with a new cache.  There is a result then, which is usable.  Where
the model is mute, the audit of a chunk is one issue. -/
theorem Cache.isUsable_of_runs_lineTree :
  ∃ tree next fingerprint entry audits later, Cache.openAt "cache" lineTree = (.ok ⟨"cache"⟩, tree)
    ∧ Relation.ReflTransGen (Cache.Becomes ⟨"cache"⟩) tree next
    ∧ Cache.lookup ⟨"cache"⟩ next fingerprint = some entry ∧ entry.IsUsable
    ∧ Session.muteSession.auditChunksBy? true [.security] [quietChunk] [0, 0, 0, 0, 0]
      (quietWorld lineTree) = some (.ok audits, later)
    ∧ ∃ part, Session.AreMadeOf 1 [quietChunk] part audits
      ∧ part 0 0 = [Issue.ofFailure Reviewer.security.id
        "Malformed model response: Reply is not a JSON object: "]
  := by
  obtain ⟨tree, order, audit, last, chunk, degraded, hopen, -, hplan, haudited, hkeeps, hclean⟩ :=
    Session.exists_auditFileBy?_lineTree
  have hunused := Session.isUnused_lineTree hopen
  have hnow : quietSession.clock.seconds < 2 ^ 64 := by decide
  have hrun : quietSession.carryOut (.auditFile "a.py" "." true) (quietWorld tree, [order])
      = some (.ok (), last, []) := by
    rw [Session.carryOut, OrderedAction.bind_eq, OrderedAction.group]
    dsimp only
    rw [haudited]
    rfl
  have hruns : Relation.ReflTransGen (Cache.Becomes ⟨"cache"⟩) tree last.files :=
    .single (.ran rfl hnow hrun)
  have hkept := Session.isKept_of_auditFileBy?_eq_ok hunused.hasFolder hnow hkeeps haudited hclean hplan
    chunk List.mem_cons_self .security List.mem_cons_self
  obtain ⟨entry, hfound⟩ : ∃ entry, Cache.lookup ⟨"cache"⟩ last.files
      (quietSession.issueReview true chunk .security).key.fingerprint = some entry := by
    obtain ⟨value, hvalue⟩ := Option.isSome_iff_exists.mp hkept
    obtain ⟨_, hvalue, -⟩ := Option.bind_eq_some_iff.mp hvalue
    obtain ⟨entry, hfound, -⟩ := Option.map_eq_some_iff.mp hvalue
    use entry, hfound
  obtain ⟨-, husable, hreports⟩ := isUsable_of_runs hunused.hasFolder hunused.isEmpty hruns
  obtain ⟨audits, later, hmute⟩ := Session.exists_auditChunksBy?_muteSession
  obtain ⟨-, hparts⟩ := (hreports Session.muteSession true [quietChunk] [0, 0, 0, 0, 0]
    (quietWorld lineTree) later).1 [.security] (.ok audits) hmute
  obtain ⟨part, hmade, hpart⟩ := hparts audits rfl
  have hvalid := (isRegular_issueReview quietSession true chunk .security).isValid
  use tree, last.files, (quietSession.issueReview true chunk .security).key.fingerprint, entry, audits,
    later, hopen, hruns, hfound
  use husable _ hvalid entry hfound, hmute, part, hmade
  apply hpart 0 0 _ _ rfl Session.failsOn_muteSession

end Scrutiny
