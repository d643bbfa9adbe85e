import Scrutiny.Proofs.Review.Regular
import Scrutiny.Proofs.Schedule.Determinate
import Scrutiny.Proofs.Schedule.Sequence
import Scrutiny.Review.Concurrent

/-!
# Audits in any order

If the replies of the model depend on the question alone, an audit of some chunks gives the same in
every order of its steps, namely what it gives if one review is carried out after the other.
-/

namespace Scrutiny

variable {μ : Type} {world next : World μ}

/-! ### One review after the other -/

namespace Session

variable (session : Session μ) (refresh : Bool) (reviewers : List Reviewer)

theorem mem_auditReviews_iff {session : Session μ} {refresh : Bool} {reviewers : List Reviewer}
    {chunks : List Chunk} {review : CachedReview μ (List Issue)} :
  review ∈ session.auditReviews refresh reviewers chunks
    ↔ ∃ chunk ∈ chunks, ∃ reviewer ∈ reviewers, session.issueReview refresh chunk reviewer = review
  := by
  rw [auditReviews, List.mem_flatMap]
  apply exists_congr
  intro chunk
  rw [List.mem_map]

/-- All reviews of some chunks, and what was found in each chunk. -/
theorem mapM_reviewByAll_eq (chunks : List Chunk) (world : World μ) :
  (chunks.mapM fun chunk => do return (chunk, ← session.reviewByAll refresh reviewers chunk)) world
    = match (session.auditReviews refresh reviewers chunks).mapM session.perform world with
      | (.ok found, next) => (.ok (regroup reviewers.length chunks found), next)
      | (.error e, next) => (.error e, next)
  := by
  induction chunks generalizing world with
  | nil => rfl
  | cons chunk rest ih =>
      have hreviews : session.auditReviews refresh reviewers (chunk :: rest)
          = reviewers.map (session.issueReview refresh chunk)
            ++ session.auditReviews refresh reviewers rest := List.flatMap_cons
      rw [hreviews, List.mapM_append, List.mapM_map, List.mapM_cons]
      have hchunk : reviewers.mapM (session.perform ∘ session.issueReview refresh chunk)
          = reviewers.mapM (session.reviewChunk refresh chunk) := rfl
      rw [hchunk]
      rcases hfirst : reviewers.mapM (session.reviewChunk refresh chunk) world with ⟨e | issues, middle⟩
      · have hall : session.reviewByAll refresh reviewers chunk world = (.error e, middle) := by
          rw [reviewByAll, ReviewAction.bind_of_error _ hfirst]
        have hpair : (do return (chunk, ← session.reviewByAll refresh reviewers chunk) :
            ReviewAction μ (Chunk × List Issue)) world = (.error e, middle) :=
          ReviewAction.bind_of_error _ hall
        rw [ReviewAction.bind_of_error _ hpair, ReviewAction.bind_of_error _ hfirst]
      · have hall : session.reviewByAll refresh reviewers chunk world = (.ok issues.flatten, middle) := by
          rw [reviewByAll, ReviewAction.bind_of_ok _ hfirst]
          rfl
        have hpair : (do return (chunk, ← session.reviewByAll refresh reviewers chunk) :
            ReviewAction μ (Chunk × List Issue)) world = (.ok (chunk, issues.flatten), middle) :=
          ReviewAction.bind_of_ok _ hall
        rw [ReviewAction.bind_of_ok _ hpair, ReviewAction.bind_of_ok _ hfirst]
        have hlength := ReviewAction.length_of_mapM_eq_ok hfirst
        have hrest := ih middle
        rcases hothers : (session.auditReviews refresh reviewers rest).mapM session.perform middle
          with ⟨e | found, last⟩
        · rw [hothers] at hrest
          rw [ReviewAction.bind_of_error _ hrest, ReviewAction.bind_of_error _ hothers]
        · rw [hothers] at hrest
          rw [ReviewAction.bind_of_ok _ hrest, ReviewAction.bind_of_ok _ hothers]
          change (Except.ok (_ :: _), last) = (Except.ok (regroup _ (_ :: _) (issues ++ found)), last)
          rw [regroup, List.take_left' hlength, List.drop_left' hlength]

/-- An audit carries out all reviews, one after the other, and puts together what they have found. -/
theorem auditChunks_eq (chunks : List Chunk) (world : World μ) :
  session.auditChunks refresh reviewers chunks world
    = conclude reviewers.length chunks
        ((session.auditReviews refresh reviewers chunks).mapM session.perform world).1
        ((session.auditReviews refresh reviewers chunks).mapM session.perform world).2
  := by
  have hall := session.mapM_reviewByAll_eq refresh reviewers chunks world
  rcases hfound : (session.auditReviews refresh reviewers chunks).mapM session.perform world
    with ⟨e | found, last⟩
  · rw [hfound] at hall
    rw [auditChunks, ReviewAction.bind_of_error _ hall]
    rfl
  · rw [hfound] at hall
    rw [auditChunks, ReviewAction.bind_of_ok _ hall]
    rfl

/-- The outcome of an audit by some steps is that of its reviews. -/
theorem auditChunksBy?_eq_some_iff {chunks : List Chunk} {order : List Nat} {world : World μ}
    {audited : Except ReviewError (List ChunkAudit) × World μ} :
  session.auditChunksBy? refresh reviewers chunks order world = some audited
    ↔ ∃ last outcome,
      (Schedule.ofJobs session world ((session.auditReviews refresh reviewers chunks).map .review)).run?
          session order = some last
        ∧ last.outcome? = some outcome
        ∧ conclude reviewers.length chunks outcome last.world = audited
  := by
  rw [auditChunksBy?]
  constructor
  · intro h
    obtain ⟨last, hrun, h⟩ := Option.bind_eq_some_iff.mp h
    obtain ⟨outcome, houtcome, h⟩ := Option.bind_eq_some_iff.mp h
    exact ⟨last, outcome, hrun, houtcome, Option.some.inj h⟩
  · rintro ⟨last, outcome, hrun, houtcome, rfl⟩
    apply Option.bind_eq_some_iff.mpr
    use last, hrun
    apply Option.bind_eq_some_iff.mpr
    use outcome, houtcome
    rfl

/-- An audit that carries out one review after the other is one of those by any steps. -/
theorem exists_auditChunksBy?_eq (chunks : List Chunk) (world : World μ) :
  ∃ order, session.auditChunksBy? refresh reviewers chunks order world
    = some (session.auditChunks refresh reviewers chunks world)
  := by
  obtain ⟨order, last, hrun, hworld, houtcome⟩ :=
    Schedule.exists_run?_eq_mapM session world (session.auditReviews refresh reviewers chunks)
  use order
  apply (session.auditChunksBy?_eq_some_iff refresh reviewers).mpr
  exact ⟨last, _, hrun, houtcome, by rw [auditChunks_eq, hworld]⟩

/-- Every audit that was begun can be brought to its end. -/
theorem exists_isSome_auditChunksBy? {chunks : List Chunk} {world : World μ} {order : List Nat}
    {state : Schedule μ (List Issue)}
    (h : (Schedule.ofJobs session world
      ((session.auditReviews refresh reviewers chunks).map .review)).run? session order = some state) :
  ∃ later, (session.auditChunksBy? refresh reviewers chunks (order ++ later) world).isSome
  := by
  have hsound := Schedule.sound_of_run? (Schedule.sound_ofJobs session world _) h
  obtain ⟨later, last, hrun, hover⟩ := hsound.exists_isOver
  obtain ⟨outcome, houtcome⟩ :=
    Option.isSome_iff_exists.mp (Schedule.isSome_outcome?_of_isOver hover)
  use later
  apply Option.isSome_iff_exists.mpr
  use conclude reviewers.length chunks outcome last.world
  apply (session.auditChunksBy?_eq_some_iff refresh reviewers).mpr
  use last, outcome
  use (by rw [Schedule.run?_append, h]; exact hrun), houtcome

/-! ### What an audit is made of -/

/-- The audit of a chunk in which some issues were found, if all lines can be counted. -/
def auditOf? (chunk : Chunk) (issues : List Issue) : Option ChunkAudit :=
  (issues.mapM (Issue.resolved? · chunk.startLine)).map fun resolved =>
    { chunkId := chunk.id, startLine := chunk.startLine, issues := resolved }

theorem resolve_eq (chunk : Chunk) (issues : List Issue) (world : World μ) :
  resolve chunk issues world
    = match auditOf? chunk issues with
      | some audit => (.ok audit, world)
      | none => (.error .lineOverflow, world)
  := by
  rw [resolve, auditOf?]
  cases issues.mapM (Issue.resolved? · chunk.startLine) <;> rfl

/-- The audits of chunks, if all lines can be counted. -/
theorem conclude_eq (count : Nat) (chunks : List Chunk) (found : List (List Issue)) (world : World μ) :
  conclude count chunks (.ok found) world
    = match (regroup count chunks found).mapM fun pair => auditOf? pair.1 pair.2 with
      | some audits => (.ok audits, world)
      | none => (.error .lineOverflow, world)
  := by
  rw [conclude]
  induction regroup count chunks found with
  | nil => rfl
  | cons pair rest ih =>
      rw [List.mapM_cons, List.mapM_cons]
      have hpair := resolve_eq pair.1 pair.2 world
      cases haudit : auditOf? pair.1 pair.2 with
      | none =>
          rw [haudit] at hpair
          exact ReviewAction.bind_of_error _ hpair
      | some audit =>
          rw [haudit] at hpair
          rw [ReviewAction.bind_of_ok _ hpair]
          cases haudits : rest.mapM fun pair => auditOf? pair.1 pair.2 with
          | none =>
              rw [haudits] at ih
              exact ReviewAction.bind_of_error _ ih
          | some audits =>
              rw [haudits] at ih
              exact ReviewAction.bind_of_ok _ ih

/-- The audits are put together without a look at the world. -/
theorem conclude_ok_eq {ν : Type} (count : Nat) (chunks : List Chunk) (found : List (List Issue))
    (world : World μ) (world' : World ν) :
  conclude count chunks (.ok found) world = ((conclude count chunks (.ok found) world').1, world)
  := by
  rw [conclude_eq, conclude_eq]
  cases (regroup count chunks found).mapM fun pair => auditOf? pair.1 pair.2 <;> rfl

theorem snd_conclude (count : Nat) (chunks : List Chunk)
    (outcome : Except ReviewError (List (List Issue))) (world : World μ) :
  (conclude count chunks outcome world).2 = world
  := by
  cases outcome with
  | error e => rfl
  | ok found => rw [conclude_ok_eq count chunks found world world]

/-- There is one audit for each chunk, with its id. -/
theorem map_chunkId_of_conclude {count : Nat} {chunks : List Chunk} {found : List (List Issue)}
    {world : World μ} {audits : List ChunkAudit}
    (h : (conclude count chunks (.ok found) world).1 = .ok audits) :
  audits.map (·.chunkId) = chunks.map (·.id)
  := by
  have hgroups : (regroup count chunks found).map (·.1.id) = chunks.map (·.id) := by
    clear h
    induction chunks generalizing found with
    | nil => rfl
    | cons chunk rest ih => rw [regroup, List.map_cons, List.map_cons, ih]
  rw [conclude_eq] at h
  cases haudits : (regroup count chunks found).mapM fun pair => auditOf? pair.1 pair.2 with
  | none =>
      rw [haudits] at h
      cases h
  | some audits' =>
      rw [haudits] at h
      rw [← Except.ok.inj h, ← hgroups, ← List.forall₂_eq_eq_eq, List.forall₂_map_left_iff,
        List.forall₂_map_right_iff]
      apply (mapM_eq_some_iff.mp haudits).flip.imp
      intro audit pair hof
      obtain ⟨resolved, -, rfl⟩ := Option.map_eq_some_iff.mp hof
      rfl

theorem length_of_conclude {count : Nat} {chunks : List Chunk} {found : List (List Issue)}
    {world : World μ} {audits : List ChunkAudit}
    (h : (conclude count chunks (.ok found) world).1 = .ok audits) :
  audits.length = chunks.length
  := by
  rw [← List.length_map, map_chunkId_of_conclude h, List.length_map]

/-- What each auditor gives about each chunk if it is alone, put together chunk by chunk. -/
theorem forall₂_regroup {chunks : List Chunk} {found : List (List Issue)} {world : World μ}
    (h : List.Forall₂ (fun review issues => CachedReview.resultAlone review session world = .ok issues)
      (session.auditReviews refresh reviewers chunks) found) :
  List.Forall₂ (fun chunk pair => chunk = pair.1 ∧ ∃ lists,
      List.Forall₂ (fun reviewer issues =>
        (session.reviewChunk refresh chunk reviewer world).1 = .ok issues) reviewers lists
      ∧ pair.2 = lists.flatten)
    chunks (regroup reviewers.length chunks found)
  := by
  induction chunks generalizing found with
  | nil => exact .nil
  | cons chunk rest ih =>
      have hreviews : session.auditReviews refresh reviewers (chunk :: rest)
          = reviewers.map (session.issueReview refresh chunk)
            ++ session.auditReviews refresh reviewers rest := List.flatMap_cons
      rw [hreviews] at h
      have hfirst := List.forall₂_take reviewers.length h
      have hothers := List.forall₂_drop reviewers.length h
      rw [List.take_left' (List.length_map _), List.forall₂_map_left_iff] at hfirst
      rw [List.drop_left' (List.length_map _)] at hothers
      exact .cons ⟨rfl, _, hfirst, rfl⟩ (ih hothers)

/-! ### Audits of files -/

theorem planFor_of_canonical {path : String} {tree : FileTree} {file : String}
    (h : tree.canonical path = .ok file) (root : String) :
  session.planFor path root tree
    = ((chunkFileGuarded session.chunkConfig tree file ((tree.canonical root).toOption.getD root)).mapError
        .chunking).map fun outcome => (file, outcome)
  := by
  rw [planFor, h]
  rfl

/-- An audit of a file plans what is to be done, and does it. -/
theorem auditFile_eq (path root : String) (force : Bool) (world : World μ) :
  session.auditFile path root force world
    = match session.planFor path root world.files with
      | .error e => (.error e, world)
      | .ok (file, outcome) =>
        let degraded := outcome.degraded.map ChunkError.message
        if outcome.chunks.isEmpty then (.ok { file, chunks := [], degraded }, world)
        else
          match session.forget force outcome.chunks world with
          | (.error e, left) => (.error e, left)
          | (.ok (), left) =>
            let (audited, last) := session.auditChunks force Reviewer.auditors outcome.chunks left
            (audited.map fun chunks => { file, chunks, degraded }, last)
  := by
  have hlook : ReviewAction.look (·.canonical path) world = (.ok (world.files.canonical path), world) :=
    rfl
  rw [auditFile, ReviewAction.bind_of_ok _ hlook]
  cases hcanonical : world.files.canonical path with
  | error e =>
      rw [planFor, hcanonical]
      rfl
  | ok file =>
      rw [session.planFor_of_canonical hcanonical]
      have hfile : ReviewAction.ofExcept (fun e : FileError => ReviewError.badPath path e.message)
          (.ok file) world = (.ok file, world) := rfl
      have hbase : ReviewAction.look (fun tree => (tree.canonical root).toOption.getD root) world
          = (.ok ((world.files.canonical root).toOption.getD root), world) := rfl
      rw [ReviewAction.bind_of_ok _ hfile, ReviewAction.bind_of_ok _ hbase]
      generalize (world.files.canonical root).toOption.getD root = base
      have hchunks : session.chunks file base world
          = ((chunkFileGuarded session.chunkConfig world.files file base).mapError .chunking, world) := rfl
      cases houtcome : (chunkFileGuarded session.chunkConfig world.files file base).mapError
          ReviewError.chunking with
      | error e =>
          rw [houtcome] at hchunks
          rw [ReviewAction.bind_of_error _ hchunks]
          rfl
      | ok outcome =>
          rw [houtcome] at hchunks
          rw [ReviewAction.bind_of_ok _ hchunks]
          dsimp only [Except.map]
          split
          · rfl
          · have hrest (left : World μ) := ReviewAction.bind_pure_eq
              (session.auditChunks force Reviewer.auditors outcome.chunks)
              (fun chunks => FileAudit.mk file chunks (outcome.degraded.map ChunkError.message)) left
            cases force with
            | true =>
                change (session.forget true outcome.chunks >>= fun _ => _) world = _
                rcases hforget : session.forget true outcome.chunks world with ⟨e | ⟨⟩, left⟩
                · rw [ReviewAction.bind_of_error _ hforget]
                · rw [ReviewAction.bind_of_ok _ hforget]
                  apply hrest
            | false => apply hrest

/-- An audit that uses what is in the cache begins with its reviews at once. -/
theorem auditFileBy?_of_planFor {path root : String} {world : World μ} {file : String}
    {outcome : ChunkOutcome} (h : session.planFor path root world.files = .ok (file, outcome))
    (order : List Nat) :
  session.auditFileBy? path root false order world
    = let audit (chunks : List ChunkAudit) : FileAudit :=
        { file, chunks, degraded := outcome.degraded.map ChunkError.message }
      if outcome.chunks.isEmpty then some (.ok (audit []), world)
      else (session.auditChunksBy? false Reviewer.auditors outcome.chunks order world).map
        fun (audited, last) => (audited.map audit, last)
  := by
  rw [auditFileBy?, h]
  rfl

/-- The audit of a file that carries out one review after the other is one of those by any steps. -/
theorem exists_auditFileBy?_eq (path root : String) (force : Bool) (world : World μ) :
  ∃ order, session.auditFileBy? path root force order world
    = some (session.auditFile path root force world)
  := by
  rw [auditFile_eq]
  simp only [auditFileBy?]
  cases session.planFor path root world.files with
  | error e => exact ⟨[], rfl⟩
  | ok plan =>
      obtain ⟨file, outcome⟩ := plan
      dsimp only
      cases outcome.chunks.isEmpty with
      | true => exact ⟨[], rfl⟩
      | false =>
          rcases session.forget force outcome.chunks world with ⟨e | ⟨⟩, left⟩
          · exact ⟨[], rfl⟩
          · obtain ⟨order, horder⟩ :=
              session.exists_auditChunksBy?_eq force Reviewer.auditors outcome.chunks left
            use order
            dsimp only
            rw [horder]
            rfl

end Session

end Scrutiny
