import Scrutiny.Proofs.Cache.HoldsOnly
import Scrutiny.Proofs.Cache.Listed
import Scrutiny.Proofs.Schedule.Contents
import Scrutiny.Proofs.Schedule.Sequence

/-!
# What a schedule does to the files

Which files the reviews of a schedule leave alone, what they put into the cache, and what they list.
-/

namespace Scrutiny

variable {μ α : Type} {session : Session μ}

/-!
## What schedules spare

The reviews of a schedule write files of the cache only, in any order and whatever comes of them.
-/

variable {spared : Set (List String)}

/-- A move of a review leaves all files as they were that are no files of the cache. -/
theorem Move.spares {world world' : World μ} {review : CachedReview μ α} {phase phase' : JobPhase α}
    (h : session.cache.IsApart spared) (hsound : world.files.Sound)
    (hvalid : review.key.fingerprint.IsValid)
    (hmove : Move session world (.review review) phase world' phase') :
  FileTree.Spares spared world.files world'.files
  := by
  have hsame {files : FileTree} (heq : files = world.files) : FileTree.Spares spared world.files files := by
    rw [heq]
    apply FileTree.Spares.refl hsound
  cases hmove with
  | usable hask | fatal hask => exact hsame (World.files_of_ask hask)
  | useless hask | failure hask =>
      apply hsame
      rw [World.countFailure]
      apply World.files_of_ask hask
  | @kept _ _ kept _ hwrite | @notKept _ _ kept _ _ hwrite =>
      have hwritten := FileAction.Spares.writeJson (session.cache.fileName?_entryPath hvalid)
        (h.entry _ hvalid) (CacheEntry.ofKey review.key kept session.clock.seconds).toJson _ hsound
      rw [hwrite] at hwritten
      apply hwritten
  | listed hadd =>
      have hlisted := h.spares_addToIndex review.key.indexId review.key.fingerprint _ hsound
      rw [hadd] at hlisted
      apply hlisted
  | _ => exact hsame rfl

/-- Reviews leave all files as they were that are no files of the cache, in any order. -/
theorem Schedule.spares_of_run? {world : World μ} {reviews : List (CachedReview μ α)}
    (h : session.cache.IsApart spared) (hsound : world.files.Sound)
    (hvalid : ∀ review ∈ reviews, review.key.fingerprint.IsValid) {order : List Nat}
    {last : Schedule μ α}
    (hrun : (ofJobs session world (reviews.map .review)).run? session order = some last) :
  FileTree.Spares spared world.files last.world.files
  := by
  have hinvariant : last.jobs.map Prod.fst = reviews.map Job.review
      ∧ FileTree.Spares spared world.files last.world.files := by
    apply of_run? (P := fun state => state.jobs.map Prod.fst = reviews.map Job.review
      ∧ FileTree.Spares spared world.files state.world.files) _ _ hrun
    · rintro i - state next ⟨hjobs, hspares⟩ hstep
      use (by rw [map_fst_of_step? hstep, hjobs])
      obtain ⟨job, phase, hjob, world', phase', hmove, -, rfl⟩ := step?_eq_some_iff.mp hstep
      obtain ⟨review, hreview, rfl⟩ := exists_review_of_getElem? hjobs hjob
      apply hspares.trans
      apply hmove.spares h hspares.sound (hvalid review hreview)
    · use map_fst_ofJobs session world _
      apply FileTree.Spares.refl hsound
  apply hinvariant.2

/-!
## What a schedule puts into the cache

If all that the reviews of a schedule keep has a property, the cache holds only entries with this
property after any steps, whatever replies come and whichever of the reviews fail.
-/

variable {P : CacheEntry → Prop}

/-- All entries that a review keeps at a time have a property. -/
structure CachedReview.KeepsOnly (P : CacheEntry → Prop) (now : Nat) (review : CachedReview μ α) :
    Prop where
  isValid : review.key.fingerprint.IsValid
  readsOnly : ∀ model result kept, (review.ask model).result = .ok (.usable result kept) →
    Cache.ReadsOnly P (CacheEntry.ofKey review.key kept now).bytes

/-- After any move, the cache holds only entries with the property. -/
theorem Move.holdsOnly {world world' : World μ} {job : Job μ α} {phase phase' : JobPhase α}
    (h : session.cache.HoldsOnly P world.files)
    (hkept : ∀ review result kept, job = .review review → phase = .keeping result kept →
      review.key.fingerprint.IsValid
        ∧ Cache.ReadsOnly P (CacheEntry.ofKey review.key kept session.clock.seconds).bytes)
    (hmove : Move session world job phase world' phase') :
  session.cache.HoldsOnly P world'.files
  := by
  cases hmove with
  | usable hask | fatal hask =>
      rw [World.files_of_ask hask]
      apply h
  | useless hask | failure hask =>
      rw [World.countFailure, World.files_of_ask hask]
      apply h
  | @kept review result kept _ hwrite | @notKept review result kept _ _ hwrite =>
      obtain ⟨hvalid, hentry⟩ := hkept review result kept rfl rfl
      have hwritten := h.writeJson_entryPath hvalid hentry
      rw [hwrite] at hwritten
      apply hwritten
  | @listed review _ _ _ hadd =>
      have hlisted := h.addToIndex review.key.indexId review.key.fingerprint
      rw [hadd] at hlisted
      apply hlisted
  | @removed chunkId _ _ _ hremove | @notRemoved chunkId _ _ _ hremove =>
      have hremoved := h.invalidate chunkId
      rw [hremove] at hremoved
      apply hremoved
  | _ => apply h

namespace Schedule

variable {state next : Schedule μ α} {i : Nat}

/-- The cache holds only entries with a property, and the reviews keep only such ones. -/
structure HoldsOnly (session : Session μ) (P : CacheEntry → Prop) (state : Schedule μ α) : Prop where
  holdsOnly : session.cache.HoldsOnly P state.world.files
  keepsOnly : ∀ (i : Nat) (review : CachedReview μ α) (phase : JobPhase α),
    state.jobs[i]? = some (.review review, phase) → review.KeepsOnly P session.clock.seconds
  usable : ∀ (i : Nat) (review : CachedReview μ α) (result : α) (kept : Json),
    state.jobs[i]? = some (.review review, .keeping result kept) →
    ∃ model, (review.ask model).result = .ok (.usable result kept)

theorem holdsOnly_ofJobs {world : World μ} {jobs : List (Job μ α)}
    (h : session.cache.HoldsOnly P world.files)
    (hreviews : ∀ review, Job.review review ∈ jobs → review.KeepsOnly P session.clock.seconds) :
  (ofJobs session world jobs).HoldsOnly session P
  := by
  constructor
  · apply h
  · intro i review phase hjob
    obtain ⟨job, hmem, heq⟩ := List.mem_map.mp (List.mem_of_getElem? hjob)
    obtain ⟨rfl, -⟩ := Prod.mk.inj heq
    apply hreviews review hmem
  · intro i review result kept hjob
    cases phase_eq_idle_of_ofJobs hjob

theorem holdsOnly_of_step? (h : state.HoldsOnly session P) (hstep : state.step? session i = some next) :
  next.HoldsOnly session P
  := by
  obtain ⟨job, phase, hjob, world, phase', hmove, -, rfl⟩ := step?_eq_some_iff.mp hstep
  constructor
  · apply hmove.holdsOnly h.holdsOnly
    rintro review result kept rfl rfl
    have hkeeps := h.keepsOnly i review _ hjob
    obtain ⟨model, hask⟩ := h.usable i review result kept hjob
    exact ⟨hkeeps.isValid, hkeeps.readsOnly model result kept hask⟩
  · intro j review later hlater
    rcases of_getElem?_withPhase hjob hlater with ⟨-, rfl, -⟩ | ⟨-, hlater⟩
    · apply h.keepsOnly i review phase hjob
    · apply h.keepsOnly j review later hlater
  · intro j review result kept hlater
    rcases of_getElem?_withPhase hjob hlater with ⟨-, rfl, rfl⟩ | ⟨-, hlater⟩
    · cases hmove with
      | usable hask =>
          use state.world.model
          apply congrArg Prod.fst hask
    · apply h.usable j review result kept hlater

theorem holdsOnly_of_run? {world : World μ} {reviews : List (CachedReview μ α)} {order : List Nat}
    (h : session.cache.HoldsOnly P world.files)
    (hreviews : ∀ review ∈ reviews, review.KeepsOnly P session.clock.seconds)
    (hrun : (ofJobs session world (reviews.map .review)).run? session order = some state) :
  session.cache.HoldsOnly P state.world.files
  := by
  have hstart : (ofJobs session world (reviews.map Job.review)).HoldsOnly session P := by
    apply holdsOnly_ofJobs h
    intro review hreview
    obtain ⟨other, hother, heq⟩ := List.mem_map.mp hreview
    obtain rfl := Job.review.inj heq
    apply hreviews other hother
  apply HoldsOnly.holdsOnly
  apply of_run? _ hstart hrun
  intro i _ middle later hmiddle hstep
  apply holdsOnly_of_step? hmiddle hstep

end Schedule

/-!
## What a schedule lists

While reviews run, no list of the cache loses a fingerprint.  So a result that was stored by one of them
is listed from then on.
-/

/-- A move of a review takes nothing from the lists. -/
theorem Move.grows {world world' : World μ} {review : CachedReview μ α} {phase phase' : JobPhase α}
    (hroot : world.files.HasFolder session.cache.root) (hvalid : review.key.fingerprint.IsValid)
    (hmove : Move session world (.review review) phase world' phase') :
  session.cache.Grows world.files world'.files
  := by
  have hsame {files : FileTree} (heq : files = world.files) : session.cache.Grows world.files files := by
    rw [heq]
    apply Cache.Grows.refl hroot
  cases hmove with
  | usable hask | fatal hask => exact hsame (World.files_of_ask hask)
  | useless hask | failure hask =>
      apply hsame
      rw [World.countFailure]
      apply World.files_of_ask hask
  | kept hwrite | notKept hwrite => exact Cache.grows_of_writeJson_entryPath hroot hvalid hwrite
  | listed hadd => exact (Cache.grows_of_addToIndex hroot hadd).1
  | _ => exact hsame rfl

namespace Schedule

variable {reviews : List (CachedReview μ α)} {review : CachedReview μ α} {state next last : Schedule μ α}
  {i : Nat} {order : List Nat}

/-- The next step of a job lists the result of a review, which was written before. -/
def Lists (session : Session μ) (review : CachedReview μ α) (state : Schedule μ α) (i : Nat) : Prop :=
  ∃ result files, state.jobs[i]? = some (.review review, .indexing (some result))
    ∧ session.cache.addToIndex review.key.indexId review.key.fingerprint state.world.files
      = (.ok (), files)

/-- One of some steps completes the storing of the result of a review. -/
def Stores (session : Session μ) (review : CachedReview μ α) : Schedule μ α → List Nat → Prop
  | _, [] => False
  | state, i :: rest => state.Lists session review i
    ∨ ∃ next, state.step? session i = some next ∧ Stores session review next rest

/-- All jobs are reviews, and the folder of the cache is there. -/
structure IsOfReviews (session : Session μ) (reviews : List (CachedReview μ α)) (state : Schedule μ α) :
    Prop where
  jobs_eq : state.jobs.map Prod.fst = reviews.map Job.review
  hasFolder : state.world.files.HasFolder session.cache.root
  isValid : ∀ review ∈ reviews, review.key.fingerprint.IsValid

theorem IsOfReviews.of_step? (h : state.IsOfReviews session reviews)
    (hstep : state.step? session i = some next) :
  next.IsOfReviews session reviews ∧ session.cache.Grows state.world.files next.world.files
  := by
  have hjobs := (map_fst_of_step? hstep).trans h.jobs_eq
  obtain ⟨job, phase, hjob, world, phase', hmove, -, rfl⟩ := step?_eq_some_iff.mp hstep
  obtain ⟨review, hreview, rfl⟩ := exists_review_of_getElem? h.jobs_eq hjob
  have hgrows := hmove.grows h.hasFolder (h.isValid review hreview)
  exact ⟨⟨hjobs, hgrows.hasFolder, h.isValid⟩, hgrows⟩

theorem IsOfReviews.of_run? (h : state.IsOfReviews session reviews)
    (hrun : state.run? session order = some last) :
  last.IsOfReviews session reviews ∧ session.cache.Grows state.world.files last.world.files
  := by
  apply Schedule.of_run? (P := fun middle => middle.IsOfReviews session reviews
    ∧ session.cache.Grows state.world.files middle.world.files) _ ⟨h, .refl h.hasFolder⟩ hrun
  rintro i - middle later ⟨hmiddle, hgrows⟩ hstep
  obtain ⟨hlater, hgrows'⟩ := hmiddle.of_step? hstep
  exact ⟨hlater, hgrows.trans hgrows'⟩

/-- A step that lists a result puts it on its list. -/
theorem Lists.mem_listOf (h : state.Lists session review i)
    (hroot : state.world.files.HasFolder session.cache.root)
    (hstep : state.step? session i = some next) :
  review.key.fingerprint.text ∈ (session.cache.listOf next.world.files review.key.indexId).fingerprints
  := by
  obtain ⟨result, files, hjob, hadd⟩ := h
  obtain ⟨world, phase', hmove, rfl⟩ := exists_move_of_step? hjob hstep
  cases hmove with
  | listed hadd' =>
      obtain ⟨-, rfl⟩ := Prod.mk.inj (hadd.symm.trans hadd')
      apply (Cache.grows_of_addToIndex hroot hadd).2 rfl

/-- A result that was stored in a run is that of one of the reviews, and is listed at the end. -/
theorem IsOfReviews.of_stores (h : state.IsOfReviews session reviews)
    (hstores : Stores session review state order) (hrun : state.run? session order = some last) :
  review ∈ reviews ∧ review.key.fingerprint.text
    ∈ (session.cache.listOf last.world.files review.key.indexId).fingerprints
  := by
  induction order generalizing state with
  | nil => cases hstores
  | cons i rest ih =>
      obtain ⟨next, hstep, hrest⟩ := Option.bind_eq_some_iff.mp hrun
      obtain ⟨hnext, -⟩ := h.of_step? hstep
      rcases hstores with hlists | ⟨next', hstep', hstores⟩
      · obtain ⟨-, hgrows⟩ := hnext.of_run? hrest
        have hmem := hlists.mem_listOf h.hasFolder hstep
        obtain ⟨result, files, hjob, -⟩ := hlists
        use mem_of_getElem? h.jobs_eq hjob
        apply hgrows.subset _ hmem
      · obtain rfl := Option.some.inj (hstep.symm.trans hstep')
        apply ih hnext hstores hrest

/-! ### Reviews that store their results -/

theorem Stores.append (h : Stores session review state order) (later : List Nat) :
  Stores session review state (order ++ later)
  := by
  induction order generalizing state with
  | nil => cases h
  | cons i rest ih =>
      rcases h with hlists | ⟨next, hstep, hrest⟩
      · exact .inl hlists
      · exact .inr ⟨next, hstep, ih hrest⟩

theorem stores_append {middle : Schedule μ α} (hrun : state.run? session order = some middle)
    {later : List Nat} (h : Stores session review middle later) :
  Stores session review state (order ++ later)
  := by
  induction order generalizing state with
  | nil =>
      obtain rfl := Option.some.inj hrun
      apply h
  | cons i rest ih =>
      obtain ⟨next, hstep, hrest⟩ := Option.bind_eq_some_iff.mp hrun
      exact .inr ⟨next, hstep, ih hrest⟩

/-- A review stores its result in some run if there is none, the model has a usable reply, and this can be
stored. -/
theorem exists_stores {world asked : World μ} {rest : List (CachedReview μ α)}
    (hfound : review.found? session.cache world.files = none) {result : α} {kept : Json}
    (hask : world.ask review.ask = (.ok (.usable result kept), asked)) {entry : CacheEntry}
    {files : FileTree}
    (hstore : session.cache.store review.key kept session.clock.seconds asked.files = (.ok entry, files)) :
  let start := ofJobs session world ((review :: rest).map .review)
  ∃ order last, start.run? session order = some last ∧ Stores session review start order
  := by
  intro start
  obtain ⟨_, written, hwrite, hlist⟩ := FileAction.bind_eq_ok hstore
  obtain ⟨_, listed, hadd, -⟩ := FileAction.bind_eq_ok hlist
  have hstart : start.jobs = finishedWith [] ++ waiting (review :: rest) := List.map_map
  have hreaches : Reaches session review (world, .idle)
      ({ asked with files := written }, .indexing (some result)) := by
    apply (reaches_searching session review world).trans
    apply (Move.miss hfound).reaches.trans
    apply Move.permit.reaches.trans
    apply (Move.usable hask).reaches.trans
    exact (Move.kept hwrite).reaches.trans Move.takeIndex.reaches
  obtain ⟨order, final, hrun, -, hworld, hjobs⟩ :=
    (sound_ofJobs session world _).exists_run?_of_reaches (isQuietBut_length hstart) rfl hreaches
  have hjob : final.jobs[0]? = some (.review review, .indexing (some result)) := by
    rw [hjobs]
    rfl
  have hlists : final.Lists session review 0 := by
    use result, listed, hjob
    rw [hworld]
    apply hadd
  obtain ⟨last, hstep⟩ : ∃ last, final.step? session 0 = some last := by
    rw [step?, hjob]
    exact ⟨_, rfl⟩
  use order ++ [0], last
  constructor
  · rw [run?_append, hrun, Option.bind_some, run?, hstep]
    rfl
  · exact stores_append hrun (.inl hlists)

end Schedule

end Scrutiny
