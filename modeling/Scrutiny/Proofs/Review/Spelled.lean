import Scrutiny.Proofs.Cache.Listed
import Scrutiny.Proofs.Chunk.Ids
import Scrutiny.Proofs.Files.Spelling
import Scrutiny.Proofs.Review.Beside
import Scrutiny.Proofs.Review.Forced
import Scrutiny.Proofs.Review.Project
import Scrutiny.Proofs.Review.Runs
import Scrutiny.Proofs.Schedule.Files

/-!
# Spellings of an audited file

What an audit of a single file does depends on the place of the file, not on the path that tells it, as
long as this path is more than the name of the file.  The ids of its chunks are made of this name and of
theirs, so a forced audit removes what another audit of the file has stored, however each of them spells
the file.
-/

namespace Scrutiny

open Scrutiny.Path

variable {μ ν : Type}

/-! ### Files at their places -/

theorem FileTree.Spells.of_spares {tree next : FileTree} {path : String} {names : List String}
    {spared : Set (List String)} (h : tree.Spells path names) (hspares : Spares spared tree next)
    (hnames : names ∈ spared) :
  next.Spells path names
  := by
  use resolve_of_keeps hspares.toKeeps h.resolve_eq
  · rw [hspares.file?_eq names hnames]
    apply h.isSome_file?
  · apply h.slash

theorem isNamedIn_of_mem_chunkFileGuarded {config : ChunkConfig} {tree : FileTree} {path root : String}
    {outcome : ChunkOutcome} (h : chunkFileGuarded config tree path root = .ok outcome) :
  ∀ chunk ∈ outcome.chunks, chunk.IsNamedIn (relativeTo path root)
  := by
  rw [chunkFileGuarded, readSource] at h
  cases hread : tree.read path with
  | error e =>
      rw [hread] at h
      cases h
  | ok bytes =>
      rw [hread] at h
      simp only [Except.bind, bind, pure, Except.pure] at h
      split at h
      · obtain rfl := Except.ok.inj h
        intro chunk hchunk
        cases hchunk
      · apply isNamedIn_of_mem_chunkGuarded h

namespace Session

variable {session : Session μ} {again : Session ν} {path other name : String} {front : List String}
  {tree next : FileTree} {force : Bool} {out : Option String} {world later : World μ}

/-- What is audited of the file with some name in a folder. -/
def planAt (session : Session μ) (front : List String) (name : String) (tree : FileTree) :
    Except ReviewError (String × ChunkOutcome) :=
  ((chunkFileGuarded session.chunkConfig tree (absolute (front ++ [name])) (absolute front)).mapError
    .chunking).map fun outcome => (absolute (front ++ [name]), outcome)

theorem IsLike.planAt_eq (h : again.IsLike session)
    (hread : next.read (absolute (front ++ [name])) = tree.read (absolute (front ++ [name]))) :
  again.planAt front name next = session.planAt front name tree
  := by
  rw [planAt, planAt, chunkFileGuarded, chunkFileGuarded, readSource, readSource, hread, chunkConfig,
    chunkConfig, h.charLimit_eq]

/-- What is audited of a file does not depend on its path. -/
theorem planFor_of_spells (hsound : tree.Sound) (h : tree.Spells path (front ++ [name])) :
  session.planFor path ((parent? path).getD ".") tree = session.planAt front name tree
  := by
  obtain ⟨folder, front', name', hparent, hnames, hresolve, entries, hfolder⟩ := h.exists_parent? hsound
  obtain ⟨rfl, -⟩ := List.append_inj' hnames rfl
  have hfile : (tree.at? (front ++ [name])).isSome := by
    obtain ⟨bytes, hbytes⟩ := Option.isSome_iff_exists.mp h.isSome_file?
    obtain ⟨node, hnode, -⟩ := Option.bind_eq_some_iff.mp hbytes
    rw [hnode, Option.isSome_some]
  have hcanonical : tree.canonical path = .ok (absolute (front ++ [name])) :=
    FileTree.canonical_eq_ok_iff.mpr ⟨_, h.resolve_eq, hfile, rfl⟩
  have hbase : tree.canonical folder = .ok (absolute front) :=
    FileTree.canonical_eq_ok_iff.mpr ⟨_, hresolve, Option.isSome_iff_exists.mpr ⟨_, hfolder⟩, rfl⟩
  rw [planFor_of_canonical session hcanonical, hparent, Option.getD_some, hbase]
  rfl

/-- The ids of the chunks of a file are made of its name and of theirs. -/
theorem isNamedIn_of_planAt {file : String} {outcome : ChunkOutcome}
    (hnames : ∀ part ∈ front ++ [name], IsName part)
    (h : session.planAt front name tree = .ok (file, outcome)) :
  file = absolute (front ++ [name]) ∧ ∀ chunk ∈ outcome.chunks, chunk.IsNamedIn name
  := by
  rw [planAt] at h
  cases hguarded : chunkFileGuarded session.chunkConfig tree (absolute (front ++ [name]))
      (absolute front) with
  | error e =>
      rw [hguarded] at h
      cases h
  | ok outcome' =>
      rw [hguarded] at h
      obtain ⟨rfl, rfl⟩ := Prod.mk.inj (Except.ok.inj h)
      obtain ⟨hfront, hname⟩ := List.forall_mem_append.mp hnames
      have hrelative : relativeTo (absolute (front ++ [name])) (absolute front) = name :=
        (@relativeTo_absolute front [] name hfront hname).trans (String.intercalate_singleton ..)
      use rfl
      rw [← hrelative]
      apply isNamedIn_of_mem_chunkFileGuarded hguarded

/-! ### Audits of single files -/

/-- An audit by steps does the same for all paths of a file. -/
theorem auditFileBy?_of_spells (hsound : world.files.Sound)
    (hpath : world.files.Spells path (front ++ [name]))
    (hother : world.files.Spells other (front ++ [name])) (order : List Nat) :
  session.auditFileBy? other ((parent? other).getD ".") force order world
    = session.auditFileBy? path ((parent? path).getD ".") force order world
  := by
  rw [auditFileBy?, auditFileBy?, planFor_of_spells hsound hpath, planFor_of_spells hsound hother]

/-- There is an audit for each chunk, with its id. -/
theorem map_chunkId_of_auditFileBy? {root : String} {order : List Nat} {audit : FileAudit}
    (h : session.auditFileBy? path root force order world = some (.ok audit, later)) :
  ∃ outcome, session.planFor path root world.files = .ok (audit.file, outcome)
    ∧ audit.chunks.map (·.chunkId) = outcome.chunks.map (·.id)
  := by
  obtain ⟨outcome, hplan, -, hlength, hchunks⟩ := of_auditFileBy?_eq_ok h
  use outcome, hplan
  rcases hchunks with ⟨hempty, -⟩ | ⟨-, left, -, hchunks⟩
  · rw [hempty, List.length_nil, List.length_eq_zero_iff] at hlength
    rw [hempty, hlength]
    rfl
  · obtain ⟨last, found, -, -, hconclude⟩ := (session.auditChunksBy?_eq_some_iff _ _).mp hchunks
    cases found with
    | error e => cases congrArg Prod.fst hconclude
    | ok found => apply map_chunkId_of_conclude (congrArg Prod.fst hconclude)

/-- The names of results, and the names that source files can have. -/
def keptNames : Set (List String) :=
  Cache.resultNames ∪ otherNamesᶜ

/-- What is written beside a file is neither a result nor a source. -/
theorem spares_writeAudit (audit : FileAudit) (file root : String) (out : Option String) :
  ReviewAction.Spares keptNames
    (audit.write (FileAudit.artifactPath file root out) : ReviewAction μ Unit)
  := by
  have hname := FileAudit.fileName?_artifactPath file root out
  have hsplit : (stem? file).getD "" ++ FileAudit.ending
      = Cache.fileName ((stem? file).getD "" ++ "_audit") := by
    have hending : FileAudit.ending = "_audit" ++ ".json" := by decide
    rw [hending, Cache.fileName, String.append_assoc]
  have hresult := FileAudit.avoids_resultNames hname
  have hsource : Avoids otherNamesᶜ (FileAudit.artifactPath file root out) := by
    apply avoids_of_fileName hname
    intro front
    have hisName : IsName ((stem? file).getD "" ++ FileAudit.ending) :=
      isName_stem_append file (by decide) (by decide)
    rw [hsplit] at hisName ⊢
    obtain ⟨hfile, htemporary⟩ := mem_otherNames_of_fileName front hisName (by simp)
    exact ⟨Set.notMem_compl_iff.mpr hfile, Set.notMem_compl_iff.mpr htemporary⟩
  apply ReviewAction.Spares.onFiles
  apply FileAction.Spares.writeJson hname
  intro tree
  exact ⟨not_or.mpr ⟨(hresult tree).1, (hsource tree).1⟩, not_or.mpr ⟨(hresult tree).2, (hsource tree).2⟩⟩

/-- The audit of a single file audits it, and keeps results and sources when it writes what was found. -/
theorem of_auditSingleInOrder {orders rest : List (List Nat)}
    {result : Except ReviewError (Option (FileAudit × String))}
    (h : session.auditSingleInOrder path force out (world, orders) = some (result, later, rest)) :
  ∃ order audited middle, orders = order :: rest
    ∧ session.auditFileBy? path ((parent? path).getD ".") force order world = some (audited, middle)
    ∧ (∀ audit artifact, result = .ok (some (audit, artifact)) → audited = .ok audit)
    ∧ (middle.files.Sound → FileTree.Spares keptNames middle.files later.files)
  := by
  rcases OrderedAction.of_bind h with ⟨e, hgroup, rfl⟩ | ⟨audit, ⟨middle, others⟩, hgroup, h⟩
  · obtain ⟨order, horders, haudited⟩ := OrderedAction.of_group hgroup
    refine ⟨order, .error e, later, horders, haudited, ?_, fun hsound => .refl hsound _⟩
    rintro audit artifact ⟨⟩
  · obtain ⟨order, horders, haudited⟩ := OrderedAction.of_group hgroup
    dsimp only at horders haudited h
    split at h
    · obtain ⟨rfl, heq⟩ := OrderedAction.of_pure h
      obtain ⟨rfl, rfl⟩ := Prod.mk.inj heq
      refine ⟨order, .ok audit, middle, horders, haudited, ?_, fun hsound => .refl hsound _⟩
      rintro audit artifact ⟨⟩
    · have hspares := spares_writeAudit audit audit.file
        ((parent? audit.file).getD ((parent? path).getD ".")) out middle
      rcases OrderedAction.of_bind h with ⟨e, hwrite, rfl⟩ | ⟨_, ⟨written, others'⟩, hwrite, h⟩
      · obtain ⟨hwrite, rfl⟩ := OrderedAction.of_lift hwrite
        dsimp only at hwrite horders
        rw [hwrite] at hspares
        refine ⟨order, .ok audit, middle, horders, haudited, ?_, hspares⟩
        rintro audit artifact ⟨⟩
      · obtain ⟨hwrite, rfl⟩ := OrderedAction.of_lift hwrite
        obtain ⟨rfl, heq⟩ := OrderedAction.of_pure h
        obtain ⟨rfl, rfl⟩ := Prod.mk.inj heq
        dsimp only at hwrite horders
        rw [hwrite] at hspares
        refine ⟨order, .ok audit, middle, horders, haudited, ?_, hspares⟩
        rintro _ _ ⟨⟩
        rfl

/-- The audit of a single file does the same for all its paths. -/
theorem auditSingleInOrder_of_spells (hsound : world.files.Sound)
    (hnames : ∀ part ∈ front ++ [name], IsName part)
    (hpath : world.files.Spells path (front ++ [name]))
    (hother : world.files.Spells other (front ++ [name])) (orders : List (List Nat)) :
  session.auditSingleInOrder other force out (world, orders)
    = session.auditSingleInOrder path force out (world, orders)
  := by
  have hgroup : OrderedAction.group (session.auditFileBy? other ((parent? other).getD ".") force)
        (world, orders)
      = OrderedAction.group (session.auditFileBy? path ((parent? path).getD ".") force)
        (world, orders) :=
    OrderedAction.group_congr (auditFileBy?_of_spells hsound hpath hother) orders
  rw [auditSingleInOrder, auditSingleInOrder, OrderedAction.bind_eq, OrderedAction.bind_eq, hgroup]
  apply Option.bind_congr
  rintro ⟨found, middle, rest⟩ hfound
  cases found with
  | error e => rfl
  | ok audit =>
      obtain ⟨order, -, haudited⟩ := OrderedAction.of_group hfound
      obtain ⟨outcome, hplan, -⟩ := map_chunkId_of_auditFileBy? haudited
      rw [planFor_of_spells hsound hpath] at hplan
      -- The folder of the file is told by its place.
      dsimp only
      rw [(isNamedIn_of_planAt hnames hplan).1, parent?_absolute hnames, Option.getD_some, Option.getD_some]

/-! ### What is stored and what is removed -/

/-- What an audit that is not forced has stored is listed under one of the chunks of the file. -/
theorem exists_chunk_of_stores (hroot : world.files.HasFolder session.cache.root) {root : String}
    {order : List Nat} {audited : Except ReviewError FileAudit}
    (h : session.auditFileBy? path root false order world = some (audited, later))
    {start : Schedule μ (List Issue)} (hstart : session.begun? path root false world = some start)
    {review : CachedReview μ (List Issue)} (hstores : Schedule.Stores session review start order) :
  ∃ file outcome, session.planFor path root world.files = .ok (file, outcome)
    ∧ later.files.HasFolder session.cache.root ∧ review.key.fingerprint.IsValid
    ∧ review.key.fingerprint.text
      ∈ (session.cache.listOf later.files review.key.indexId).fingerprints
    ∧ ∃ chunk ∈ outcome.chunks, parentId chunk.id = review.key.indexId
  := by
  rw [begun?] at hstart
  cases hplan : session.planFor path root world.files with
  | error e =>
      rw [hplan] at hstart
      cases hstart
  | ok plan =>
      obtain ⟨file, outcome⟩ := plan
      rw [hplan] at hstart
      obtain rfl := Option.some.inj hstart
      have hvalid : ∀ review ∈ session.auditReviews false Reviewer.auditors outcome.chunks,
          review.key.fingerprint.IsValid := by
        intro review hreview
        obtain ⟨chunk, -, reviewer, -, rfl⟩ := mem_auditReviews_iff.mp hreview
        apply Fingerprint.isValid_compute
      have hreviews : (Schedule.ofJobs session world
          ((session.auditReviews false Reviewer.auditors outcome.chunks).map .review)).IsOfReviews
          session (session.auditReviews false Reviewer.auditors outcome.chunks) :=
        ⟨by rw [Schedule.ofJobs, List.map_map]; exact List.map_id _, hroot, hvalid⟩
      rw [session.auditFileBy?_of_planFor hplan] at h
      dsimp only at h
      split at h
      · -- Without chunks there is nothing to be stored.
        rename_i hempty
        rw [List.isEmpty_iff.mp hempty] at hstores
        cases order with
        | nil => cases hstores
        | cons i rest =>
            rcases hstores with ⟨result, files, hjob, -⟩ | ⟨next, hstep, -⟩
            · cases hjob
            · cases hstep
      · obtain ⟨⟨audits, last⟩, haudited, heq⟩ := Option.map_eq_some_iff.mp h
        obtain ⟨-, rfl⟩ := Prod.mk.inj heq
        obtain ⟨ended, found, hrun, -, hconclude⟩ := (session.auditChunksBy?_eq_some_iff _ _).mp haudited
        obtain rfl : ended.world = last := by
          rw [← snd_conclude Reviewer.auditors.length outcome.chunks found ended.world, hconclude]
        obtain ⟨hreview, hlisted⟩ := hreviews.of_stores hstores hrun
        refine ⟨file, outcome, rfl, (hreviews.of_run? hrun).1.hasFolder, hvalid _ hreview, hlisted, ?_⟩
        obtain ⟨chunk, hchunk, reviewer, -, rfl⟩ := mem_auditReviews_iff.mp hreview
        use chunk, hchunk
        rfl

theorem mem_eraseReps_loop {id first : String} {rest found : List String}
    (h : id ∈ found ∨ id ∈ first :: rest) :
  id ∈ List.eraseRepsBy.loop (· == ·) first rest found
  := by
  induction rest generalizing first found with
  | nil =>
      rw [List.eraseRepsBy.loop, List.mem_reverse, List.mem_cons]
      exact h.symm.imp_left List.mem_singleton.mp
  | cons second rest ih =>
      rw [List.eraseRepsBy.loop]
      split
      · rename_i hsame
        apply ih
        rw [eq_of_beq hsame] at h ⊢
        simpa using h
      · apply ih
        rw [List.mem_cons, List.mem_cons] at h ⊢
        tauto

theorem mem_parentIds {chunks : List Chunk} {chunk : Chunk} (h : chunk ∈ chunks) :
  parentId chunk.id ∈ parentIds chunks
  := by
  have hmem : parentId chunk.id ∈ (chunks.map fun chunk => parentId chunk.id).mergeSort (· ≤ ·) :=
    List.mem_mergeSort.mpr (List.mem_map_of_mem h)
  rw [parentIds, List.eraseReps]
  generalize (chunks.map fun chunk => parentId chunk.id).mergeSort (· ≤ ·) = ids at hmem
  cases ids with
  | nil => cases hmem
  | cons first rest => apply mem_eraseReps_loop (.inr hmem)

/-- While the results of some ids are removed, what is listed under one of them goes, and what is gone is
not brought back. -/
theorem files_of_forM_invalidate {fingerprint : Fingerprint} (hvalid : fingerprint.IsValid) {id : String}
    (hparent : parentId id = id) {ids : List String} (hopen : session.cache.IsOpen world.files)
    (hlisted : session.cache.IsGoneOrListed fingerprint id world.files)
    (h : (ids.forM fun id => do
      let _ ← ReviewAction.onFiles ReviewAction.cacheFailure (session.cache.invalidate id)) world
        = (.ok (), later)) :
  session.cache.IsOpen later.files
    ∧ (session.cache.files world.files (Cache.entryNames fingerprint) = none ∨ id ∈ ids →
      session.cache.files later.files (Cache.entryNames fingerprint) = none)
  := by
  induction ids generalizing world with
  | nil =>
      obtain ⟨-, rfl⟩ := Prod.mk.inj h
      use hopen
      intro hgone
      simpa using hgone
  | cons first rest ih =>
      rw [List.forM_eq_forM, List.forM_cons] at h
      obtain ⟨_, middle, hfirst, hrest⟩ := ReviewAction.of_bind_eq_ok h
      obtain ⟨count, _, hremoved, hpure⟩ := ReviewAction.of_bind_eq_ok hfirst
      obtain ⟨-, rfl⟩ := ReviewAction.of_pure_eq_ok hpure
      obtain ⟨files, hinvalidate, rfl⟩ := ReviewAction.of_onFiles_eq_ok hremoved
      obtain ⟨hopen', hlisted', hgone⟩ :=
        Cache.of_invalidate_of_isGoneOrListed hopen hvalid hlisted hinvalidate
      obtain ⟨hopen'', hlater⟩ := ih hopen' hlisted' hrest
      use hopen''
      rintro (hnone | hmem)
      · apply hlater (.inl (Cache.files_of_invalidate_eq_none hopen hnone hinvalidate))
      · apply hlater
        rcases List.mem_cons.mp hmem with rfl | hmem
        · exact .inl (hgone hparent)
        · exact .inr hmem

/-- What is listed under a chunk is gone after the results of some chunks, and of this one, were
removed. -/
theorem lookup_of_forget (hroot : world.files.HasFolder session.cache.root) {fingerprint : Fingerprint}
    (hvalid : fingerprint.IsValid) {chunks : List Chunk} {chunk : Chunk} (hchunk : chunk ∈ chunks)
    (hparent : parentId (parentId chunk.id) = parentId chunk.id)
    (hlisted : fingerprint.text ∈ (session.cache.listOf world.files (parentId chunk.id)).fingerprints)
    (h : session.forget true chunks world = (.ok (), later)) :
  session.cache.lookup later.files fingerprint = none
  := by
  rw [forget, if_pos rfl] at h
  obtain ⟨hopen, hgone⟩ :=
    files_of_forM_invalidate hvalid hparent (Cache.isOpen_of_hasFolder hroot) (.inr hlisted) h
  rw [Cache.lookup_eq hopen hvalid, hgone (.inr (mem_parentIds hchunk))]
  rfl

/-! ### Audits through different paths -/

/-- A file with chunks is no file that is written while it is audited. -/
theorem of_planAt_of_spares (hsound : tree.Sound) (hnames : ∀ part ∈ front ++ [name], IsName part)
    (hpath : tree.Spells path (front ++ [name])) {file : String} {outcome : ChunkOutcome}
    (hplan : session.planAt front name tree = .ok (file, outcome)) (hne : outcome.chunks ≠ [])
    (hspares : FileTree.Spares otherNamesᶜ tree next) :
  front ++ [name] ∈ otherNamesᶜ
    ∧ next.read (absolute (front ++ [name])) = tree.read (absolute (front ++ [name]))
  := by
  obtain ⟨hfile, -⟩ := isNamedIn_of_planAt hnames hplan
  rw [← planFor_of_spells hsound hpath] at hplan
  obtain ⟨-, hgrammar, bytes, hread⟩ := of_planFor_eq_ok hplan hne
  rw [hfile] at hgrammar hread
  have hother := FileTree.namesOf_notMem_otherNames tree hgrammar
  use by rwa [namesOf_absolute tree hnames] at hother
  rw [hread]
  apply FileTree.read_of_keeps hspares.toKeeps hsound _ hread
  apply hspares.file?_eq _ hother

/-- What an audit that is not forced has stored is gone when the reviews of a forced audit of the same file
begin, however each of them spells the file. -/
theorem lookup_of_begun? (hlike : again.IsLike session) (hroot : world.files.HasFolder session.cache.root)
    (hnames : ∀ part ∈ front ++ [name], IsName part)
    (hpath : world.files.Spells path (front ++ [name]))
    (hother : world.files.Spells other (front ++ [name])) {order : List Nat} {rest : List (List Nat)}
    {result : Except ReviewError (Option (FileAudit × String))}
    (haudited : session.auditSingleInOrder path false out (world, order :: rest)
      = some (result, later, rest))
    {start : Schedule μ (List Issue)}
    (hstart : session.begun? path ((parent? path).getD ".") false world = some start)
    {review : CachedReview μ (List Issue)} (hstores : Schedule.Stores session review start order)
    (hparent : parentId review.key.indexId = review.key.indexId)
    {afresh : World ν} (hfiles : afresh.files = later.files) {state : Schedule ν (List Issue)}
    (hagain : again.begun? other ((parent? other).getD ".") true afresh = some state) :
  again.cache.lookup state.world.files review.key.fingerprint = none
  := by
  have hsound := hroot.sound
  obtain ⟨_, audited, middle, horder, hfile, -, hwritten⟩ := of_auditSingleInOrder haudited
  obtain ⟨rfl, -⟩ := List.cons.inj horder
  obtain ⟨file, outcome, hplan, hroot', hvalid, hlisted, chunk, hchunk, hid⟩ :=
    exists_chunk_of_stores hroot hfile hstart hstores
  rw [← hid] at hlisted hparent
  -- The files of the cache are listed as before, and the source is as it was.
  have hspares := hwritten hroot'.sound
  have hgrows := Cache.grows_of_spares hroot' (hspares.mono Set.subset_union_left)
  have hsource := (session.spares_of_auditFileBy? session.cache.isApart_otherNames hsound hfile).trans
    (hspares.mono Set.subset_union_right)
  rw [planFor_of_spells hsound hpath] at hplan
  obtain ⟨hmem, hread⟩ :=
    of_planAt_of_spares hsound hnames hpath hplan (List.ne_nil_of_mem hchunk) hsource
  have hplan' : again.planFor other ((parent? other).getD ".") afresh.files = .ok (file, outcome) := by
    rw [hfiles, planFor_of_spells hsource.toKeeps.sound (hother.of_spares hsource hmem),
      hlike.planAt_eq hread, hplan]
  rw [begun?, hplan'] at hagain
  dsimp only at hagain
  rcases hforget : again.forget true outcome.chunks afresh with ⟨e | ⟨⟩, left⟩
  · rw [hforget] at hagain
    cases hagain
  · rw [hforget] at hagain
    obtain rfl := Option.some.inj hagain
    have hcache := hlike.cache_eq
    apply lookup_of_forget (by rw [hfiles, hcache]; exact hgrows.hasFolder) hvalid hchunk hparent _ hforget
    rw [hfiles, hcache]
    apply hgrows.subset _ hlisted

/-- All paths of a file that are more than its name lead to the same audit of it.  The ids of its chunks
are made of its name and of the names of the chunks, and a forced audit through one path removes what
another audit through another path has stored. -/
theorem auditSingle_spelled (hsound : world.files.Sound) (hnamed : world.files.root.Named)
    (hpath : world.files.Spells path (front ++ [name])) :
  (∀ force out orders audit artifact later rest,
      session.auditSingleInOrder path force out (world, orders)
        = some (.ok (some (audit, artifact)), later, rest) →
      ∃ outcome, session.planFor path ((parent? path).getD ".") world.files = .ok (audit.file, outcome)
        ∧ audit.chunks.map (·.chunkId) = outcome.chunks.map fun chunk => name ++ ":" ++ chunk.name)
    ∧ ∀ other, world.files.Spells other (front ++ [name]) →
      (∀ force out orders, session.auditSingleInOrder other force out (world, orders)
        = session.auditSingleInOrder path force out (world, orders))
      ∧ (world.files.HasFolder session.cache.root →
        ∀ out order rest result later start review,
          session.auditSingleInOrder path false out (world, order :: rest) = some (result, later, rest) →
          session.begun? path ((parent? path).getD ".") false world = some start →
          Schedule.Stores session review start order →
          parentId review.key.indexId = review.key.indexId →
        ∀ {ν : Type} (again : Session ν) (afresh : World ν) state, again.IsLike session →
          afresh.files = later.files →
          again.begun? other ((parent? other).getD ".") true afresh = some state →
          again.cache.lookup state.world.files review.key.fingerprint = none)
  := by
  have hnames : ∀ part ∈ front ++ [name], IsName part := by
    obtain ⟨bytes, hbytes⟩ := Option.isSome_iff_exists.mp hpath.isSome_file?
    obtain ⟨node, hnode, -⟩ := Option.bind_eq_some_iff.mp hbytes
    apply (hnamed.of_at?_eq_some hnode).1
  constructor
  · intro force out orders audit artifact later rest h
    obtain ⟨order, audited, middle, -, haudited, heq, -⟩ := of_auditSingleInOrder h
    obtain rfl := heq audit artifact rfl
    obtain ⟨outcome, hplan, hids⟩ := map_chunkId_of_auditFileBy? haudited
    use outcome, hplan
    rw [planFor_of_spells hsound hpath] at hplan
    rw [hids]
    apply List.map_congr_left (isNamedIn_of_planAt hnames hplan).2
  · intro other hother
    constructor
    · intro force out orders
      apply auditSingleInOrder_of_spells hsound hnames hpath hother
    · intro hroot out order rest result later start review haudited hstart hstores hparent ν again afresh
        state hlike hfiles hagain
      apply lookup_of_begun? hlike hroot hnames hpath hother haudited hstart hstores hparent hfiles hagain

/-- A file with a single line, beside a cache that was opened. -/
def openedTree : FileTree where
  root := .folder [("a.py", .file (Text.bytesOf "x = 1\n")),
    ("cache", .folder [("chunks", .folder []), ("entries", .folder [])])]
  here := []

theorem openAt_lineTree :
  Cache.openAt "cache" lineTree = (.ok ⟨"cache"⟩, openedTree)
  := by
  let halfOpened : FileTree :=
    { root := .folder [("a.py", .file (Text.bytesOf "x = 1\n")), ("cache", .folder [("entries", .folder [])])]
      here := [] }
  have hentriesPath : components (join "cache" "entries") = [.name "cache", .name "entries"] := by
    decide +kernel
  have hchunksPath : components (join "cache" "chunks") = [.name "cache", .name "chunks"] := by
    decide +kernel
  have hentries : FileAction.createFolders (join "cache" "entries") lineTree = (.ok (), halfOpened) := by
    rw [FileAction.createFolders, FileAction.get_bind, hentriesPath]
    rfl
  have hchunks : FileAction.createFolders (join "cache" "chunks") halfOpened = (.ok (), openedTree) := by
    rw [FileAction.createFolders, FileAction.get_bind, hchunksPath]
    rfl
  rw [Cache.openAt, FileAction.bind_of_ok _ hentries, FileAction.bind_of_ok _ hchunks]
  rfl

theorem named_openedTree :
  openedTree.root.Named
  := by
  have hempty : (FileNode.folder []).Named := .folder (by simp) (by simp)
  have hcache : (FileNode.folder [("chunks", .folder []), ("entries", .folder [])]).Named := by
    apply FileNode.Named.folder
    · intro entry hentry
      rcases List.mem_pair.mp hentry with rfl | rfl <;> constructor <;> decide
    · intro entry hentry
      rcases List.mem_pair.mp hentry with rfl | rfl <;> exact hempty
  apply FileNode.Named.folder
  · intro entry hentry
    rcases List.mem_pair.mp hentry with rfl | rfl <;> constructor <;> decide
  · intro entry hentry
    rcases List.mem_pair.mp hentry with rfl | rfl
    · apply FileNode.Named.file
    · apply hcache

/-- What an audit of a single file is made of can be put together. -/
theorem exists_auditSingleInOrder {order : List Nat}
    (h : (session.auditFileBy? path ((parent? path).getD ".") force order world).isSome)
    (out : Option String) (rest : List (List Nat)) :
  ∃ result later, session.auditSingleInOrder path force out (world, order :: rest)
    = some (result, later, rest)
  := by
  obtain ⟨⟨audited, middle⟩, haudited⟩ := Option.isSome_iff_exists.mp h
  have hgroup := OrderedAction.group_of_eq_some haudited rest
  cases audited with
  | error e => exact ⟨.error e, middle, OrderedAction.bind_of_error _ hgroup⟩
  | ok audit =>
      rw [auditSingleInOrder, OrderedAction.bind_of_ok _ hgroup]
      split
      · exact ⟨_, _, rfl⟩
      · rcases hwrite : audit.write (FileAudit.artifactPath audit.file
          ((parent? audit.file).getD ((parent? path).getD ".")) out) middle with ⟨e | ⟨⟩, written⟩
        · exact ⟨_, _, OrderedAction.bind_of_error _ (OrderedAction.lift_of_eq hwrite rest)⟩
        · exact ⟨_, _, OrderedAction.bind_of_ok _ (OrderedAction.lift_of_eq hwrite rest)⟩

/-- With a new cache and a model that finds nothing, the first review of a chunk stores its result. -/
theorem exists_stores_quiet {tree : FileTree} (hunused : Cache.IsUnused tree) (chunk : Chunk) :
  let start := Schedule.ofJobs quietSession (quietWorld tree)
    ((quietSession.auditReviews false Reviewer.auditors [chunk]).map .review)
  ∃ order last, start.run? quietSession order = some last
    ∧ Schedule.Stores quietSession (quietSession.issueReview false chunk .security) start order
  := by
  obtain ⟨reply, -, hreply⟩ := exists_ask_quietSession
  have hask : (quietWorld tree).ask (quietSession.issueReview false chunk .security).ask
      = (.ok (.usable [] reply), ((quietWorld tree).ask
        (quietSession.issueReview false chunk .security).ask).2) :=
    Prod.ext (hreply false chunk .security) rfl
  have hvalid := (isRegular_issueReview quietSession false chunk .security).isValid
  obtain ⟨files, hstore⟩ := Cache.exists_store hunused.hasFolder hvalid (hunused.canKeep _)
    (hunused.canList _) reply quietSession.clock.seconds
  have hnone : (quietSession.issueReview false chunk .security).found? quietSession.cache tree = none :=
    found?_replyingSession hunused "\x7b\"issues\": []\x7d" false chunk .security
  exact Schedule.exists_stores hnone hask hstore

/-- An audit of the file through one path stores the result of a review, and a forced audit through another
path removes it. -/
theorem auditSingle_spelled_lineTree :
  ∃ order result later start review,
    quietSession.auditSingleInOrder "./a.py" false none (quietWorld openedTree, [order])
        = some (result, later, [])
    ∧ quietSession.auditSingleInOrder "/a.py" false none (quietWorld openedTree, [order])
        = some (result, later, [])
    ∧ (∀ audit artifact, result = .ok (some (audit, artifact)) →
      audit.chunks.map (·.chunkId) = ["a.py:<module>"])
    ∧ quietSession.begun? "./a.py" "." false (quietWorld openedTree) = some start
    ∧ Schedule.Stores quietSession review start order
    ∧ ∀ state, quietSession.begun? "/a.py" "/" true later = some state →
      quietSession.cache.lookup state.world.files review.key.fingerprint = none
  := by
  have hshape : (quietSession.planFor "./a.py" "." openedTree).toOption.map (fun plan =>
        plan.2.chunks.map fun chunk =>
          (chunk.id, chunk.name, parentId (parentId chunk.id) == parentId chunk.id))
      = some [("a.py:<module>", "<module>", true)] := by
    decide +kernel
  have hresolve : openedTree.resolve "./a.py" = .ok ["a.py"] := by decide +kernel
  have hresolve' : openedTree.resolve "/a.py" = .ok ["a.py"] := by decide +kernel
  have hparent : (parent? "./a.py").getD "." = "." := by decide +kernel
  have hparent' : (parent? "/a.py").getD "." = "/" := by decide +kernel
  have hpath : (quietWorld openedTree).files.Spells "./a.py" ([] ++ ["a.py"]) :=
    ⟨hresolve, rfl, by decide⟩
  have hother : (quietWorld openedTree).files.Spells "/a.py" ([] ++ ["a.py"]) :=
    ⟨hresolve', rfl, by decide⟩
  have hunused := isUnused_lineTree openAt_lineTree
  cases hplan : quietSession.planFor "./a.py" "." openedTree with
  | error e =>
      rw [hplan] at hshape
      cases hshape
  | ok plan =>
      obtain ⟨file, outcome⟩ := plan
      rw [hplan] at hshape
      obtain ⟨chunk, hchunk, hfacts⟩ := List.map_eq_singleton_iff.mp (Option.some.inj hshape)
      obtain ⟨-, hfacts⟩ := Prod.mk.inj hfacts
      obtain ⟨hname, hid⟩ := Prod.mk.inj hfacts
      obtain ⟨chunks, degraded⟩ := outcome
      obtain rfl : chunks = [chunk] := hchunk
      have hplan' : quietSession.planFor "./a.py" ((parent? "./a.py").getD ".") (quietWorld openedTree).files
          = .ok (file, { chunks := [chunk], degraded }) := by
        rw [hparent]
        apply hplan
      obtain ⟨order, last, hrun, hstores⟩ := exists_stores_quiet hunused chunk
      obtain ⟨later, haudited⟩ :=
        quietSession.exists_isSome_auditChunksBy? false Reviewer.auditors hrun
      have hfile : (quietSession.auditFileBy? "./a.py" ((parent? "./a.py").getD ".") false (order ++ later)
          (quietWorld openedTree)).isSome := by
        rw [quietSession.auditFileBy?_of_planFor hplan']
        dsimp only
        rw [List.isEmpty_cons, if_neg Bool.false_ne_true, Option.isSome_map]
        apply haudited
      obtain ⟨result, ended, hsingle⟩ := exists_auditSingleInOrder hfile none []
      have hbegun : quietSession.begun? "./a.py" "." false (quietWorld openedTree)
          = some (.ofJobs quietSession (quietWorld openedTree)
            ((quietSession.auditReviews false Reviewer.auditors [chunk]).map .review)) := by
        rw [hparent] at hplan'
        rw [begun?, hplan']
        rfl
      obtain ⟨hids, hall⟩ := auditSingle_spelled hunused.hasFolder.sound named_openedTree hpath
      obtain ⟨hsame, hgone⟩ := hall "/a.py" hother
      refine ⟨order ++ later, result, ended, _, quietSession.issueReview false chunk .security, hsingle,
        (hsame false none _).trans hsingle, ?_, hbegun, hstores.append later, ?_⟩
      · rintro audit artifact rfl
        obtain ⟨outcome, houtcome, hnames⟩ := hids _ _ _ _ _ _ _ hsingle
        obtain ⟨-, rfl⟩ := Prod.mk.inj (Except.ok.inj (hplan'.symm.trans houtcome))
        rw [hnames, List.map_singleton, hname]
        rfl
      · intro state hagain
        rw [← hparent] at hbegun
        rw [← hparent'] at hagain
        apply hgone hunused.hasFolder none _ _ _ _ _ _ hsingle hbegun (hstores.append later)
          (eq_of_beq hid) quietSession ended state ⟨rfl, rfl, rfl, rfl⟩ rfl hagain

/-- Through its name alone a file has chunks whose ids begin with the path from the top, while another path
of the same file leads to ids that begin with its name. -/
theorem auditSingle_bareName :
  lineTree.resolve "a.py" = .ok ["a.py"] ∧ lineTree.Spells "./a.py" ["a.py"]
    ∧ (∃ orders audit artifact later,
      muteSession.auditSingleInOrder "a.py" false none (quietWorld lineTree, orders)
          = some (.ok (some (audit, artifact)), later, [])
        ∧ audit.file = "/a.py" ∧ audit.chunks.map (·.chunkId) = ["//a.py:<module>"])
    ∧ ∃ orders audit artifact later,
      muteSession.auditSingleInOrder "./a.py" false none (quietWorld lineTree, orders)
          = some (.ok (some (audit, artifact)), later, [])
        ∧ audit.file = "/a.py" ∧ audit.chunks.map (·.chunkId) = ["a.py:<module>"]
  := by
  have hresolve : lineTree.resolve "a.py" = .ok ["a.py"] := by decide +kernel
  have hresolve' : lineTree.resolve "./a.py" = .ok ["a.py"] := by decide +kernel
  have hbare : (muteSession.auditSingle "a.py" false none (quietWorld lineTree)).1.toOption.map
        (Option.map fun single => (single.1.file, single.1.chunks.map (·.chunkId)))
      = some (some ("/a.py", ["//a.py:<module>"])) := by
    decide +kernel
  have hspelled : (muteSession.auditSingle "./a.py" false none (quietWorld lineTree)).1.toOption.map
        (Option.map fun single => (single.1.file, single.1.chunks.map (·.chunkId)))
      = some (some ("/a.py", ["a.py:<module>"])) := by
    decide +kernel
  have hrun (path : String) (ids : List String)
      (h : (muteSession.auditSingle path false none (quietWorld lineTree)).1.toOption.map
          (Option.map fun single => (single.1.file, single.1.chunks.map (·.chunkId)))
        = some (some ("/a.py", ids))) :
      ∃ orders audit artifact later,
        muteSession.auditSingleInOrder path false none (quietWorld lineTree, orders)
            = some (.ok (some (audit, artifact)), later, [])
          ∧ audit.file = "/a.py" ∧ audit.chunks.map (·.chunkId) = ids := by
    obtain ⟨orders, horders⟩ := muteSession.follows_auditSingle path false none (quietWorld lineTree)
    have horder := horders []
    rw [List.append_nil] at horder
    generalize muteSession.auditSingle path false none (quietWorld lineTree) = audited at h horder
    obtain ⟨result, later⟩ := audited
    obtain ⟨single?, hresult, hsingle⟩ := Option.map_eq_some_iff.mp h
    obtain ⟨⟨audit, artifact⟩, rfl, hpair⟩ := Option.map_eq_some_iff.mp hsingle
    obtain ⟨hfile, hids⟩ := Prod.mk.inj hpair
    cases result with
    | error e => cases hresult
    | ok found =>
        obtain rfl := Option.some.inj hresult
        exact ⟨orders, audit, artifact, later, horder, hfile, hids⟩
  exact ⟨hresolve, ⟨hresolve', rfl, by decide⟩, hrun _ _ hbare, hrun _ _ hspelled⟩

end Session

end Scrutiny
