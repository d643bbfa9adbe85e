import Scrutiny.Proofs.Rationale.Places
import Scrutiny.Proofs.Review.Failures
import Scrutiny.Proofs.Review.Project
import Scrutiny.Proofs.Review.Runs

/-!
# Extracting rationale from a file

The store of a project is saved after each file from which something new was extracted, so what is on disk
is always what was found in the files that are finished.  A file whose chunks are explained already is
passed over.
-/

namespace Scrutiny

open Scrutiny.Path OrderedAction

variable {μ : Type}

/-! ### Chunks of source files -/

namespace Session

variable {session : Session μ} {tree next : FileTree} {path root : String}

/-- The chunks of a file, if it can be cut. -/
def chunksOf? (session : Session μ) (tree : FileTree) (path root : String) : Option (List Chunk) :=
  (chunkFileGuarded session.chunkConfig tree path root).toOption.map (·.chunks)

theorem chunksOrNone_eq (session : Session μ) (path root : String) (world : World μ) :
  session.chunksOrNone path root world = (.ok (session.chunksOf? world.files path root), world)
  := by
  have hlook : ReviewAction.look (chunkFileGuarded session.chunkConfig · path root) world
      = (.ok (chunkFileGuarded session.chunkConfig world.files path root), world) := rfl
  have hchunks : (do return some (← session.chunks path root).chunks : ReviewAction μ (Option (List Chunk)))
      world = (((chunkFileGuarded session.chunkConfig world.files path root).mapError .chunking).map
        fun outcome => some outcome.chunks, world) := by
    rw [ReviewAction.bind_pure_eq]
    have hcut : session.chunks path root world
        = ((chunkFileGuarded session.chunkConfig world.files path root).mapError .chunking, world) := by
      rw [chunks, ReviewAction.bind_of_ok _ hlook]
      rfl
    rw [hcut]
  rw [chunksOrNone, chunksOf?]
  cases hcut : chunkFileGuarded session.chunkConfig world.files path root with
  | error e =>
      rw [hcut] at hchunks
      rw [ReviewAction.tryCatch_of_error hchunks]
      rfl
  | ok outcome =>
      rw [hcut] at hchunks
      rw [ReviewAction.tryCatch_of_ok hchunks]
      rfl

theorem toOption_chunkFileGuarded (config : ChunkConfig) (tree : FileTree) (path root : String) :
  (chunkFileGuarded config tree path root).toOption
    = (tree.read path).toOption.bind fun bytes =>
        (match chunkGuarded config (Path.relativeTo path root) (Text.lossyText bytes) (.ofPath path) with
          | .error .blank => .ok { chunks := [], degraded := none }
          | outcome => outcome : Except ChunkError ChunkOutcome).toOption
  := by
  rw [chunkFileGuarded, readSource]
  cases tree.read path <;> rfl

/-- The chunks of a source file are the same as long as the sources are left alone. -/
theorem chunksOf?_of_spares {names : List String} {entries : List (String × FileNode)} (hsound : tree.Sound)
    (hnamed : tree.root.Named) (hproject : Sources.IsProject tree root names entries)
    (hpath : path ∈ Sources.scan tree root) (hspares : FileTree.Spares Sources.sourceNames tree next) :
  session.chunksOf? next path root = session.chunksOf? tree path root
  := by
  rw [chunksOf?, chunksOf?, toOption_chunkFileGuarded, toOption_chunkFileGuarded,
    hproject.toOption_read_of_spares hsound hspares hnamed hpath]

/-- The chunks of a project. -/
def projectChunks (session : Session μ) (tree : FileTree) (root : String) : List Chunk :=
  (Sources.scan tree root).flatMap fun path => (session.chunksOf? tree path root).getD []

/-! ### What was extracted -/

/-- The entry with the explanation of a chunk. -/
def entryOf (session : Session μ) (file : String) (chunk : Chunk) (text : String) : RationaleEntry :=
  { chunkId := chunk.id, filePath := file, name := chunk.name, kind := chunk.kind.name, rationale := text,
    extractedAt := session.clock.instant }

/-- The entries with the explanations that were found. -/
def entriesOf (session : Session μ) (file : String) (found : List (Chunk × RationaleOutcome)) :
    List RationaleEntry :=
  found.filterMap fun
    | (chunk, .extracted text _) => some (session.entryOf file chunk text)
    | (_, .failed _) => none

end Session

/-- Whether there is no explanation. -/
def RationaleOutcome.isFailed : RationaleOutcome → Bool
  | .failed _ => true
  | .extracted _ _ => false

/-- What was extracted from a file. -/
structure FileRationale where
  /-- The file. -/
  path : String
  /-- The new entries. -/
  entries : List RationaleEntry
  /-- The number of chunks that were explained already. -/
  known : Nat
  /-- The number of failures. -/
  failed : Nat

namespace RationaleProgress

/-- The progress after a file was worked on. -/
def note (progress : RationaleProgress) (file : FileRationale) : RationaleProgress where
  store := file.entries.foldl RationaleStore.insert progress.store
  extracted := progress.extracted + file.entries.length
  skipped := progress.skipped + file.known
  failed := progress.failed + file.failed

end RationaleProgress

namespace Session

variable {session : Session μ} {root storePath : String} {force : Bool}
  {progress progress' : RationaleProgress}
  {path : String} {state next : RunState μ} {result : Except ReviewError RationaleProgress}

theorem foldl_recordRationale (path file : String) (found : List (Chunk × RationaleOutcome)) (known : Nat)
    (progress : RationaleProgress) :
  found.foldl (fun progress pair => session.recordRationale file progress pair.1 pair.2)
      { progress with skipped := progress.skipped + known }
    = progress.note ⟨path, session.entriesOf file found, known, found.countP (·.2.isFailed)⟩
  := by
  induction found generalizing progress with
  | nil => rfl
  | cons first rest ih =>
      obtain ⟨chunk, outcome⟩ := first
      rw [List.foldl_cons]
      cases outcome with
      | failed reason =>
          apply (ih { progress with failed := progress.failed + 1 }).trans
          simp only [RationaleProgress.note, entriesOf, List.filterMap_cons, List.countP_cons,
            RationaleOutcome.isFailed, if_true]
          congr 1
          omega
      | extracted text cached =>
          apply (ih { progress with store := progress.store.insert (session.entryOf file chunk text),
                                    extracted := progress.extracted + 1 }).trans
          simp only [RationaleProgress.note, entriesOf, List.filterMap_cons, List.countP_cons,
            RationaleOutcome.isFailed, List.foldl_cons, List.length_cons]
          congr 1
          omega

/-- The chunks whose explanations are asked for. -/
def pendingIn (force : Bool) (store : RationaleStore) (chunks : List Chunk) : List Chunk :=
  chunks.filter fun chunk => force || !store.contains chunk.id

/-- The chunks that are explained already. -/
def knownIn (force : Bool) (store : RationaleStore) (chunks : List Chunk) : List Chunk :=
  chunks.filter (not ∘ fun chunk => force || !store.contains chunk.id)

/-- What is extracted from a file if this becomes of the explanations that are asked for. -/
def fileRationale (session : Session μ) (root path : String) (pending known : List Chunk)
    (outcomes : List RationaleOutcome) : FileRationale where
  path
  entries := session.entriesOf (Path.relativeTo path root) (pending.zip outcomes)
  known := known.length
  failed := (pending.zip outcomes).countP (·.2.isFailed)

variable (session root storePath force)

/-- The chunks of a file are explained, and the store is saved if there is something new. -/
inductive Explains (progress : RationaleProgress) : RunState μ → FileRationale → RunState μ → Prop where
  /-- The file cannot be cut. -/
  | uncut {state : RunState μ} {path : String} (hcut : session.chunksOf? state.1.files path root = none) :
    Explains progress state ⟨path, [], 0, 1⟩ state
  /-- All chunks are explained already. -/
  | known {state : RunState μ} {path : String} {chunks : List Chunk}
    (hcut : session.chunksOf? state.1.files path root = some chunks)
    (hpending : pendingIn force progress.store chunks = []) :
    Explains progress state ⟨path, [], chunks.length, 0⟩ state
  /-- The store is saved. -/
  | saved {world later : World μ} {files : FileTree} {order : List Nat} {rest : List (List Nat)}
    {path : String} {chunks : List Chunk} {outcomes : List RationaleOutcome} {file : FileRationale}
    (hcut : session.chunksOf? world.files path root = some chunks)
    (hexplain : session.explainChunksBy? force (pendingIn force progress.store chunks) order world
      = some (.ok outcomes, later))
    (hfile : file = session.fileRationale root path (pendingIn force progress.store chunks)
      (knownIn force progress.store chunks) outcomes)
    (hsave : (progress.note file).store.save storePath later.files = (.ok (), files)) :
    Explains progress (world, order :: rest) file ({ later with files }, rest)

/-- An error ends the run at a file. -/
inductive Breaks (progress : RationaleProgress) :
    RunState μ → String → ReviewError → RunState μ → Prop where
  /-- The explanation of a chunk ends the run, and nothing is saved. -/
  | explaining {world later : World μ} {order : List Nat} {rest : List (List Nat)} {path : String}
    {chunks : List Chunk} {e : ReviewError} (hcut : session.chunksOf? world.files path root = some chunks)
    (hexplain : session.explainChunksBy? force (pendingIn force progress.store chunks) order world
      = some (.error e, later)) :
    Breaks progress (world, order :: rest) path e (later, rest)
  /-- The store cannot be saved. -/
  | saving {world later : World μ} {files : FileTree} {order : List Nat} {rest : List (List Nat)}
    {path : String} {chunks : List Chunk} {outcomes : List RationaleOutcome} {file : FileRationale}
    {cause : FileError} (hcut : session.chunksOf? world.files path root = some chunks)
    (hexplain : session.explainChunksBy? force (pendingIn force progress.store chunks) order world
      = some (.ok outcomes, later))
    (hfile : file = session.fileRationale root path (pendingIn force progress.store chunks)
      (knownIn force progress.store chunks) outcomes)
    (hsave : (progress.note file).store.save storePath later.files = (.error cause, files)) :
    Breaks progress (world, order :: rest) path (ReviewAction.cacheFailure cause) ({ later with files }, rest)

variable {session root storePath force}

theorem knownIn_of_pendingIn_eq_nil {store : RationaleStore} {chunks : List Chunk}
    (h : pendingIn force store chunks = []) :
  knownIn force store chunks = chunks
  := by
  rw [pendingIn, List.filter_eq_nil_iff] at h
  apply List.filter_eq_self.mpr
  intro chunk hchunk
  have hknown := h chunk hchunk
  rw [Bool.not_eq_true] at hknown
  simp [hknown]

theorem of_explainFileInOrder
    (h : session.explainFileInOrder root storePath force progress path state = some (result, next)) :
  (∃ file, file.path = path ∧ result = .ok (progress.note file)
      ∧ Explains session root storePath force progress state file next)
    ∨ ∃ e, result = .error e ∧ Breaks session root storePath force progress state path e next
  := by
  obtain ⟨world, orders⟩ := state
  have hcut := lift_of_eq (session.chunksOrNone_eq path root world) orders
  rw [explainFileInOrder, bind_of_ok _ hcut] at h
  cases hchunks : session.chunksOf? world.files path root with
  | none =>
      rw [hchunks] at h
      obtain ⟨rfl, rfl⟩ := of_pure h
      left
      exact ⟨_, rfl, rfl, .uncut hchunks⟩
  | some chunks =>
      rw [hchunks] at h
      dsimp only at h
      rw [List.partition_eq_filter_filter] at h
      split_ifs at h with hempty
      · obtain ⟨rfl, rfl⟩ := of_pure h
        have hpending : pendingIn force progress.store chunks = [] := List.isEmpty_iff.mp hempty
        left
        refine ⟨_, rfl, ?_, .known hchunks hpending⟩
        have hknown := knownIn_of_pendingIn_eq_nil hpending
        rw [knownIn] at hknown
        rw [hknown]
        rfl
      · rcases of_bind h with ⟨e, hgroup, rfl⟩ | ⟨outcomes, middle, hgroup, hlater⟩
        · obtain ⟨order, rfl, hexplain⟩ := of_group hgroup
          right
          exact ⟨e, rfl, .explaining hchunks hexplain⟩
        · dsimp only at hlater
          rw [foldl_recordRationale path] at hlater
          obtain ⟨order, rfl, hexplain⟩ := of_group hgroup
          rcases of_bind hlater with ⟨e, hlift, rfl⟩ | ⟨_, last, hlift, hpure⟩
          · obtain ⟨hsave, horders⟩ := of_lift hlift
            obtain ⟨cause, files, hwritten, rfl, hworld⟩ := ReviewAction.of_onFiles_eq_error hsave
            obtain rfl : next = ({ middle.1 with files }, middle.2) := Prod.ext hworld horders.symm
            right
            exact ⟨_, rfl, .saving hchunks hexplain rfl hwritten⟩
          · obtain ⟨rfl, rfl⟩ := of_pure hpure
            obtain ⟨hsave, horders⟩ := of_lift hlift
            obtain ⟨files, hwritten, hworld⟩ := ReviewAction.of_onFiles_eq_ok hsave
            obtain rfl : last = ({ middle.1 with files }, middle.2) := Prod.ext hworld horders.symm
            left
            exact ⟨_, rfl, rfl, .saved hchunks hexplain rfl hwritten⟩

/-! ### What is on disk when a file is finished -/

theorem spares_of_explainChunksBy? {spared : Set (List String)} (hapart : session.cache.IsApart spared)
    {world later : World μ} (hsound : world.files.Sound) {refresh : Bool} {chunks : List Chunk}
    {order : List Nat} {outcome : Except ReviewError (List RationaleOutcome)}
    (h : session.explainChunksBy? refresh chunks order world = some (outcome, later)) :
  FileTree.Spares spared world.files later.files
  := by
  obtain ⟨last, hrun, h⟩ := Option.bind_eq_some_iff.mp h
  obtain ⟨_, -, heq⟩ := Option.bind_eq_some_iff.mp h
  obtain ⟨-, rfl⟩ := Prod.mk.inj (Option.some.inj heq)
  apply Schedule.spares_of_run? hapart hsound _ hrun
  intro review hreview
  obtain ⟨chunk, -, rfl⟩ := List.mem_map.mp hreview
  apply Fingerprint.isValid_compute

theorem length_of_explainChunksBy? {world later : World μ} {refresh : Bool} {chunks : List Chunk}
    {order : List Nat} {outcomes : List RationaleOutcome}
    (h : session.explainChunksBy? refresh chunks order world = some (.ok outcomes, later)) :
  outcomes.length = chunks.length
  := by
  obtain ⟨last, hrun, h⟩ := Option.bind_eq_some_iff.mp h
  obtain ⟨_, houtcome, heq⟩ := Option.bind_eq_some_iff.mp h
  obtain ⟨rfl, rfl⟩ := Prod.mk.inj (Option.some.inj heq)
  have hlength := (Schedule.forall₂_jobs_of_reviews hrun houtcome).length_eq
  have hjobs := congrArg List.length ((Schedule.map_fst_of_run? hrun).trans (Schedule.map_fst_ofJobs _ _ _))
  rw [List.length_map, List.length_map, List.length_map] at hjobs
  rw [← hlength, hjobs]

/-- The entries that are found are about the chunks whose explanation has not failed. -/
theorem any_entriesOf {file : String} {chunks : List Chunk} {outcomes : List RationaleOutcome}
    (hlength : outcomes.length = chunks.length)
    (hfailed : (chunks.zip outcomes).countP (·.2.isFailed) = 0) {chunk : Chunk} (hchunk : chunk ∈ chunks) :
  (session.entriesOf file (chunks.zip outcomes)).any (·.chunkId == chunk.id)
  := by
  rw [← List.map_fst_zip hlength.ge] at hchunk
  obtain ⟨⟨chunk, outcome⟩, hpair, rfl⟩ := List.mem_map.mp hchunk
  cases outcome with
  | failed reason =>
      have hnone := List.countP_eq_zero.mp hfailed _ hpair
      cases hnone rfl
  | extracted text cached =>
      apply List.any_eq_true.mpr
      exact ⟨session.entryOf file chunk text, List.mem_filterMap.mpr ⟨_, hpair, rfl⟩, beq_self_eq_true _⟩

section

open RationaleStore

variable {folder project : String} {file : FileRationale}

theorem spares_of_save {world later : World μ} {files : FileTree} {chunks : List Chunk} {order : List Nat}
    {outcome : Except ReviewError (List RationaleOutcome)} {store : RationaleStore}
    {written : Except FileError Unit} (hsound : world.files.Sound)
    (hexplain : session.explainChunksBy? force chunks order world = some (outcome, later))
    (hsave : store.save (pathFor folder project) later.files = (written, files)) :
  FileTree.Spares (Sources.sourceNames ∪ lockNames) world.files files
  := by
  have hexplained := spares_of_explainChunksBy? (RationaleStore.isApart session.cache) hsound hexplain
  have hsaved := FileAction.Spares.writeJson (fileName?_pathFor folder project)
    (avoids_pathFor_sources folder project) store.toJson _ hexplained.sound
  rw [← RationaleStore.save, hsave] at hsaved
  apply (hexplained.mono _).trans hsaved
  rintro names (hsource | hlock)
  · exact .inl (.inl hsource)
  · exact .inr hlock

variable (hsound : state.1.files.Sound)

include hsound

/-- What is extracted from a file changes neither sources nor locks. -/
theorem spares_of_explains
    (h : Explains session root (pathFor folder project) force progress state file next) :
  FileTree.Spares (Sources.sourceNames ∪ lockNames) state.1.files next.1.files
  := by
  cases h with
  | uncut | known => apply FileTree.Spares.refl hsound
  | saved hcut hexplain hfile hsave => apply spares_of_save hsound hexplain hsave

/-- An error that ends the run changes neither sources nor locks. -/
theorem spares_of_breaks {e : ReviewError}
    (h : Breaks session root (pathFor folder project) force progress state path e next) :
  FileTree.Spares (Sources.sourceNames ∪ lockNames) state.1.files next.1.files
  := by
  cases h with
  | explaining hcut hexplain =>
      apply (spares_of_explainChunksBy? (RationaleStore.isApart session.cache) hsound hexplain).mono
      rintro names (hsource | hlock)
      · exact .inl (.inl hsource)
      · exact .inr hlock
  | saving hcut hexplain hfile hsave => apply spares_of_save hsound hexplain hsave

/-- If the store on disk is that of the progress when a file is begun, then it is when the file is
finished. -/
theorem onDisk_of_explains
    (h : Explains session root (pathFor folder project) force progress state file next)
    (hkept : onDisk state.1.files (pathFor folder project) = progress.store) :
  onDisk next.1.files (pathFor folder project) = (progress.note file).store
  := by
  cases h with
  | uncut | known => apply hkept
  | saved hcut hexplain hfile hsave =>
      have hexplained := spares_of_explainChunksBy? session.cache.isApart_empty hsound hexplain
      apply onDisk_of_save _ hexplained.sound (fileName?_pathFor folder project) hsave
      apply IsOrdered.foldl_insert
      rw [← hkept]
      apply isOrdered_onDisk

/-- An explanation that ends the run changes no sources, no stores and no locks. -/
theorem spares_of_breaks_of_isFatal {e : ReviewError} (hfatal : e.isFatal = true)
    (h : Breaks session root storePath force progress state path e next) :
  FileTree.Spares (Sources.sourceNames ∪ storeNames ∪ lockNames) state.1.files next.1.files
  := by
  cases h with
  | explaining hcut hexplain =>
      apply spares_of_explainChunksBy? (RationaleStore.isApart session.cache) hsound hexplain
  | saving => cases hfatal

omit hsound

/-- If nothing fails at a file, then the file can be cut and all of its chunks are explained. -/
theorem contains_of_explains (h : Explains session root storePath force progress state file next)
    (hfailed : file.failed = 0) :
  ∃ chunks, session.chunksOf? state.1.files file.path root = some chunks
    ∧ ∀ chunk ∈ chunks, (progress.note file).store.contains chunk.id
  := by
  cases h with
  | uncut => cases hfailed
  | @known _ _ chunks hcut hpending =>
      use chunks, hcut
      intro chunk hchunk
      have hknown := List.filter_eq_nil_iff.mp hpending chunk hchunk
      simp only [Bool.or_eq_true, Bool.not_eq_true', not_or, Bool.not_eq_false] at hknown
      apply hknown.2
  | @saved _ _ _ _ _ _ chunks outcomes _ hcut hexplain hfile hsave =>
      subst hfile
      use chunks, hcut
      intro chunk hchunk
      rw [RationaleProgress.note, contains_foldl_insert, Bool.or_eq_true]
      by_cases hknown : progress.store.contains chunk.id
      · exact .inr hknown
      · left
        apply any_entriesOf (length_of_explainChunksBy? hexplain) hfailed
        apply List.mem_filter.mpr
        exact ⟨hchunk, by simp [hknown]⟩

/-- A file whose chunks are explained already is passed over. -/
theorem explainFileInOrder_of_known {chunks : List Chunk}
    (hcut : session.chunksOf? state.1.files path root = some chunks)
    (hknown : ∀ chunk ∈ chunks, progress.store.contains chunk.id) :
  session.explainFileInOrder root storePath false progress path state
    = some (.ok { progress with skipped := progress.skipped + chunks.length }, state)
  := by
  have hpending : pendingIn false progress.store chunks = [] := by
    apply List.filter_eq_nil_iff.mpr
    intro chunk hchunk
    simp [hknown chunk hchunk]
  have hlook := lift_of_eq (session.chunksOrNone_eq path root state.1) state.2
  rw [hcut] at hlook
  have hall := knownIn_of_pendingIn_eq_nil hpending
  rw [pendingIn] at hpending
  rw [knownIn] at hall
  rw [explainFileInOrder, bind_of_ok _ hlook]
  dsimp only
  rw [List.partition_eq_filter_filter, hpending, hall]
  rfl

end

end Session

end Scrutiny
