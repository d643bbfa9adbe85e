import Scrutiny.Proofs.Review.Concurrent
import Scrutiny.Proofs.Schedule.Files

/-!
# What audits spare

The files that an audit writes while it is under way are those of the cache; it spares all others.
None of them has the name of a written audit.
-/

namespace Scrutiny

variable {μ α β : Type}

/-! ### Actions of reviews -/

namespace ReviewAction

variable {spared : Set (List String)}

/-- An action leaves the files under some names as they were, whatever comes of it. -/
def Spares (spared : Set (List String)) (action : ReviewAction μ α) : Prop :=
  ∀ world : World μ, world.files.Sound →
    FileTree.Spares spared world.files (action world).2.files

namespace Spares

/-- An action that changes no files. -/
theorem of_files_eq {action : ReviewAction μ α}
    (h : ∀ world, (action world).2.files = world.files) :
  Spares spared action
  := by
  intro world hsound
  rw [h world]
  apply FileTree.Spares.refl hsound

theorem pure (a : α) :
  Spares spared (pure a : ReviewAction μ α)
  := of_files_eq fun _ => rfl

theorem throw (e : ReviewError) :
  Spares spared (throw e : ReviewAction μ α)
  := of_files_eq fun _ => rfl

theorem look (view : FileTree → α) :
  Spares spared (look view : ReviewAction μ α)
  := of_files_eq fun _ => rfl

theorem ofExcept {ε : Type} (wrap : ε → ReviewError) (result : Except ε α) :
  Spares spared (ofExcept wrap result : ReviewAction μ α)
  := of_files_eq fun _ => rfl

theorem onFiles (wrap : FileError → ReviewError) {action : FileAction α}
    (h : FileAction.Spares spared action) :
  Spares spared (onFiles wrap action : ReviewAction μ α)
  := fun world hsound => h world.files hsound

theorem bind {action : ReviewAction μ α} {later : α → ReviewAction μ β} (h : Spares spared action)
    (hlater : ∀ a, Spares spared (later a)) :
  Spares spared (action >>= later)
  := by
  intro world hsound
  have hfirst := h world hsound
  rcases haction : action world with ⟨e | a, middle⟩
  · rw [haction] at hfirst
    rw [bind_of_error later haction]
    apply hfirst
  · rw [haction] at hfirst
    rw [bind_of_ok later haction]
    apply hfirst.trans (hlater a middle hfirst.sound)

theorem tryCatch {action : ReviewAction μ α} {handler : ReviewError → ReviewAction μ α}
    (h : Spares spared action) (hhandler : ∀ e, Spares spared (handler e)) :
  Spares spared (tryCatch action handler)
  := by
  intro world hsound
  have hfirst := h world hsound
  rcases haction : action world with ⟨e | a, middle⟩
  · rw [haction] at hfirst
    rw [tryCatch_of_error haction]
    apply hfirst.trans (hhandler e middle hfirst.sound)
  · rw [haction] at hfirst
    rw [tryCatch_of_ok haction]
    apply hfirst

theorem mapM {f : α → ReviewAction μ β} {list : List α} (h : ∀ a ∈ list, Spares spared (f a)) :
  Spares spared (list.mapM f)
  := by
  induction list with
  | nil =>
      rw [List.mapM_nil]
      apply pure
  | cons a rest ih =>
      rw [List.mapM_cons]
      apply bind (h a List.mem_cons_self)
      intro b
      apply bind (ih fun other hother => h other (List.mem_cons_of_mem _ hother))
      intro others
      apply pure

theorem forM {f : α → ReviewAction μ PUnit} {list : List α} (h : ∀ a ∈ list, Spares spared (f a)) :
  Spares spared (list.forM f)
  := by
  induction list with
  | nil => apply pure
  | cons a rest ih =>
      rw [List.forM_eq_forM, List.forM_cons]
      apply bind (h a List.mem_cons_self)
      intro _
      apply ih fun other hother => h other (List.mem_cons_of_mem _ hother)

end Spares

end ReviewAction

/-! ### The names of written audits -/

namespace FileAudit

/-- The names of files that audits are written to, as the last of them shows. -/
def artifactNames : Set (List String) :=
  {names | ∃ front stem, names = front ++ [stem ++ ending]}

theorem notMem_artifactNames_of_isTemporary {names : List String} (h : Cache.IsTemporary names) :
  names ∉ artifactNames
  := by
  obtain ⟨front, name, rfl⟩ := h
  rintro ⟨front', stem, hnames⟩
  have htexts := List.singleton_inj.mp (List.append_inj_right' hnames rfl)
  have hlast := congrArg (fun text : String => text.toList.getLast?) htexts
  simp [ending, Path.temporaryEnding] at hlast

/-- No file of the cache has the name of a written audit: there is no line in its digits. -/
theorem notMem_artifactNames_of_isHex (front : List String) {digits : String}
    (h : Fingerprint.IsHex digits) :
  front ++ [Cache.fileName digits] ∉ artifactNames
  := by
  rintro ⟨front', stem, hnames⟩
  have htexts := List.singleton_inj.mp (List.append_inj_right' hnames rfl)
  have hline : '_' ∈ (Cache.fileName digits).toList := by
    rw [htexts, String.toList_append]
    apply List.mem_append_right
    decide
  rw [Cache.fileName, String.toList_append] at hline
  rcases List.mem_append.mp hline with hline | hline
  · have hdigit := h '_' hline
    revert hdigit
    decide
  · revert hline
    decide

/-- No file of the cache has the name of a written audit. -/
theorem isApart_artifactNames (cache : Cache) :
  cache.IsApart artifactNames
  := by
  apply cache.isApart_of_names
  intro front fingerprint hvalid
  constructor
  · apply notMem_artifactNames_of_isHex front hvalid.isHex
  · apply notMem_artifactNames_of_isTemporary ⟨front, _, rfl⟩

end FileAudit

/-! ### Audits -/

namespace Session

open ReviewAction

variable (session : Session μ) {spared : Set (List String)} (h : session.cache.IsApart spared)

theorem spares_recordFailure (spared : Set (List String)) (review : CachedReview μ α)
    (reason : String) :
  Spares spared (recordFailure review reason)
  := Spares.of_files_eq fun _ => rfl

include h

theorem spares_keep {key : CacheKey} (hkey : key.fingerprint.IsValid) (kept : Json) :
  Spares spared (session.keep key kept)
  := by
  intro world hsound
  rw [keep_eq]
  apply h.spares_store hkey kept session.clock.seconds world.files hsound

theorem spares_perform {review : CachedReview μ α} (hkey : review.key.fingerprint.IsValid) :
  Spares spared (session.perform review)
  := by
  apply Spares.bind (Spares.look _)
  rintro (_ | result)
  · apply Spares.bind (Spares.of_files_eq fun _ => rfl)
    intro answer
    split
    · apply Spares.bind
      · apply spares_keep session h hkey
      · intro _
        apply Spares.pure
    · apply spares_recordFailure
    · split
      · apply Spares.throw
      · apply spares_recordFailure
  · apply Spares.bind (Spares.of_files_eq fun _ => rfl)
    intro _
    apply Spares.pure

theorem spares_auditChunks (refresh : Bool) (reviewers : List Reviewer) (chunks : List Chunk) :
  Spares spared (session.auditChunks refresh reviewers chunks)
  := by
  apply Spares.bind
  · apply Spares.mapM
    intro chunk _
    apply Spares.bind
    · apply Spares.bind
      · apply Spares.mapM
        intro reviewer _
        apply spares_perform session h
        apply Fingerprint.isValid_compute
      · intro found
        apply Spares.pure
    · intro found
      apply Spares.pure
  · intro found
    apply Spares.mapM
    intro pair _
    dsimp only [resolve]
    split
    · apply Spares.pure
    · apply Spares.throw

theorem spares_forget (force : Bool) (chunks : List Chunk) :
  Spares spared (session.forget force chunks)
  := by
  cases force with
  | false => apply Spares.pure
  | true =>
      apply Spares.forM
      intro id _
      apply Spares.bind
      · apply Spares.onFiles
        apply h.spares_invalidate
      · intro _
        apply Spares.pure

/-- An audit leaves all files as they were that are no files of the cache, whatever comes of it. -/
theorem spares_auditFile (path root : String) (force : Bool) :
  Spares spared (session.auditFile path root force)
  := by
  apply Spares.bind (Spares.look _)
  intro found
  apply Spares.bind (Spares.ofExcept _ _)
  intro file
  apply Spares.bind (Spares.look _)
  intro base
  apply Spares.bind
  · apply Spares.bind (Spares.look _)
    intro outcome
    apply Spares.ofExcept
  · intro outcome
    dsimp only
    split
    · apply Spares.pure
    · have hchunks : Spares spared (do
          let chunks ← session.auditChunks force Reviewer.auditors outcome.chunks
          return ({ file, chunks, degraded := outcome.degraded.map ChunkError.message } : FileAudit)) := by
        apply Spares.bind
        · apply spares_auditChunks session h
        · intro chunks
          apply Spares.pure
      split
      · apply Spares.bind (spares_forget session h true outcome.chunks)
        intro _
        apply hchunks
      · apply hchunks

/-! ### Audits in any order -/

section

variable {session} {path root : String} {force : Bool} {order : List Nat} {world later : World μ}
  (hsound : world.files.Sound)

include hsound

theorem spares_of_auditChunksBy? {refresh : Bool} {reviewers : List Reviewer} {chunks : List Chunk}
    {result : Except ReviewError (List ChunkAudit)}
    (haudited : session.auditChunksBy? refresh reviewers chunks order world = some (result, later)) :
  FileTree.Spares spared world.files later.files
  := by
  obtain ⟨last, outcome, hrun, -, hconclude⟩ :=
    (session.auditChunksBy?_eq_some_iff refresh reviewers).mp haudited
  obtain rfl : last.world = later := by
    rw [← snd_conclude reviewers.length chunks outcome last.world, hconclude]
  apply Schedule.spares_of_run? h hsound _ hrun
  intro review hreview
  obtain ⟨chunk, -, reviewer, -, rfl⟩ := mem_auditReviews_iff.mp hreview
  apply Fingerprint.isValid_compute

/-- An audit leaves all files as they were that are no files of the cache, in any order and whatever comes
of it. -/
theorem spares_of_auditFileBy? {result : Except ReviewError FileAudit}
    (haudited : session.auditFileBy? path root force order world = some (result, later)) :
  FileTree.Spares spared world.files later.files
  := by
  rw [auditFileBy?] at haudited
  split at haudited
  · obtain ⟨-, rfl⟩ := Prod.mk.inj (Option.some.inj haudited)
    apply FileTree.Spares.refl hsound
  · rename_i file outcome _
    dsimp only at haudited
    split at haudited
    · obtain ⟨-, rfl⟩ := Prod.mk.inj (Option.some.inj haudited)
      apply FileTree.Spares.refl hsound
    · have hforget := session.spares_forget h force outcome.chunks world hsound
      split at haudited
      · rename_i hleft
        rw [hleft] at hforget
        obtain ⟨-, rfl⟩ := Prod.mk.inj (Option.some.inj haudited)
        apply hforget
      · rename_i hleft
        rw [hleft] at hforget
        obtain ⟨⟨audited, last⟩, hchunks, heq⟩ := Option.map_eq_some_iff.mp haudited
        obtain ⟨-, rfl⟩ := Prod.mk.inj heq
        apply hforget.trans (spares_of_auditChunksBy? h hforget.sound hchunks)

end

end Session

end Scrutiny
