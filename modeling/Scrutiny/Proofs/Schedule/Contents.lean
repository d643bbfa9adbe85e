import Scrutiny.Proofs.Cache.HoldsOnly
import Scrutiny.Proofs.Cache.Writing
import Scrutiny.Proofs.Schedule.Exclusion

/-!
# The cache during a schedule

A review changes the cache in one move only, that in which its result is written, and then nothing
but the value under its own fingerprint.
-/

namespace Scrutiny

/-! ### Values in the cache -/

namespace Cache

variable {cache : Cache} {tree next : FileTree}

/-- The value that is found under a fingerprint. -/
def value? (cache : Cache) (tree : FileTree) (fingerprint : Fingerprint) : Option Json :=
  (cache.lookup tree fingerprint).map (·.result)

/-- The same values are found in two states of the files. -/
def Agrees (cache : Cache) (tree next : FileTree) : Prop :=
  ∀ fingerprint : Fingerprint, fingerprint.IsValid →
    cache.value? tree fingerprint = cache.value? next fingerprint

/-- What is found of a value that was written. -/
def storedValue? (value : Json) : Option Json :=
  if value.depth ≤ 126 then some value.reread else none

/-- What is found after a result was written, or could not be written. -/
theorem value?_of_writeJson (hroot : tree.HasFolder cache.root) {key : CacheKey}
    (hkey : key.fingerprint.IsValid) {kept : Json} (hnormal : kept.IsNormal) (hfits : kept.Fits)
    {now : Nat} (hnow : now < 2 ^ 64) {result : Except FileError Unit}
    (h : FileAction.writeJson (cache.entryPath key.fingerprint) (CacheEntry.ofKey key kept now).toJson
      tree = (result, next)) :
  cache.value? next key.fingerprint
    = match result with
      | .ok _ => storedValue? kept
      | .error _ => cache.value? tree key.fingerprint
  := by
  obtain ⟨-, -, -, hself⟩ := of_writeJson_entryPath hroot hkey h
  rw [value?, hself]
  cases result with
  | ok u =>
      have hread := CacheEntry.ofBytes?_bytes_ofKey key hnormal hfits hnow
      rw [CacheEntry.bytes] at hread
      dsimp only
      rw [hread, storedValue?]
      split
      · rw [Option.filter_some, if_pos]
        · rfl
        · apply beq_self_eq_true
      · rfl
  | error e => rfl

end Cache

/-! ### What a review finds -/

variable {μ α : Type} {session : Session μ}

namespace CachedReview

variable {review : CachedReview μ α} {cache : Cache} {tree next : FileTree}

theorem found?_eq (review : CachedReview μ α) (cache : Cache) (tree : FileTree) :
  review.found? cache tree
    = if review.refresh then none
      else (cache.value? tree review.key.fingerprint).bind review.readBack?
  := by
  rw [found?, Cache.value?, Option.bind_map]
  rfl

/-- What a review finds depends on the value under its fingerprint alone. -/
theorem found?_congr
    (h : cache.value? next review.key.fingerprint = cache.value? tree review.key.fingerprint) :
  review.found? cache next = review.found? cache tree
  := by
  rw [found?_eq, found?_eq, h]

end CachedReview

/-! ### What the moves change -/

/-- What a review has to do with the values under its fingerprint. -/
structure CachedReview.IsRegular (review : CachedReview μ α) : Prop where
  isValid : review.key.fingerprint.IsValid
  of_usable : ∀ model result kept, (review.ask model).result = .ok (.usable result kept) →
    kept.IsNormal ∧ kept.Fits

/-- A review whose result can be read back from what it keeps. -/
structure CachedReview.IsFaithful (review : CachedReview μ α) : Prop extends review.IsRegular where
  readBack?_eq : ∀ model result kept, (review.ask model).result = .ok (.usable result kept) →
    review.readBack? kept.reread = some result

/-- The value under the fingerprint of a review after the review has come from one phase to another. -/
def valueAfter (value? : Option Json) : JobPhase α → JobPhase α → Option Json
  | .keeping _ kept, .atIndex _ => Cache.storedValue? kept
  | _, _ => value?

/-- What a review does to the files when it comes from one phase to another: the folders of the
cache, the places where results can be kept and all values but its own stay. -/
structure CachedReview.Effect (review : CachedReview μ α) (cache : Cache) (phase phase' : JobPhase α)
    (tree next : FileTree) : Prop where
  hasFolder : next.HasFolder cache.root
  canKeep_iff : ∀ other, cache.CanKeep next other ↔ cache.CanKeep tree other
  value?_ne : ∀ other, other.IsValid → other ≠ review.key.fingerprint →
    cache.value? next other = cache.value? tree other
  value?_self : cache.value? next review.key.fingerprint
    = valueAfter (cache.value? tree review.key.fingerprint) phase phase'

/-- Asking the model changes no files. -/
theorem World.files_of_ask {world later : World μ} {question : μ → Asked α μ}
    {answer : Except InferenceError α} (h : world.ask question = (answer, later)) :
  later.files = world.files
  := by
  have hlater : later = (world.ask question).2 := by rw [h]
  rw [hlater]
  rfl

theorem Move.effect {world world' : World μ} {review : CachedReview μ α} {phase phase' : JobPhase α}
    (hroot : world.files.HasFolder session.cache.root) (hnow : session.clock.seconds < 2 ^ 64)
    (hvalid : review.key.fingerprint.IsValid)
    (hkept : ∀ result kept, phase = .keeping result kept → kept.IsNormal ∧ kept.Fits)
    (hmove : Move session world (.review review) phase world' phase') :
  review.Effect session.cache phase phase' world.files world'.files
  := by
  have hsame {files : FileTree} (h : files = world.files)
      (hvalue : valueAfter (session.cache.value? world.files review.key.fingerprint) phase phase'
        = session.cache.value? world.files review.key.fingerprint) :
      review.Effect session.cache phase phase' world.files files := by
    rw [h]
    exact ⟨hroot, fun _ => Iff.rfl, fun _ _ _ => rfl, hvalue.symm⟩
  cases hmove with
  | usable h | fatal h => exact hsame (World.files_of_ask h) rfl
  | useless h | failure h =>
      apply hsame _ rfl
      rw [World.countFailure]
      apply World.files_of_ask h
  | kept h | notKept h =>
      obtain ⟨hnormal, hfits⟩ := hkept _ _ rfl
      obtain ⟨hroot', hcan, hothers, -⟩ := Cache.of_writeJson_entryPath hroot hvalid h
      use hroot', hcan
      · intro other hother hne
        rw [Cache.value?, Cache.value?, hothers other hother hne]
      · apply Cache.value?_of_writeJson hroot hvalid hnormal hfits hnow h
  | listed h =>
      obtain ⟨hroot', hcan, hlookup⟩ := Cache.of_addToIndex hroot h
      use hroot', hcan
      · intro other hother _
        rw [Cache.value?, Cache.value?, hlookup other hother]
      · dsimp only [valueAfter]
        rw [Cache.value?, Cache.value?, hlookup _ hvalid]
  | _ => exact hsame rfl rfl

namespace Schedule

variable {state next : Schedule μ α} {i : Nat}

/-- The folder of the cache is there, the reviews are regular, and what they are about to write are
usable replies. -/
structure IsStocked (session : Session μ) (state : Schedule μ α) : Prop where
  hasFolder : state.world.files.HasFolder session.cache.root
  isRegular : ∀ (i : Nat) (review : CachedReview μ α) (phase : JobPhase α),
    state.jobs[i]? = some (.review review, phase) → review.IsRegular
  usable : ∀ (i : Nat) (review : CachedReview μ α) (result : α) (kept : Json),
    state.jobs[i]? = some (.review review, .keeping result kept) →
    ∃ model, (review.ask model).result = .ok (.usable result kept)

theorem isStocked_ofJobs {world : World μ} {jobs : List (Job μ α)}
    (hroot : world.files.HasFolder session.cache.root)
    (hregular : ∀ review, Job.review review ∈ jobs → review.IsRegular) :
  (ofJobs session world jobs).IsStocked session
  := by
  have hjobs {i : Nat} {job : Job μ α} {phase : JobPhase α}
      (h : (ofJobs session world jobs).jobs[i]? = some (job, phase)) :
      job ∈ jobs ∧ phase = .idle := by
    obtain ⟨other, hother, hpair⟩ := List.mem_map.mp (List.mem_of_getElem? h)
    obtain ⟨rfl, rfl⟩ := Prod.mk.inj hpair
    exact ⟨hother, rfl⟩
  constructor
  · apply hroot
  · intro i review phase h
    apply hregular review (hjobs h).1
  · intro i review result kept h
    cases (hjobs h).2

theorem isStocked_ofReviews {world : World μ} {reviews : List (CachedReview μ α)}
    (hroot : world.files.HasFolder session.cache.root)
    (hregular : ∀ review ∈ reviews, review.IsRegular) :
  (ofJobs session world (reviews.map .review)).IsStocked session
  := by
  apply isStocked_ofJobs hroot
  intro review hreview
  obtain ⟨other, hother, heq⟩ := List.mem_map.mp hreview
  obtain rfl := Job.review.inj heq
  apply hregular other hother

theorem IsStocked.effect (h : state.IsStocked session) (hnow : session.clock.seconds < 2 ^ 64)
    {world : World μ} {review : CachedReview μ α} {phase phase' : JobPhase α}
    (hjob : state.jobs[i]? = some (.review review, phase))
    (hmove : Move session state.world (.review review) phase world phase') :
  review.Effect session.cache phase phase' state.world.files world.files
  := by
  have hregular := h.isRegular i review phase hjob
  apply hmove.effect h.hasFolder hnow hregular.isValid
  rintro result kept rfl
  obtain ⟨model, hask⟩ := h.usable i review result kept hjob
  apply hregular.of_usable model result kept hask

theorem isStocked_of_step? (h : state.IsStocked session) (hnow : session.clock.seconds < 2 ^ 64)
    (hstep : state.step? session i = some next) :
  next.IsStocked session
  := by
  obtain ⟨job, phase, hjob, world, phase', hmove, -, rfl⟩ := step?_eq_some_iff.mp hstep
  constructor
  · cases job with
    | review review => apply (h.effect hnow hjob hmove).hasFolder
    | invalidation chunkId =>
        have hspares := session.cache.isApart_empty.spares_invalidate chunkId _ h.hasFolder.sound
        cases hmove with
        | takeIndex | askIndex => apply h.hasFolder
        | removed hremove | notRemoved hremove =>
            rw [hremove] at hspares
            apply h.hasFolder.of_keeps hspares.toKeeps
  · intro j review later hlater
    rcases of_getElem?_withPhase hjob hlater with ⟨-, rfl, -⟩ | ⟨-, hlater⟩
    · apply h.isRegular i review phase hjob
    · apply h.isRegular j review later hlater
  · intro j review result kept hlater
    rcases of_getElem?_withPhase hjob hlater with ⟨-, rfl, rfl⟩ | ⟨-, hlater⟩
    · cases hmove with
      | usable hask =>
          use state.world.model
          apply congrArg Prod.fst hask
    · apply h.usable j review result kept hlater

end Schedule

end Scrutiny
