import Scrutiny.Review.Cached

/-!
# Actions of reviews

What an action does that is made of others, and what a review does that is carried out alone.
-/

namespace Scrutiny

variable {μ α β : Type} {world next : World μ}

namespace ReviewAction

theorem bind_of_ok {action : ReviewAction μ α} (later : α → ReviewAction μ β) {a : α}
    (h : action world = (.ok a, next)) :
  (action >>= later) world = later a next
  := by
  have hbind : (action >>= later) world = ExceptT.bindCont later (action world).1 (action world).2 :=
    rfl
  rw [hbind, h]
  rfl

theorem bind_of_error {action : ReviewAction μ α} (later : α → ReviewAction μ β) {e : ReviewError}
    (h : action world = (.error e, next)) :
  (action >>= later) world = (.error e, next)
  := by
  have hbind : (action >>= later) world = ExceptT.bindCont later (action world).1 (action world).2 :=
    rfl
  rw [hbind, h]
  rfl

theorem of_bind {action : ReviewAction μ α} {later : α → ReviewAction μ β}
    {result : Except ReviewError β} (h : (action >>= later) world = (result, next)) :
  (∃ e, action world = (.error e, next) ∧ result = .error e)
    ∨ ∃ a middle, action world = (.ok a, middle) ∧ later a middle = (result, next)
  := by
  rcases haction : action world with ⟨e | a, middle⟩
  · left
    rw [bind_of_error later haction] at h
    obtain ⟨rfl, rfl⟩ := Prod.mk.inj h
    exact ⟨e, rfl, rfl⟩
  · right
    rw [bind_of_ok later haction] at h
    exact ⟨a, middle, rfl, h⟩

theorem of_bind_eq_ok {action : ReviewAction μ α} {later : α → ReviewAction μ β} {b : β}
    (h : (action >>= later) world = (.ok b, next)) :
  ∃ a middle, action world = (.ok a, middle) ∧ later a middle = (.ok b, next)
  := by
  rcases of_bind h with ⟨e, -, herror⟩ | hlater
  · cases herror
  · apply hlater

theorem of_pure_eq_ok {a b : α} (h : (pure a : ReviewAction μ α) world = (.ok b, next)) :
  a = b ∧ world = next
  := ⟨Except.ok.inj (congrArg Prod.fst h), congrArg Prod.snd h⟩

theorem of_look_eq_ok {view : FileTree → α} {a : α} (h : look view world = (.ok a, next)) :
  view world.files = a ∧ world = next
  := ⟨Except.ok.inj (congrArg Prod.fst h), congrArg Prod.snd h⟩

theorem of_ofExcept_eq_ok {ε : Type} {wrap : ε → ReviewError} {result : Except ε α} {a : α}
    (h : ofExcept wrap result world = (.ok a, next)) :
  result = .ok a ∧ world = next
  := by
  obtain ⟨ha, rfl⟩ := Prod.mk.inj h
  cases result with
  | error e => cases ha
  | ok b => rw [Except.ok.inj ha]; simp

theorem of_onFiles {wrap : FileError → ReviewError} {action : FileAction α}
    {result : Except ReviewError α} (h : onFiles wrap action world = (result, next)) :
  ∃ found files, action world.files = (found, files) ∧ found.mapError wrap = result
    ∧ next = { world with files }
  := by
  obtain ⟨rfl, rfl⟩ := Prod.mk.inj h
  exact ⟨_, _, rfl, rfl, rfl⟩

theorem of_onFiles_eq_error {wrap : FileError → ReviewError} {action : FileAction α} {e : ReviewError}
    (h : onFiles wrap action world = (.error e, next)) :
  ∃ cause files, action world.files = (.error cause, files) ∧ e = wrap cause ∧ next = { world with files }
  := by
  obtain ⟨found, files, haction, hfound, rfl⟩ := of_onFiles h
  cases found with
  | error cause => exact ⟨cause, files, haction, (Except.error.inj hfound).symm, rfl⟩
  | ok b => cases hfound

theorem of_onFiles_eq_ok {wrap : FileError → ReviewError} {action : FileAction α} {a : α}
    (h : onFiles wrap action world = (.ok a, next)) :
  ∃ files, action world.files = (.ok a, files) ∧ next = { world with files }
  := by
  obtain ⟨found, files, haction, hfound, rfl⟩ := of_onFiles h
  cases found with
  | error e => cases hfound
  | ok b =>
      obtain rfl := Except.ok.inj hfound
      exact ⟨files, haction, rfl⟩

section

variable {action : ReviewAction μ α} {handler : ReviewError → ReviewAction μ α}

theorem tryCatch_of_ok {a : α} (h : action world = (.ok a, next)) :
  tryCatch action handler world = (.ok a, next)
  := by
  have htry : tryCatch action handler world = ExceptT.tryCatch action handler world := rfl
  rw [htry, ExceptT.tryCatch, ExceptT.mk]
  change StateT.bind _ _ world = _
  rw [StateT.bind, h]
  rfl

theorem tryCatch_of_error {e : ReviewError} (h : action world = (.error e, next)) :
  tryCatch action handler world = handler e next
  := by
  have htry : tryCatch action handler world = ExceptT.tryCatch action handler world := rfl
  rw [htry, ExceptT.tryCatch, ExceptT.mk]
  change StateT.bind _ _ world = _
  rw [StateT.bind, h]
  rfl

/-- An action succeeds, or it fails and the handler succeeds. -/
theorem of_tryCatch_eq_ok {a : α} (h : tryCatch action handler world = (.ok a, next)) :
  action world = (.ok a, next)
    ∨ ∃ e middle, action world = (.error e, middle) ∧ handler e middle = (.ok a, next)
  := by
  rcases haction : action world with ⟨e | b, middle⟩
  · right
    rw [tryCatch_of_error haction] at h
    exact ⟨e, middle, rfl, h⟩
  · left
    rw [tryCatch_of_ok haction] at h
    rw [← h]

end

theorem bind_pure_eq (action : ReviewAction μ α) (f : α → β) (world : World μ) :
  (do return f (← action) : ReviewAction μ β) world = ((action world).1.map f, (action world).2)
  := by
  rcases haction : action world with ⟨e | a, next⟩
  · rw [bind_of_error _ haction]
    rfl
  · rw [bind_of_ok _ haction]
    rfl

/-- What each action of a list keeps of the world, all of them keep, whatever comes of them. -/
theorem holds_of_forM {P : World μ → Prop} {f : α → ReviewAction μ PUnit}
    (h : ∀ a world, P world → P (f a world).2) (list : List α) (hworld : P world) :
  P (list.forM f world).2
  := by
  induction list generalizing world with
  | nil => apply hworld
  | cons a rest ih =>
      have hnext := h a world hworld
      rw [List.forM_eq_forM, List.forM_cons]
      rcases hfirst : f a world with ⟨e | ⟨⟩, middle⟩
      · rw [hfirst] at hnext
        rw [bind_of_error _ hfirst]
        apply hnext
      · rw [hfirst] at hnext
        rw [bind_of_ok _ hfirst]
        apply ih hnext

theorem length_of_mapM_eq_ok {α β : Type} {f : α → ReviewAction μ β} {list : List α}
    {results : List β} (h : list.mapM f world = (.ok results, next)) :
  results.length = list.length
  := by
  induction list generalizing results world next with
  | nil =>
      rw [List.mapM_nil] at h
      obtain ⟨heq, -⟩ := Prod.mk.inj h
      rw [← Except.ok.inj heq]
      rfl
  | cons a rest ih =>
      rw [List.mapM_cons] at h
      rcases hfirst : f a world with ⟨e | b, middle⟩
      · rw [bind_of_error _ hfirst] at h
        cases congrArg Prod.fst h
      · rw [bind_of_ok _ hfirst] at h
        rcases hrest : rest.mapM f middle with ⟨e | others, last⟩
        · rw [bind_of_error _ hrest] at h
          cases congrArg Prod.fst h
        · rw [bind_of_ok _ hrest] at h
          obtain ⟨heq, -⟩ := Prod.mk.inj h
          rw [← Except.ok.inj heq, List.length_cons, List.length_cons, ih hrest]

end ReviewAction

namespace Session

variable {session : Session μ} {review : CachedReview μ α}

/-- A review that finds a result. -/
theorem perform_of_found {result : α} (h : review.found? session.cache world.files = some result) :
  session.perform review world = (.ok result, world.countHit)
  := by
  have hlook : ReviewAction.look (review.found? session.cache) world = (.ok (some result), world) := by
    rw [ReviewAction.look, h]
  rw [perform, ReviewAction.bind_of_ok _ hlook]
  rfl

/-- A review that finds none. -/
theorem perform_of_not_found (h : review.found? session.cache world.files = none) :
  session.perform review world = session.askAndKeep review world
  := by
  have hlook : ReviewAction.look (review.found? session.cache) world = (.ok none, world) := by
    rw [ReviewAction.look, h]
  rw [perform, ReviewAction.bind_of_ok _ hlook]

theorem ask_eq {answer : Except InferenceError (Judgement α)}
    (h : world.ask review.ask = (answer, next)) :
  ReviewAction.ask review.ask world = (.ok answer, next)
  := by
  rw [ReviewAction.ask, h]

/-- Keeping a result never fails; it changes the files as a store does. -/
theorem keep_eq (session : Session μ) (key : CacheKey) (kept : Json) (world : World μ) :
  session.keep key kept world
    = (.ok (),
        { world with files := (session.cache.store key kept session.clock.seconds world.files).2 })
  := by
  rcases hstore : session.cache.store key kept session.clock.seconds world.files with ⟨e | entry, files⟩
  · have hfiles : ReviewAction.onFiles ReviewAction.cacheFailure
        (session.cache.store key kept session.clock.seconds) world
        = (.error (ReviewAction.cacheFailure e), { world with files }) := by
      rw [ReviewAction.onFiles, hstore]
      rfl
    rw [keep, ReviewAction.tryCatch_of_error (ReviewAction.bind_of_error _ hfiles)]
    rfl
  · have hfiles : ReviewAction.onFiles ReviewAction.cacheFailure
        (session.cache.store key kept session.clock.seconds) world
        = (.ok entry, { world with files }) := by
      rw [ReviewAction.onFiles, hstore]
      rfl
    rw [keep]
    apply ReviewAction.tryCatch_of_ok
    rw [ReviewAction.bind_of_ok _ hfiles]
    rfl

theorem askAndKeep_of_usable {result : α} {kept : Json}
    (h : world.ask review.ask = (.ok (.usable result kept), next)) :
  session.askAndKeep review world
    = (.ok result,
        { next with files := (session.cache.store review.key kept session.clock.seconds next.files).2 })
  := by
  rw [askAndKeep, ReviewAction.bind_of_ok _ (ask_eq h)]
  dsimp only
  rw [ReviewAction.bind_of_ok _ (keep_eq session review.key kept next)]
  rfl

theorem askAndKeep_of_useless {reason : String}
    (h : world.ask review.ask = (.ok (.useless reason), next)) :
  session.askAndKeep review world = (.ok (review.failed reason), next.countFailure)
  := by
  rw [askAndKeep, ReviewAction.bind_of_ok _ (ask_eq h)]
  rfl

theorem askAndKeep_of_failure {e : InferenceError} (h : world.ask review.ask = (.error e, next))
    (hfatal : e.isFatal = false) :
  session.askAndKeep review world = (.ok (review.failed e.message), next.countFailure)
  := by
  rw [askAndKeep, ReviewAction.bind_of_ok _ (ask_eq h)]
  dsimp only
  rw [hfatal]
  rfl

theorem askAndKeep_of_fatal {e : InferenceError} (h : world.ask review.ask = (.error e, next))
    (hfatal : e.isFatal) :
  session.askAndKeep review world = (.error (.inference e), next)
  := by
  rw [askAndKeep, ReviewAction.bind_of_ok _ (ask_eq h)]
  dsimp only
  rw [hfatal]
  rfl

end Session

end Scrutiny
