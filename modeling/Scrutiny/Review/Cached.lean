import Scrutiny.Review.Session

/-!
# Reviews with a cache

What all reviews of a chunk have in common: a result is taken from the cache if there is one; else
the model is asked, and a usable reply is kept.  A reply that is of no use, or an error that is
not one of the configuration, gives a result of its own, which is not kept.
-/

namespace Scrutiny

/-- What a reply of the model is worth. -/
inductive Judgement (α : Type) where
  /-- It gives a result, and a value to be kept in the cache. -/
  | usable (result : α) (kept : Json)
  /-- It is of no use. -/
  | useless (reason : String)

/-- A review of a chunk whose result can be kept. -/
structure CachedReview (μ α : Type) where
  /-- The key of the result in the cache. -/
  key : CacheKey
  /-- Whether the cache is passed over when a result is looked for. -/
  refresh : Bool
  /-- The result that a value from the cache gives. -/
  readBack? : Json → Option α
  /-- Asks the model. -/
  ask : μ → Asked (Judgement α) μ
  /-- The result if there is no usable reply. -/
  failed : String → α

namespace CachedReview

variable {μ α : Type}

/-- The result in the cache. -/
def found? (review : CachedReview μ α) (cache : Cache) (tree : FileTree) : Option α :=
  if review.refresh then none
  else (cache.lookup tree review.key.fingerprint).bind fun entry => review.readBack? entry.result

end CachedReview

/-- The answer that a model gives, with what it is worth. -/
def Asked.judged {α β μ : Type} (judge : α → Judgement β) (asked : Asked α μ) : Asked (Judgement β) μ :=
  { asked with result := asked.result.map judge }

namespace Session

variable {μ α : Type}

/-- Keeps a result in the cache; if that fails, the result is still of use. -/
def keep (session : Session μ) (key : CacheKey) (result : Json) : ReviewAction μ Unit :=
  tryCatch (do
    let _ ← ReviewAction.onFiles ReviewAction.cacheFailure
      (session.cache.store key result session.clock.seconds)) fun _ => pure ()

/-- Records that there is no usable reply. -/
def recordFailure (review : CachedReview μ α) (reason : String) : ReviewAction μ α := do
  ReviewAction.countFailure
  return review.failed reason

/-- Asks the model and keeps a usable reply. -/
def askAndKeep (session : Session μ) (review : CachedReview μ α) : ReviewAction μ α := do
  match ← ReviewAction.ask review.ask with
  | .ok (.usable result kept) =>
    session.keep review.key kept
    return result
  | .ok (.useless reason) => recordFailure review reason
  | .error e => if e.isFatal then throw (.inference e) else recordFailure review e.message

/-- Carries out a review. -/
def perform (session : Session μ) (review : CachedReview μ α) : ReviewAction μ α := do
  match ← ReviewAction.look (review.found? session.cache) with
  | some result =>
    ReviewAction.countHit
    return result
  | none => session.askAndKeep review

end Session

end Scrutiny
