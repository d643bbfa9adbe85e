import Scrutiny.Inference.Client
import Scrutiny.Proofs.Chunk.Guard
import Scrutiny.Proofs.Review.Actions
import Scrutiny.Proofs.Review.Regular
import Mathlib.Data.List.Nodup
import Mathlib.Data.List.Range

/-!
# Prompts

A chunk is never larger than what the model may be told, so it is told all of it.  What a reviewer
asks about a chunk depends on its text and on nothing else that two chunks, or two runs, may differ in.
-/

namespace Scrutiny

variable {μ ν α β : Type}

/-- The session with a model that notes its requests. -/
def Session.recorded (session : Session μ) : Session (μ × List ChatRequest) :=
  { session with model := session.model.recorded }

/-- The requests that an action sends from a world on, in order. -/
def ReviewAction.requests (action : ReviewAction (μ × List ChatRequest) α) (world : World μ) :
    List ChatRequest :=
  (action { world with model := (world.model, []) }).2.model.2

/-! ### Requests -/

/-- Attempts are noted, and nothing else about them is changed.  Their requests are numbered, and there is
one at least if an attempt is allowed. -/
theorem Inference.attempt_recorded (config : ModelConfig) (model : Model μ) (ask : Nat → ChatRequest)
    (accept : String → Except InferenceError α) (left number : Nat) (last : InferenceError)
    (waited : Duration) (state : μ) (log : List ChatRequest) :
  ∃ count, count ≤ left ∧ (0 < left → 0 < count)
    ∧ attempt config model.recorded ask accept left number last waited (state, log)
      = { result := (attempt config model ask accept left number last waited state).result
          state := ((attempt config model ask accept left number last waited state).state,
            log ++ (List.range' number count).map ask)
          waited := (attempt config model ask accept left number last waited state).waited }
  := by
  induction left generalizing number last waited state log with
  | zero =>
      refine ⟨0, Nat.le_refl 0, id, ?_⟩
      rw [attempt, attempt, List.range'_zero, List.map_nil, List.append_nil]
  | succ left ih =>
      rw [attempt, attempt]
      dsimp only [Model.recorded]
      generalize (if number = 1 then waited else waited.add (config.backoff (number - 1))) = waited'
      cases (model state (ask number)).1.bind accept with
      | ok value => exact ⟨1, Nat.succ_pos left, fun _ => Nat.one_pos, rfl⟩
      | error e =>
          by_cases hretry : e.isRetryable = true
          · obtain ⟨count, hle, -, heq⟩ := ih (number + 1) e waited' (model state (ask number)).2
              (log ++ [ask number])
            use count + 1, Nat.succ_le_succ hle, fun _ => Nat.succ_pos count
            dsimp only
            rw [if_pos hretry, if_pos hretry, heq, List.append_assoc]
            rfl
          · use 1, Nat.succ_pos left, fun _ => Nat.one_pos
            dsimp only
            rw [if_neg hretry, if_neg hretry]
            rfl

/-- A review asks the model at most once. -/
theorem Session.requests_perform (session : Session (μ × List ChatRequest))
    (review : CachedReview (μ × List ChatRequest) α) (world : World μ) :
  (session.perform review).requests world = []
    ∨ (session.perform review).requests world = (review.ask (world.model, [])).state.2
  := by
  rw [ReviewAction.requests]
  generalize hstart : ({ world with model := (world.model, []) } : World (μ × List ChatRequest)) = start
  have hmodel : start.model = (world.model, []) := by rw [← hstart]
  cases hfound : review.found? session.cache start.files with
  | some result =>
      left
      rw [perform_of_found hfound, World.countHit, hmodel]
  | none =>
      right
      rw [perform_of_not_found hfound, ← hmodel]
      rcases hasked : start.ask review.ask with ⟨answer, next⟩
      have hnext : next.model = (review.ask start.model).state := by
        have hsnd := congrArg Prod.snd hasked
        rw [← show _ = next from hsnd]
        rfl
      rw [← hnext]
      cases answer with
      | error e =>
          cases hfatal : e.isFatal with
          | true => rw [askAndKeep_of_fatal hasked hfatal]
          | false =>
              rw [askAndKeep_of_failure hasked hfatal]
              rfl
      | ok judgement =>
          cases judgement with
          | usable result kept => rw [askAndKeep_of_usable hasked]
          | useless reason =>
              rw [askAndKeep_of_useless hasked]
              rfl

/-! ### Prompts -/

/-- The chunks of a file are no larger than the ceiling. -/
theorem size_le_of_chunkFileGuarded {config : ChunkConfig} {tree : FileTree} {path root : String}
    {outcome : ChunkOutcome} {chunk : Chunk}
    (h : chunkFileGuarded config tree path root = .ok outcome) (hchunk : chunk ∈ outcome.chunks) :
  chunk.size ≤ max config.maxChars 1
  := by
  rw [chunkFileGuarded] at h
  cases hread : readSource tree path with
  | error e =>
      rw [hread] at h
      cases h
  | ok text =>
      simp only [hread, bind, Except.bind, pure, Except.pure] at h
      split at h
      · rw [← Except.ok.inj h] at hchunk
        cases hchunk
      · rw [chunkGuarded] at h
        split at h
        · cases h
        · obtain rfl := Except.ok.inj h
          obtain ⟨whole, -, hpart⟩ := List.mem_flatMap.mp hchunk
          apply SizeGuard.size_le_of_mem_guardBy SizeGuard.isSegmentation_clusters hpart

namespace Session

variable {session : Session μ} {path root : String} {world later : World μ} {outcome : ChunkOutcome}
  {chunk : Chunk}

/-- A chunk of a file is told to the model as it is. -/
theorem bounded_of_mem_chunks (hlimit : 0 < session.settings.charLimit)
    (h : session.chunks path root world = (.ok outcome, later)) (hchunk : chunk ∈ outcome.chunks) :
  session.bounded chunk.text = chunk.text
  := by
  obtain ⟨found, middle, hlook, hfound⟩ := ReviewAction.of_bind_eq_ok h
  obtain ⟨rfl, rfl⟩ := ReviewAction.of_look_eq_ok hlook
  obtain ⟨hguarded, -⟩ := ReviewAction.of_ofExcept_eq_ok hfound
  have hsize := size_le_of_chunkFileGuarded hguarded hchunk
  rw [bounded, Text.truncate]
  apply if_pos
  rwa [chunkConfig, Nat.max_eq_left hlimit] at hsize

/-- A review that asks as described sends numbered requests. -/
theorem exists_requests_perform {review : CachedReview (μ × List ChatRequest) α}
    (ask : Nat → ChatRequest) (accept : String → Except InferenceError β)
    (h : ∀ state, (review.ask state).state
      = (Inference.run session.config session.model.recorded ask accept state).state)
    (world : World μ) :
  ∃ count, (session.recorded.perform review).requests world = (List.range' 1 count).map ask
  := by
  rcases session.recorded.requests_perform review world with hnone | hasked
  · use 0, hnone
  · obtain ⟨count, -, -, hattempts⟩ := Inference.attempt_recorded session.config session.model ask
      accept session.config.maxAttempts 1 (.transient "No inference attempts made") ⟨0⟩ world.model []
    use count
    rw [hasked, h, Inference.run, hattempts, List.nil_append]

/-- The requests of an auditor about a chunk. -/
theorem exists_requests_reviewChunk (refresh : Bool) (chunk : Chunk) (reviewer : Reviewer)
    (world : World μ) :
  ∃ count, (session.recorded.reviewChunk refresh chunk reviewer).requests world
    = (List.range' 1 count).map fun number =>
      Inference.request session.config true reviewer.prompt
        (if number = 1 then session.bounded chunk.text
          else session.bounded chunk.text ++ "\n\n" ++ Inference.reminder)
  := by
  apply exists_requests_perform _ Inference.acceptObject
  intro state
  rfl

/-- The requests for the explanation of a chunk. -/
theorem exists_requests_explainChunk (refresh : Bool) (chunk : Chunk) (world : World μ) :
  ∃ count, (session.recorded.explainChunk refresh chunk).requests world
    = (List.range' 1 count).map fun _ =>
      Inference.request session.config false Reviewer.whyExtractor.prompt (session.bounded chunk.text)
  := by
  apply exists_requests_perform _ Inference.acceptText
  intro state
  rfl

end Session

/-- A request asks the same as another one, though perhaps at another temperature. -/
def ChatRequest.AsksLike (request other : ChatRequest) : Prop :=
  request = { other with temperature := request.temperature }

/-- Requests with the same place in two lists ask the same. -/
def AskAlike (requests others : List ChatRequest) : Prop :=
  ∀ (k : Nat) (request other : ChatRequest),
    requests[k]? = some request → others[k]? = some other → request.AsksLike other

theorem askAlike_of_numbered {requests others : List ChatRequest} {ask ask' : Nat → ChatRequest}
    (hrequests : ∃ count, requests = (List.range' 1 count).map ask)
    (hothers : ∃ count, others = (List.range' 1 count).map ask')
    (h : ∀ number, (ask number).AsksLike (ask' number)) :
  AskAlike requests others
  := by
  obtain ⟨count, rfl⟩ := hrequests
  obtain ⟨count', rfl⟩ := hothers
  intro k request other hrequest hother
  obtain ⟨hk, rfl⟩ := List.getElem?_eq_some_iff.mp hrequest
  obtain ⟨hk', rfl⟩ := List.getElem?_eq_some_iff.mp hother
  rw [List.getElem_map, List.getElem_map, List.getElem_range', List.getElem_range']
  apply h

/-- Reviewers are known by their names. -/
theorem Reviewer.eq_of_id_eq {reviewer reviewer' : Reviewer} (h : reviewer ∈ all) (h' : reviewer' ∈ all)
    (hid : reviewer.id = reviewer'.id) :
  reviewer = reviewer'
  := by
  have hnodup : (all.map Reviewer.id).Nodup := by decide
  apply List.inj_on_of_nodup_map hnodup h h' hid

/-- A chunk of a file is told to the model as it is.  Two runs, which may differ in their limits, their
models and all else, ask the same about two chunks if the texts of the chunks, the names of the
reviewers, the names of the models and the largest numbers of tokens are the same. -/
theorem askAlike_of_mem_chunks {session : Session μ} {session' : Session ν}
    (hlimit : 0 < session.settings.charLimit) (hlimit' : 0 < session'.settings.charLimit)
    {path root path' root' : String} {world later : World μ} {world' later' : World ν}
    {outcome outcome' : ChunkOutcome} {chunk chunk' : Chunk}
    (hchunks : session.chunks path root world = (.ok outcome, later))
    (hchunks' : session'.chunks path' root' world' = (.ok outcome', later'))
    (hmem : chunk ∈ outcome.chunks) (hmem' : chunk' ∈ outcome'.chunks)
    (htext : chunk.text = chunk'.text) (hmodel : session.config.model = session'.config.model)
    (htokens : session.config.maxOutputTokens = session'.config.maxOutputTokens) :
  session.bounded chunk.text = chunk.text ∧ session'.bounded chunk'.text = chunk'.text
    ∧ ∀ (refresh refresh' : Bool) (start : World μ) (start' : World ν),
      (∀ reviewer ∈ Reviewer.all, ∀ reviewer' ∈ Reviewer.all, reviewer.id = reviewer'.id →
        AskAlike ((session.recorded.reviewChunk refresh chunk reviewer).requests start)
          ((session'.recorded.reviewChunk refresh' chunk' reviewer').requests start'))
      ∧ AskAlike ((session.recorded.explainChunk refresh chunk).requests start)
          ((session'.recorded.explainChunk refresh' chunk').requests start')
  := by
  have hbounded := session.bounded_of_mem_chunks hlimit hchunks hmem
  have hbounded' := session'.bounded_of_mem_chunks hlimit' hchunks' hmem'
  use hbounded, hbounded'
  intro refresh refresh' start start'
  constructor
  · intro reviewer hreviewer reviewer' hreviewer' hid
    obtain rfl := Reviewer.eq_of_id_eq hreviewer hreviewer' hid
    apply askAlike_of_numbered (session.exists_requests_reviewChunk refresh chunk reviewer start)
      (session'.exists_requests_reviewChunk refresh' chunk' reviewer start')
    intro number
    rw [ChatRequest.AsksLike, hbounded, hbounded', htext, Inference.request, Inference.request, hmodel,
      htokens]
  · apply askAlike_of_numbered (session.exists_requests_explainChunk refresh chunk start)
      (session'.exists_requests_explainChunk refresh' chunk' start')
    intro number
    rw [ChatRequest.AsksLike, hbounded, hbounded', htext, Inference.request, Inference.request, hmodel,
      htokens]

/-- A session with another limit. -/
def Session.withLimit (session : Session μ) (limit : Nat) : Session μ :=
  { session with settings := { session.settings with charLimit := limit } }

theorem eq_ok_of_toOption {ε : Type} {result : Except ε α} {a : α} (h : result.toOption = some a) :
  result = .ok a
  := by
  cases result with
  | error e => cases h
  | ok b => exact congrArg Except.ok (Option.some.inj h)

theorem exists_chunks_lineTree {limit : Nat} (h : limit ∈ [9, 100]) :
  ∃ outcome chunk, (quietSession.withLimit limit).chunks "/a.py" "/" (quietWorld lineTree)
      = (.ok outcome, quietWorld lineTree)
    ∧ chunk ∈ outcome.chunks ∧ chunk.text = "x = 1"
  := by
  have hshape : ∀ limit ∈ [9, 100],
      ((chunkFileGuarded (quietSession.withLimit limit).chunkConfig lineTree "/a.py" "/").toOption.map
        fun outcome => outcome.chunks.map (·.text)) = some ["x = 1"] := by
    decide +kernel
  obtain ⟨outcome, houtcome, htexts⟩ := Option.map_eq_some_iff.mp (hshape limit h)
  obtain ⟨chunk, hchunk, htext⟩ := List.map_eq_singleton_iff.mp htexts
  refine ⟨outcome, chunk, ?_, ?_, htext⟩
  · have hlook : ReviewAction.look
        (chunkFileGuarded (quietSession.withLimit limit).chunkConfig · "/a.py" "/")
        (quietWorld lineTree) = (.ok (.ok outcome), quietWorld lineTree) := by
      rw [← eq_ok_of_toOption houtcome]
      rfl
    rw [Session.chunks, ReviewAction.bind_of_ok _ hlook]
    rfl
  · rw [hchunk]
    apply List.mem_singleton_self

/-- The line of a file under two limits. -/
theorem askAlike_of_mem_chunks_lineTree :
  ∃ (chunk chunk' : Chunk), chunk.text = "x = 1" ∧ chunk'.text = "x = 1"
    ∧ AskAlike
      (((quietSession.withLimit 9).recorded.reviewChunk false chunk .security).requests
        (quietWorld lineTree))
      (((quietSession.withLimit 100).recorded.reviewChunk true chunk' .security).requests
        (quietWorld lineTree))
  := by
  obtain ⟨outcome, chunk, hchunks, hmem, htext⟩ := @exists_chunks_lineTree 9 (by decide)
  obtain ⟨outcome', chunk', hchunks', hmem', htext'⟩ :=
    @exists_chunks_lineTree 100 (by decide)
  use chunk, chunk', htext, htext'
  have h := @askAlike_of_mem_chunks _ _ (quietSession.withLimit 9) (quietSession.withLimit 100)
    (by decide) (by decide) _ _ _ _ _ _ _ _ _ _ _ _ hchunks hchunks' hmem hmem'
    (htext.trans htext'.symm) rfl rfl
  have hsecurity : Reviewer.security ∈ Reviewer.all := List.mem_cons_self
  apply (h.2.2 false true (quietWorld lineTree) (quietWorld lineTree)).1 _ hsecurity _ hsecurity rfl

end Scrutiny
