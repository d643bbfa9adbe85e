import Scrutiny.Documents.Architecture
import Scrutiny.Proofs.Review.Prompts

/-!
# What is asked for a document

A model that notes its requests is answered as if it did not, so an action can be followed by the requests
that it sends.  The requests for a document tell the model about the task of one reviewer.
-/

namespace Scrutiny

variable {μ α β : Type} {P Q : ChatRequest → Prop}

/-- The world with requests noted beside the state of the model. -/
def World.noting (world : World μ) (log : List ChatRequest) : World (μ × List ChatRequest) :=
  { world with model := (world.model, log) }

namespace ReviewAction

/-- An action sends only certain requests: with a model that notes them it does the same. -/
def Sends (P : ChatRequest → Prop) (action : ReviewAction μ α)
    (noted : ReviewAction (μ × List ChatRequest) α) : Prop :=
  ∀ world log, ∃ requests, (∀ request ∈ requests, P request)
    ∧ noted (world.noting log) = ((action world).1, (action world).2.noting (log ++ requests))

namespace Sends

/-- An action that sends nothing. -/
theorem of_forall {action : ReviewAction μ α} {noted : ReviewAction (μ × List ChatRequest) α}
    (h : ∀ world log, noted (world.noting log) = ((action world).1, (action world).2.noting log)) :
  Sends P action noted
  := by
  intro world log
  refine ⟨[], List.forall_mem_nil _, ?_⟩
  rw [h, List.append_nil]

theorem pure (a : α) :
  Sends P (pure a : ReviewAction μ α) (pure a)
  := of_forall fun _ _ => rfl

theorem throw (e : ReviewError) :
  Sends P (throw e : ReviewAction μ α) (throw e)
  := of_forall fun _ _ => rfl

theorem look (view : FileTree → α) :
  Sends P (look view : ReviewAction μ α) (look view)
  := of_forall fun _ _ => rfl

theorem ofExcept {ε : Type} (wrap : ε → ReviewError) (result : Except ε α) :
  Sends P (ofExcept wrap result : ReviewAction μ α) (ofExcept wrap result)
  := of_forall fun _ _ => rfl

theorem onFiles (wrap : FileError → ReviewError) (action : FileAction α) :
  Sends P (onFiles wrap action : ReviewAction μ α) (onFiles wrap action)
  := of_forall fun _ _ => rfl

/-- Asking sends what the question sends. -/
theorem ask {question : μ → Asked α μ} {noted : μ × List ChatRequest → Asked α (μ × List ChatRequest)}
    (h : ∀ state log, ∃ requests, (∀ request ∈ requests, P request)
      ∧ noted (state, log) = { result := (question state).result
                               state := ((question state).state, log ++ requests)
                               waited := (question state).waited }) :
  Sends P (ask question) (ask noted)
  := by
  intro world log
  obtain ⟨requests, hrequests, heq⟩ := h world.model log
  use requests, hrequests
  rw [ReviewAction.ask, World.ask, World.noting, heq]
  rfl

theorem mono {action : ReviewAction μ α} {noted : ReviewAction (μ × List ChatRequest) α}
    (h : Sends P action noted) (himp : ∀ request, P request → Q request) :
  Sends Q action noted
  := by
  intro world log
  obtain ⟨requests, hrequests, heq⟩ := h world log
  exact ⟨requests, fun request hrequest => himp request (hrequests request hrequest), heq⟩

theorem bind {action : ReviewAction μ α} {noted : ReviewAction (μ × List ChatRequest) α}
    {later : α → ReviewAction μ β} {notedLater : α → ReviewAction (μ × List ChatRequest) β}
    (h : Sends P action noted) (hlater : ∀ a, Sends P (later a) (notedLater a)) :
  Sends P (action >>= later) (noted >>= notedLater)
  := by
  intro world log
  obtain ⟨requests, hrequests, heq⟩ := h world log
  rcases haction : action world with ⟨e | a, middle⟩
  · rw [haction] at heq
    use requests, hrequests
    rw [bind_of_error _ heq, bind_of_error _ haction]
  · rw [haction] at heq
    obtain ⟨others, hothers, heq'⟩ := hlater a middle (log ++ requests)
    use requests ++ others, List.forall_mem_append.mpr ⟨hrequests, hothers⟩
    rw [bind_of_ok _ heq, bind_of_ok _ haction, heq', List.append_assoc]

theorem tryCatch {action : ReviewAction μ α} {noted : ReviewAction (μ × List ChatRequest) α}
    {handler : ReviewError → ReviewAction μ α}
    {notedHandler : ReviewError → ReviewAction (μ × List ChatRequest) α} (h : Sends P action noted)
    (hhandler : ∀ e, Sends P (handler e) (notedHandler e)) :
  Sends P (tryCatch action handler) (tryCatch noted notedHandler)
  := by
  intro world log
  obtain ⟨requests, hrequests, heq⟩ := h world log
  rcases haction : action world with ⟨e | a, middle⟩
  · rw [haction] at heq
    obtain ⟨others, hothers, heq'⟩ := hhandler e middle (log ++ requests)
    use requests ++ others, List.forall_mem_append.mpr ⟨hrequests, hothers⟩
    rw [tryCatch_of_error heq, tryCatch_of_error haction, heq', List.append_assoc]
  · rw [haction] at heq
    use requests, hrequests
    rw [tryCatch_of_ok heq, tryCatch_of_ok haction]

theorem mapM {f : α → ReviewAction μ β} {noted : α → ReviewAction (μ × List ChatRequest) β}
    (h : ∀ a, Sends P (f a) (noted a)) (list : List α) :
  Sends P (list.mapM f) (list.mapM noted)
  := by
  induction list with
  | nil =>
      rw [List.mapM_nil, List.mapM_nil]
      apply pure
  | cons a rest ih =>
      rw [List.mapM_cons, List.mapM_cons]
      apply bind (h a)
      intro b
      apply bind ih
      intro others
      apply pure

theorem existingFolder (folder : String) :
  Sends P (existingFolder folder : ReviewAction μ String) (existingFolder folder)
  := by
  apply bind (look _)
  intro found
  apply bind (ofExcept _ found)
  intro canonical
  apply bind (look _)
  intro there
  split
  · apply pure
  · apply throw

theorem takeLock (path : String) :
  Sends P (takeLock path : ReviewAction μ Unit) (takeLock path)
  := by
  rw [Scrutiny.takeLock, Scrutiny.takeLock]
  split
  · apply bind (onFiles _ _)
    intro _
    apply onFiles
  · apply onFiles

end Sends

end ReviewAction

namespace Session

open ReviewAction

/-- Whether a request tells the model about the task of a reviewer. -/
def IsFor (reviewer : Reviewer) (request : ChatRequest) : Prop :=
  request.system = reviewer.prompt

theorem sends_document (session : Session μ) (reviewer : Reviewer) (question : String) :
  Sends (IsFor reviewer) (session.document reviewer question) (session.recorded.document reviewer question)
  := by
  apply Sends.bind
  · apply Sends.ask
    intro state log
    obtain ⟨count, -, -, heq⟩ := Inference.attempt_recorded session.config session.model
      (fun _ => Inference.request session.config false reviewer.prompt (session.bounded question))
      Inference.acceptText session.config.maxAttempts 1 (.transient "No inference attempts made") ⟨0⟩
      state log
    refine ⟨_, ?_, heq⟩
    intro request hrequest
    obtain ⟨n, -, rfl⟩ := List.mem_map.mp hrequest
    rfl
  · intro reply
    apply Sends.ofExcept

theorem sends_documentOr (session : Session μ) (reviewer : Reviewer) (question : String)
    (note : String → String) :
  Sends (IsFor reviewer) (session.documentOr reviewer question note)
    (session.recorded.documentOr reviewer question note)
  := by
  apply Sends.tryCatch
  · apply Sends.bind (session.sends_document reviewer question)
    intro reply
    apply Sends.pure
  · intro e
    split
    · apply Sends.throw
    · apply Sends.pure

end Session

end Scrutiny
