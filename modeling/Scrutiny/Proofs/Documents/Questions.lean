import Scrutiny.Documents.Design
import Scrutiny.Proofs.Documents.Requests
import Scrutiny.Proofs.Review.Accounting

/-!
# Questions about batches

The model is asked about the batches of a project in turn, with an introduction in front of each.  The limit
that the batches are packed to is the limit of the whole question, too: a batch is told whole if there is
room for its introduction, and else the end of it is left out.
-/

namespace Scrutiny

variable {μ α β : Type} {attempts : Nat}

/-! ### Questions in turn -/

/-- Requests that ask some questions in turn, each of them in one attempt or more. -/
inductive AskInTurn (attempts : Nat) : (questions requests : List ChatRequest) → Prop where
  | nil : AskInTurn attempts [] []
  | cons {question : ChatRequest} {questions requests : List ChatRequest} {count : Nat}
    (hle : count ≤ attempts) (hpos : 0 < attempts → 0 < count) (h : AskInTurn attempts questions requests) :
    AskInTurn attempts (question :: questions) (List.replicate count question ++ requests)

/-- Requests that ask some questions in turn, and all of them unless a fatal error is the result. -/
def AskAll (attempts : Nat) (questions : List ChatRequest) (result : Except ReviewError α)
    (requests : List ChatRequest) : Prop :=
  ∃ asked, asked <+: questions ∧ AskInTurn attempts asked requests
    ∧ (asked = questions ∨ ∃ e, result = .error e ∧ e.isFatal = true)

namespace ReviewAction

/-- An action that asks one question, in one attempt or more. -/
def AsksOnce (attempts : Nat) (question : ChatRequest) (action : ReviewAction μ α)
    (noted : ReviewAction (μ × List ChatRequest) α) : Prop :=
  ∀ world log, ∃ count ≤ attempts, (0 < attempts → 0 < count)
    ∧ noted (world.noting log)
      = ((action world).1, (action world).2.noting (log ++ List.replicate count question))

/-- An action that only fatal errors can end. -/
def FailsFatally (action : ReviewAction μ α) : Prop :=
  ∀ world e, (action world).1 = .error e → e.isFatal = true

/-- From a world on, an action asks some questions in turn. -/
def Asks (attempts : Nat) (questions : List ChatRequest) (action : ReviewAction μ α)
    (noted : ReviewAction (μ × List ChatRequest) α) (world : World μ) : Prop :=
  ∀ log, ∃ requests, AskAll attempts questions (action world).1 requests
    ∧ noted (world.noting log) = ((action world).1, (action world).2.noting (log ++ requests))

variable {question : ChatRequest} {questions : List ChatRequest} {world : World μ}
  {action : ReviewAction μ α} {noted : ReviewAction (μ × List ChatRequest) α}
  {later : α → ReviewAction μ β} {notedLater : α → ReviewAction (μ × List ChatRequest) β}

/-- An action that sends nothing leaves the log as it is. -/
theorem Sends.noted_eq (h : Sends (fun _ => False) action noted) (world : World μ) (log : List ChatRequest) :
  noted (world.noting log) = ((action world).1, (action world).2.noting log)
  := by
  obtain ⟨requests, hrequests, heq⟩ := h world log
  obtain rfl := List.eq_nil_iff_forall_not_mem.mpr hrequests
  rw [heq, List.append_nil]

theorem FailsFatally.map (h : FailsFatally action) (f : α → β) :
  FailsFatally (action >>= fun a => pure (f a))
  := by
  intro world e herror
  rcases haction : action world with ⟨cause | a, middle⟩
  · rw [bind_of_error _ haction] at herror
    apply h world e
    rw [haction]
    exact congrArg Except.error (Except.error.inj herror)
  · rw [bind_of_ok _ haction] at herror
    cases herror

namespace AsksOnce

/-- The requests of one question are noted. -/
theorem ask (config : ModelConfig) (model : Model μ) (system user : String) :
  AsksOnce config.maxAttempts (Inference.request config false system user)
    (ask (Inference.text config model system user))
    (ask (Inference.text config model.recorded system user))
  := by
  intro world log
  obtain ⟨count, hle, hpos, heq⟩ := Inference.attempt_recorded config model
    (fun _ => Inference.request config false system user) Inference.acceptText config.maxAttempts 1
    (.transient "No inference attempts made") ⟨0⟩ world.model log
  rw [List.map_const', List.length_range'] at heq
  use count, hle, hpos
  rw [ReviewAction.ask, World.ask, World.noting, Inference.text, Inference.run, heq]
  rfl

/-- An action that sends nothing comes after the question. -/
theorem bind (h : AsksOnce attempts question action noted)
    (hlater : ∀ a, Sends (fun _ => False) (later a) (notedLater a)) :
  AsksOnce attempts question (action >>= later) (noted >>= notedLater)
  := by
  intro world log
  obtain ⟨count, hle, hpos, heq⟩ := h world log
  use count, hle, hpos
  rcases haction : action world with ⟨e | a, middle⟩
  · rw [haction] at heq
    rw [bind_of_error _ heq, bind_of_error _ haction]
  · rw [haction] at heq
    rw [bind_of_ok _ heq, bind_of_ok _ haction, (hlater a).noted_eq]

/-- Errors are dealt with by an action that sends nothing. -/
theorem tryCatch {handler : ReviewError → ReviewAction μ α}
    {notedHandler : ReviewError → ReviewAction (μ × List ChatRequest) α}
    (h : AsksOnce attempts question action noted)
    (hhandler : ∀ e, Sends (fun _ => False) (handler e) (notedHandler e)) :
  AsksOnce attempts question (tryCatch action handler) (tryCatch noted notedHandler)
  := by
  intro world log
  obtain ⟨count, hle, hpos, heq⟩ := h world log
  use count, hle, hpos
  rcases haction : action world with ⟨e | a, middle⟩
  · rw [haction] at heq
    rw [tryCatch_of_error heq, tryCatch_of_error haction, (hhandler e).noted_eq]
  · rw [haction] at heq
    rw [tryCatch_of_ok heq, tryCatch_of_ok haction]

end AsksOnce

namespace Asks

theorem askAll_requests (h : Asks attempts questions action noted world) :
  AskAll attempts questions (action world).1 (noted.requests world)
  := by
  obtain ⟨requests, hall, heq⟩ := h []
  have hrequests : noted.requests world = (noted (world.noting [])).2.model.2 := rfl
  rw [hrequests, heq]
  exact hall

theorem of_sends (h : Sends (fun _ => False) action noted) :
  Asks attempts [] action noted world
  := by
  intro log
  refine ⟨[], ⟨[], List.nil_prefix, .nil, .inl rfl⟩, ?_⟩
  rw [h.noted_eq, List.append_nil]

/-- An action that sends nothing and changes nothing comes before the questions. -/
theorem of_bind {a : α} (h : Sends (fun _ => False) action noted) (hok : action world = (.ok a, world))
    (hlater : Asks attempts questions (later a) (notedLater a) world) :
  Asks attempts questions (action >>= later) (noted >>= notedLater) world
  := by
  intro log
  have hnoted := h.noted_eq world log
  rw [hok] at hnoted
  rw [bind_of_ok _ hok, bind_of_ok _ hnoted]
  apply hlater

/-- An action that sends nothing comes after the questions. -/
theorem bind (h : Asks attempts questions action noted world)
    (hlater : ∀ a, Sends (fun _ => False) (later a) (notedLater a)) :
  Asks attempts questions (action >>= later) (noted >>= notedLater) world
  := by
  intro log
  obtain ⟨requests, ⟨asked, hprefix, hturn, hend⟩, heq⟩ := h log
  use requests
  rcases haction : action world with ⟨e | a, middle⟩
  · rw [haction] at heq hend
    rw [bind_of_error _ heq, bind_of_error _ haction]
    refine ⟨⟨asked, hprefix, hturn, ?_⟩, rfl⟩
    rcases hend with hasked | ⟨cause, hcause, hfatal⟩
    · left
      exact hasked
    · right
      use cause, congrArg Except.error (Except.error.inj hcause)
  · rw [haction] at heq hend
    rw [bind_of_ok _ heq, bind_of_ok _ haction, (hlater a).noted_eq]
    refine ⟨⟨asked, hprefix, hturn, ?_⟩, rfl⟩
    rcases hend with hasked | ⟨cause, hcause, -⟩
    · left
      exact hasked
    · cases hcause

/-- One question for each element of a list. -/
theorem mapM {f : α → ReviewAction μ β} {noted : α → ReviewAction (μ × List ChatRequest) β}
    {question : α → ChatRequest} (h : ∀ a, AsksOnce attempts (question a) (f a) (noted a))
    (hfails : ∀ a, FailsFatally (f a)) (list : List α) (world : World μ) :
  Asks attempts (list.map question) (list.mapM f) (list.mapM noted) world
  := by
  induction list generalizing world with
  | nil =>
      rw [List.mapM_nil, List.mapM_nil]
      apply of_sends (Sends.pure _)
  | cons a rest ih =>
      intro log
      rw [List.mapM_cons, List.mapM_cons]
      obtain ⟨count, hle, hpos, heq⟩ := h a world log
      rcases hfirst : f a world with ⟨e | b, middle⟩
      · -- The first question is the last one that is asked.
        have hfatal := hfails a world e (by rw [hfirst])
        rw [hfirst] at heq
        rw [bind_of_error _ heq, bind_of_error _ hfirst]
        refine ⟨_, ⟨[question a], ⟨rest.map question, rfl⟩, ?_, .inr ⟨e, rfl, hfatal⟩⟩, rfl⟩
        have hturn : AskInTurn attempts [question a] (List.replicate count (question a) ++ []) :=
          .cons hle hpos .nil
        rwa [List.append_nil] at hturn
      · rw [hfirst] at heq
        rw [bind_of_ok _ heq, bind_of_ok _ hfirst]
        have hrest : Asks attempts (rest.map question)
            (rest.mapM f >>= fun others => Pure.pure (b :: others))
            (rest.mapM noted >>= fun others => Pure.pure (b :: others)) middle :=
          (ih middle).bind fun _ => Sends.pure _
        obtain ⟨requests, ⟨asked, hprefix, hturn, hend⟩, hnoted⟩ :=
          hrest (log ++ List.replicate count (question a))
        refine ⟨List.replicate count (question a) ++ requests, ⟨question a :: asked, ?_, ?_, ?_⟩, ?_⟩
        · rw [List.map_cons, List.prefix_cons_inj]
          exact hprefix
        · apply AskInTurn.cons hle hpos hturn
        · apply hend.imp_left
          rintro rfl
          rfl
        · rw [hnoted, List.append_assoc]

/-- Nothing is sent where there is nothing to ask. -/
theorem ite {c : Prop} [Decidable c] {other : ReviewAction μ α}
    {notedOther : ReviewAction (μ × List ChatRequest) α} (hnone : c → questions = [])
    (hother : Sends (fun _ => False) other notedOther) (h : Asks attempts questions action noted world) :
  Asks attempts questions (if c then other else action) (if c then notedOther else noted) world
  := by
  split_ifs with hc
  · rw [hnone hc]
    apply of_sends hother
  · exact h

end Asks

end ReviewAction

namespace Session

open ReviewAction

/-! ### The questions of a session -/

/-- The request that asks a question for a document. -/
def question (session : Session μ) (reviewer : Reviewer) (text : String) : ChatRequest :=
  Inference.request session.config false reviewer.prompt (session.bounded text)

/-- The batches that the skeletons of a project are packed into. -/
def batchesOf (session : Session μ) (root : String) (tree : FileTree) : List Batch :=
  Batch.pack session.settings.charLimit
    ((SkeletonBlock.collect tree root (Sources.scan tree root)).map SkeletonBlock.text)

theorem asksOnce_documentOr (session : Session μ) (reviewer : Reviewer) (text : String)
    (note : String → String) :
  AsksOnce session.config.maxAttempts (session.question reviewer text)
    (session.documentOr reviewer text note) (session.recorded.documentOr reviewer text note)
  := by
  apply AsksOnce.tryCatch
  · apply AsksOnce.bind
    · apply AsksOnce.bind (AsksOnce.ask _ _ _ _)
      intro reply
      apply Sends.ofExcept
    · intro reply
      apply Sends.pure
  · intro e
    split
    · apply Sends.throw
    · apply Sends.pure

theorem failsFatally_documentOr (session : Session μ) (reviewer : Reviewer) (text : String)
    (note : String → String) :
  FailsFatally (session.documentOr reviewer text note)
  := by
  intro world e herror
  rw [documentOr] at herror
  generalize (do return String.ofList (Text.trim (← session.document reviewer text).toList)
    : ReviewAction μ String) = action at herror
  rcases haction : action world with ⟨cause | reply, middle⟩
  · rw [tryCatch_of_error haction] at herror
    split at herror
    · rwa [← Except.error.inj herror]
    · cases herror
  · rw [tryCatch_of_ok haction] at herror
    cases herror

/-- The questions about numbered batches are those about the batches. -/
theorem map_question_zipIdx (session : Session μ) (reviewer : Reviewer) (text : Batch → String)
    (batches : List Batch) :
  batches.zipIdx.map (fun numbered => session.question reviewer (text numbered.1))
    = batches.map fun batch => session.question reviewer (text batch)
  := by
  conv_rhs => rw [← List.zipIdx_map_fst 0 batches, List.map_map]
  rfl

/-- Nothing is asked once the document is there. -/
theorem sends_report {P : ChatRequest → Prop} (out : Option String) (markdown : String)
    (report : ArchitectureReport) :
  Sends P
    (match out with
      | some path => do
        let _ ← (onFiles .files (FileAction.writeAtomic path (Text.bytesOf markdown)) : ReviewAction μ Unit)
        return report
      | none => return report)
    (match out with
      | some path => do
        let _ ← onFiles .files (FileAction.writeAtomic path (Text.bytesOf markdown))
        return report
      | none => return report)
  := by
  cases out with
  | none => apply Sends.pure
  | some path =>
      apply Sends.bind (Sends.onFiles _ _)
      intro _
      apply Sends.pure

/-- A review of the architecture asks about the batches in turn. -/
theorem asks_reviewArchitecture (session : Session μ) {folder root : String} (out : Option String)
    {world : World μ} (hroot : existingFolder folder world = (.ok root, world)) :
  Asks session.config.maxAttempts
    ((session.batchesOf root world.files).map fun batch =>
      session.question .architectureReviewer (architectureQuestion batch))
    (session.reviewArchitecture folder out) (session.recorded.reviewArchitecture folder out) world
  := by
  apply Asks.of_bind (Sends.existingFolder folder) hroot
  apply Asks.of_bind (Sends.look _) rfl
  dsimp only
  apply Asks.ite
  case hnone =>
    intro hempty
    rw [batchesOf, List.isEmpty_iff.mp hempty, List.map_nil]
  case hother =>
    apply Sends.bind (Sends.pure _)
    intro markdown
    apply sends_report
  case h =>
    apply Asks.bind
    · rw [← map_question_zipIdx]
      apply Asks.mapM
      · intro numbered
        apply AsksOnce.bind (session.asksOnce_documentOr _ _ _)
        intro review
        apply Sends.pure
      · intro numbered
        apply FailsFatally.map (session.failsFatally_documentOr _ _ _)
    · intro reviews
      apply Sends.bind (Sends.pure _)
      intro markdown
      apply sends_report

/-- The detailed design asks about the batches in turn. -/
theorem asks_writeDetail (session : Session μ) (root path : String) (world : World μ) :
  Asks session.config.maxAttempts
    ((session.batchesOf root world.files).map fun batch =>
      session.question .detailDesigner (detailQuestion batch))
    (session.writeDetail root path) (session.recorded.writeDetail root path) world
  := by
  apply Asks.bind
  · apply Asks.of_bind (Sends.look _) rfl
    apply Asks.ite
    case hnone =>
      intro hempty
      rw [batchesOf, List.isEmpty_iff.mp hempty, List.map_nil, Batch.pack, List.map_nil]
    case hother => apply Sends.pure
    case h =>
      apply Asks.bind
      · rw [← map_question_zipIdx]
        apply Asks.mapM
        · intro numbered
          apply AsksOnce.bind (session.asksOnce_documentOr _ _ _)
          intro text
          apply Sends.pure
        · intro numbered
          apply FailsFatally.map (session.failsFatally_documentOr _ _ _)
      · intro sections
        apply Sends.pure
  · intro text
    apply Sends.onFiles

/-! ### What is told of a batch -/

/-- What the model is told of a text with an introduction: both if there is room for them, and else the
beginning of them and how much is left out. -/
structure TellsUpTo (limit : Nat) (introduction text told : String) : Prop where
  /-- There is room for both. -/
  whole : introduction.length + text.length ≤ limit → told = introduction ++ text
  /-- The end is left out. -/
  cut : limit < introduction.length + text.length →
    ∃ kept omitted, introduction ++ text = kept ++ omitted ∧ kept.length = limit
      ∧ told = kept ++ "\n... (truncated: " ++ toString omitted.length ++ " chars omitted)"

theorem tellsUpTo_question (session : Session μ) (reviewer : Reviewer) (introduction text : String) :
  TellsUpTo session.settings.charLimit introduction text
    (session.question reviewer (introduction ++ text)).user
  := by
  have htold : (session.question reviewer (introduction ++ text)).user
      = Text.truncate (introduction ++ text) session.settings.charLimit := rfl
  have hlength : (introduction ++ text).toList.length = introduction.length + text.length := by
    rw [String.length_toList, String.length_append]
  generalize session.settings.charLimit = limit at htold ⊢
  constructor
  case whole =>
    intro hfits
    rw [htold, Text.truncate, if_pos (by omega)]
  case cut =>
    intro hlong
    use String.ofList ((introduction ++ text).toList.take limit),
      String.ofList ((introduction ++ text).toList.drop limit)
    rw [htold, Text.truncate, if_neg (by omega), String.length_ofList, String.length_ofList,
      List.length_take, List.length_drop, ← String.ofList_append, List.take_append_drop,
      String.ofList_toList]
    use rfl, by omega

/-- The review of the architecture and the detailed design ask about the same batches, about all of
them in turn unless a fatal error ends them.  Each time the model is told the whole batch if there is room
for the introduction, too. -/
theorem askAll_batches (session : Session μ) (root : String) (world : World μ) :
  let batches := session.batchesOf root world.files
  (∀ folder out, existingFolder folder world = (.ok root, world) →
      AskAll session.config.maxAttempts
        (batches.map fun batch => session.question .architectureReviewer (architectureQuestion batch))
        (session.reviewArchitecture folder out world).1
        ((session.recorded.reviewArchitecture folder out).requests world))
    ∧ (∀ path, AskAll session.config.maxAttempts
        (batches.map fun batch => session.question .detailDesigner (detailQuestion batch))
        (session.writeDetail root path world).1
        ((session.recorded.writeDetail root path).requests world))
    ∧ ∀ batch : Batch,
      TellsUpTo session.settings.charLimit "Review the architecture of this skeleton code:\n\n" batch.text
          (session.question .architectureReviewer (architectureQuestion batch)).user
        ∧ TellsUpTo session.settings.charLimit
          "Write the internal design document for this skeleton code:\n\n" batch.text
          (session.question .detailDesigner (detailQuestion batch)).user
  := by
  refine ⟨?_, ?_, ?_⟩
  · intro folder out hroot
    apply (session.asks_reviewArchitecture out hroot).askAll_requests
  · intro path
    apply (session.asks_writeDetail root path world).askAll_requests
  · intro batch
    constructor
    · apply tellsUpTo_question
    · apply tellsUpTo_question

/-- The batch of a project with one file. -/
def lineBatch : Batch := { first := 1, last := 1, text := "=== File: a.py ===\nx = 1" }

/-- The only batch of a project is told whole. -/
theorem askAll_batches_lineTree :
  existingFolder "/" (quietWorld lineTree) = (.ok "/", quietWorld lineTree)
    ∧ quietSession.batchesOf "/" lineTree = [lineBatch]
    ∧ AskAll 3 [quietSession.question .architectureReviewer (architectureQuestion lineBatch)]
      (quietSession.reviewArchitecture "/" none (quietWorld lineTree)).1
      ((quietSession.recorded.reviewArchitecture "/" none).requests (quietWorld lineTree))
    ∧ (quietSession.question .architectureReviewer (architectureQuestion lineBatch)).user
      = "Review the architecture of this skeleton code:\n\n=== File: a.py ===\nx = 1"
  := by
  have hroot : existingFolder "/" (quietWorld lineTree) = (.ok "/", quietWorld lineTree) := by
    have hfound := existingFolder_lineTree
    rw [existingFolder_eq] at hfound ⊢
    rw [Prod.mk.injEq]
    use hfound
  have hbatches : quietSession.batchesOf "/" lineTree = [lineBatch] := by decide +kernel
  obtain ⟨hreview, -, htells⟩ := askAll_batches quietSession "/" (quietWorld lineTree)
  have hall := hreview "/" none hroot
  rw [quietWorld, hbatches] at hall
  use hroot, hbatches, hall
  apply (htells lineBatch).1.whole (by decide)

/-- Under a limit that the batch keeps to, but not with an introduction, the end of it is told to no one. -/
theorem cut_batches_lineTree :
  let session := quietSession.withLimit 60
  session.batchesOf "/" lineTree = [lineBatch] ∧ lineBatch.text.length ≤ 60
    ∧ ((session.recorded.reviewArchitecture "/" none).requests (quietWorld lineTree)).map (·.user)
      = ["Review the architecture of this skeleton code:\n\n=== File: a.\n... (truncated: 12 chars omitted)"]
    ∧ ((session.recorded.writeDetail "/" "detail.md").requests (quietWorld lineTree)).map (·.user)
      = ["Write the internal design document for this skeleton code:\n\n\n... (truncated: 24 chars omitted)"]
    ∧ ¬ lineBatch.text.toList <:+:
      "Review the architecture of this skeleton code:\n\n=== File: a.\n... (truncated: 12 chars omitted)".toList
    ∧ ¬ lineBatch.text.toList <:+:
      "Write the internal design document for this skeleton code:\n\n\n... (truncated: 24 chars omitted)".toList
  := by
  decide +kernel

end Session

end Scrutiny
