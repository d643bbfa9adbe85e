import Scrutiny.Inference.Config
import Scrutiny.Inference.Reply

/-!
# Requests to a model

How a model is asked, and a model that keeps a record of what it was asked.
-/

/-!
## Asking a model

A request is sent until a usable reply comes, a failure comes that no further attempt can
mend, or the attempts are used up.  Before each retry there is a wait.

The model is any function of a state and a request, so that a script, a log of requests or
a network can stand behind it.
-/

namespace Scrutiny

open Text

/-- One request to a model. -/
structure ChatRequest where
  /-- What the model is told about its task. -/
  system : String
  /-- What the model is asked. -/
  user : String
  /-- The name of the model. -/
  model : String
  /-- The largest number of tokens of the reply. -/
  maxTokens : Option Nat
  /-- How freely the model chooses its words. -/
  temperature : Float32
  /-- Whether the reply has to be a JSON object. -/
  jsonMode : Bool

namespace ChatRequest

/-- The request as a chat service expects it. -/
def payload (request : ChatRequest) : Json :=
  let entry (role content : String) : Json :=
    Json.ofFields [("role", .string role), ("content", .string content)]
  let tokens := match request.maxTokens with
    | some n => [("max_tokens", Json.nat n)]
    | none => []
  let format := if request.jsonMode then
    [("response_format", Json.ofFields [("type", .string "json_object")])] else []
  Json.ofFields ([
    ("model", .string request.model),
    ("messages", .array [entry "system" request.system, entry "user" request.user]),
    ("temperature", Json.ofFloat request.temperature.toFloat)] ++ tokens ++ format)

end ChatRequest

/-- A model over states of type `μ`: what it answers to a request, and its next state. -/
abbrev Model (μ : Type) := μ → ChatRequest → Except InferenceError String × μ

/-- What asking gives: the result, the state of the model after it and the time spent waiting. -/
structure Asked (α μ : Type) where
  /-- The value that was asked for, or the last failure. -/
  result : Except InferenceError α
  /-- The state of the model afterwards. -/
  state : μ
  /-- The time spent waiting between attempts. -/
  waited : Duration

namespace Inference

/-- What is added to the question when a reply was no JSON object. -/
def reminder : String := "Return valid JSON only. Do not include any prose or code fences."

/-- The request for a question in a given mode. -/
def request (config : ModelConfig) (jsonMode : Bool) (system user : String) : ChatRequest :=
  { system, user, model := config.model, maxTokens := config.maxOutputTokens,
    temperature := config.temperature, jsonMode }

/-- Sends requests until one is answered well.  The attempt with number `attempt`, counted from
one, is the next; `left` more attempts are allowed; `last` is the failure before it. -/
def attempt {α μ : Type} (config : ModelConfig) (model : Model μ) (ask : Nat → ChatRequest)
    (accept : String → Except InferenceError α) :
    (left attempt : Nat) → (last : InferenceError) → (waited : Duration) → μ → Asked α μ
  | 0, _, last, waited, state => { result := .error last, state, waited }
  | left + 1, number, _, waited, state =>
    let waited := if number = 1 then waited else waited.add (config.backoff (number - 1))
    let (answer, next) := model state (ask number)
    match answer.bind accept with
    | .ok value => { result := .ok value, state := next, waited }
    | .error e =>
      if e.isRetryable then
        Inference.attempt config model ask accept left (number + 1) e waited next
      else { result := .error e, state := next, waited }
  termination_by left => left

/-- Asks with as many attempts as the configuration allows. -/
def run {α μ : Type} (config : ModelConfig) (model : Model μ) (ask : Nat → ChatRequest)
    (accept : String → Except InferenceError α) (state : μ) : Asked α μ :=
  attempt config model ask accept config.maxAttempts 1 (.transient "No inference attempts made")
    ⟨0⟩ state

/-- The object in a reply. -/
def acceptObject (reply : String) : Except InferenceError Json :=
  match Reply.objectIn? reply.toList with
  | some value => .ok value
  | none => .error (.malformed ("Reply is not a JSON object: " ++ Reply.preview 120 reply))

/-- A reply that is not blank. -/
def acceptText (reply : String) : Except InferenceError String :=
  if isBlankText reply.toList then .error (.malformed "Empty reply") else .ok reply

/-- Asks for a JSON object; every retry reminds the model of that. -/
def object {μ : Type} (config : ModelConfig) (model : Model μ) (system user : String) (state : μ) :
    Asked Json μ :=
  let ask (number : Nat) : ChatRequest :=
    request config true system (if number = 1 then user else user ++ "\n\n" ++ reminder)
  run config model ask acceptObject state

/-- Asks for a text. -/
def text {μ : Type} (config : ModelConfig) (model : Model μ) (system user : String) (state : μ) :
    Asked String μ :=
  run config model (fun _ => request config false system user) acceptText state

end Inference

end Scrutiny

/-!
## Records of requests

A model can note what it is asked without answering otherwise.  A sequence of answers is itself a
model, one that gives them in turn.
-/

namespace Scrutiny.Model

/-- The model, with the requests it has got beside its state, in order. -/
def recorded {μ : Type} (model : Model μ) : Model (μ × List ChatRequest) :=
  fun (state, requests) request =>
    let (answer, next) := model state request
    (answer, next, requests ++ [request])

/-- The model that gives the answers of a sequence in turn, whatever it is asked.  The answers are
counted from one, and the state is how many were given. -/
def ofAnswers (answers : Nat → Except InferenceError String) : Model Nat :=
  fun given _ => (answers (given + 1), given + 1)

end Scrutiny.Model
