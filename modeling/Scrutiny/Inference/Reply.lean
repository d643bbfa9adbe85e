import Scrutiny.Json.Reader
import Scrutiny.Text.Lines

/-!
# Replies and failures

What comes of a request to a model: a reply, or a failure.
-/

/-!
## Failures of inference

What can go wrong between a request to a model and a usable reply.  A failure is worth
another attempt if the next reply may be better; a configuration that cannot work ends
the whole run.
-/

namespace Scrutiny

/-- Why a model gave no usable reply. -/
inductive InferenceError where
  /-- The reply is not of the kind that was asked for. -/
  | malformed (reason : String)
  /-- A time-out, a limit, an error of the server or of the network. -/
  | transient (reason : String)
  /-- The endpoint, the model or the credentials cannot work. -/
  | configuration (reason : String)
  /-- A text that should be JSON cannot be read. -/
  | serialization (reason : String)
  deriving DecidableEq, Repr, Inhabited

namespace InferenceError

/-- The wording of a failure. -/
def message : InferenceError → String
  | .malformed reason => "Malformed model response: " ++ reason
  | .transient reason => "Transient inference failure: " ++ reason
  | .configuration reason => "Inference configuration error: " ++ reason
  | .serialization reason => "Serialization error: " ++ reason

/-- Whether the failure ends the whole run. -/
def isFatal : InferenceError → Bool
  | .configuration _ => true
  | _ => false

/-- Whether another attempt may help. -/
def isRetryable : InferenceError → Bool
  | .transient _ | .malformed _ => true
  | _ => false

end InferenceError

end Scrutiny

/-!
## Replies of a model

A reply is taken for JSON even if prose or a fence surrounds the object.  This module also
knows the envelope that a chat service puts around a reply, and what the status of an
answer without an envelope means.
-/

namespace Scrutiny.Reply

open Text

/-- The value of a text that is an object and nothing else. -/
def object? (text : List Char) : Option Json :=
  match Json.read text with
  | .ok (.object fields) => some (.object fields)
  | _ => none

/-- The part of a text from its first opening brace to its last closing one. -/
def braced? (text : List Char) : Option (List Char) :=
  let fromBrace := text.dropWhile (· != '\x7b')
  let toBrace := (fromBrace.reverse.dropWhile (· != '\x7d')).reverse
  if toBrace.isEmpty then none else some toBrace

/-- The object that a reply holds: the whole reply, or what stands between its first opening
brace and its last closing one. -/
def objectIn? (text : List Char) : Option Json :=
  (object? (trim text)).or ((braced? text).bind object?)

/-- The first `count` characters of a text. -/
def preview (count : Nat) (text : String) : String :=
  String.ofList (text.toList.take count)

/-- What an answer of a chat service means that does not report success. -/
def ofStatus (status : Nat) (body : String) : InferenceError :=
  let reason := "API error " ++ toString status ++ ": " ++ preview 200 body
  if status == 401 || status == 403 then .configuration (reason ++ " (check LLM_API_KEY)")
  else if status == 404 then
    .configuration (reason ++ " (check LLM_API_BASE_URL and LLM_MODEL_NAME)")
  else if status == 408 || status == 429 || (500 ≤ status && status ≤ 599) then .transient reason
  else .configuration reason

/-- The first choice of an envelope. -/
def firstChoice? : Json → Option Json
  | .array items => items.head?
  | choices => choices.field? "0"

/-- The envelope around a text. -/
def envelope (text : String) : Json :=
  let message := Json.ofFields [("role", .string "assistant"), ("content", .string text)]
  Json.ofFields [("choices", .array [Json.ofFields [("message", message)]])]

/-- The text of the reply in an envelope. -/
def ofEnvelope (envelope : Json) : Except InferenceError String :=
  let content := do
    let choice ← (envelope.field? "choices").bind firstChoice?
    let message ← choice.field? "message"
    (← message.field? "content").string?
  match content with
  | some text => .ok text
  | none => .error (.malformed "Response has no choices[0].message.content")

/-- The failure that stands for a text that should be JSON and is not. -/
def unreadable? (text : String) : Option InferenceError :=
  match Json.read text.toList with
  | .error e => some (.serialization (e.message text.toList))
  | .ok _ => none

end Scrutiny.Reply
