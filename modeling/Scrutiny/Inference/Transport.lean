import Scrutiny.Inference.Client
import Scrutiny.Text.Utf8
import Scrutiny.Text.Whole

/-!
# Requests over a network

How a chat request travels to a service: as a message with the payload of the request, to the
address of the configuration.  The network is any function from messages to responses; it may give
none.
-/

namespace Scrutiny

open Text

/-- What is sent to a service. -/
structure OutgoingMessage where
  /-- The address. -/
  url : String
  /-- The authorization, if there is a key. -/
  authorization : Option String
  /-- The payload. -/
  body : Json
  deriving Repr

/-- What a service answers. -/
structure IncomingMessage where
  /-- The status. -/
  status : Nat
  /-- The bytes of the answer. -/
  body : List UInt8
  deriving DecidableEq, Repr, Inhabited

namespace Transport

/-- Whether a character may stand in the field of a message. -/
def isFieldChar (c : Char) : Bool :=
  c == '\t' || (0x20 ≤ c.toNat && c.toNat != 0x7f)

/-- Whether a character may not stand in the name of a host. -/
def isForbiddenInHost (c : Char) : Bool :=
  c.toNat ≤ 0x20 || c.toNat == 0x7f || "#/:<>?@[\\]^|%".toList.contains c

/-- Whether a text is the number of an endpoint at a host; it may be missing. -/
def isEndpoint (text : List Char) : Bool :=
  text.isEmpty || (readWhole 16 text).toOption.isSome && text.all Char.isDigit

/-- Whether an address can be used: it has a host with an admissible name, and an admissible
endpoint. -/
def isUsableUrl (url : String) : Bool :=
  let rest := (url.toList.dropWhile (· != ':')).drop 1
  let start := rest.dropWhile fun c => c == '/' || c == '\\'
  let authority := start.takeWhile fun c => c != '/' && c != '\\' && c != '?' && c != '#'
  let place := (authority.reverse.takeWhile (· != '@')).reverse
  match place with
  | '[' :: inner =>
    let address := inner.takeWhile (· != ']')
    let later := inner.drop address.length
    let endpoint := match later.drop 1 with
      | ':' :: digits => isEndpoint digits
      | other => other.isEmpty
    !later.isEmpty && !address.isEmpty && endpoint
      && address.all fun c => c.isDigit || c == ':' || c == '.' || "abcdefABCDEF".toList.contains c
  | _ =>
    let host := place.takeWhile (· != ':')
    !host.isEmpty && !host.any isForbiddenInHost && isEndpoint ((place.drop host.length).drop 1)

/-- What is sent for a request. -/
def message (config : ModelConfig) (request : ChatRequest) : OutgoingMessage :=
  { url := config.chatUrl, authorization := config.apiKey.map ("Bearer " ++ ·), body := request.payload }

/-- Whether a message can be sent at all. -/
def isSendable (message : OutgoingMessage) : Bool :=
  isUsableUrl message.url && (message.authorization.getD "").toList.all isFieldChar

/-- The reply in an answer. -/
def reply (answer : IncomingMessage) : Except InferenceError String :=
  if 200 ≤ answer.status && answer.status < 300 then
    match (text? answer.body).bind Json.parse? with
    | some envelope => Reply.ofEnvelope envelope
    | none => .error (.malformed "Response is not JSON: error decoding response body")
  else .error (Reply.ofStatus answer.status (lossyText answer.body))

/-- What came of sending a message. -/
def outcome (message : OutgoingMessage) (answer : Option IncomingMessage) :
    Except InferenceError String :=
  match answer with
  | some answer => reply answer
  | none => .error (.transient ("Request to " ++ message.url
      ++ " failed: error sending request for url (" ++ message.url ++ ")"))

/-- The model behind a network. -/
def model {μ : Type} (config : ModelConfig)
    (network : μ → OutgoingMessage → Option IncomingMessage × μ) : Model μ :=
  fun state request =>
    let message := message config request
    if isSendable message then
      let (answer, next) := network state message
      (outcome message answer, next)
    else (.error (.configuration ("Invalid request to " ++ message.url ++ ": builder error")), state)

end Transport

end Scrutiny
