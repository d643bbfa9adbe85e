import Scrutiny.Duration
import Scrutiny.Inference.Reply
import Scrutiny.Json.Value
import Scrutiny.Text.Lines

/-!
# Configuration of a model

Where a chat service is reached, which model is asked, and how often and how patiently.
-/

namespace Scrutiny

open Text

/-- The configuration of a model. -/
structure ModelConfig where
  /-- The address that the service is reached under. -/
  baseUrl : String
  /-- The key that the service asks for. -/
  apiKey : Option String
  /-- The name of the model. -/
  model : String
  /-- The largest number of tokens of a reply; without one the model decides. -/
  maxOutputTokens : Option Nat
  /-- How often a request is sent at most. -/
  maxAttempts : Nat
  /-- How long to wait before the second attempt. -/
  baseBackoff : Duration
  /-- How long to wait for an answer. -/
  requestTimeout : Duration
  /-- How freely the model chooses its words. -/
  temperature : Float32

namespace ModelConfig

/-- The configuration for a service and a model, with the usual patience. -/
def ofModel (baseUrl model : String) : ModelConfig :=
  { baseUrl, apiKey := none, model, maxOutputTokens := none, maxAttempts := 3,
    baseBackoff := .ofWholeSeconds 2, requestTimeout := .ofWholeSeconds 3600, temperature := 0.2 }

/-- The same with a key; a blank key counts as none. -/
def withApiKey (config : ModelConfig) (key : Option String) : ModelConfig :=
  { config with apiKey := key.filter fun k => !isBlankText k.toList }

/-- Why a configuration cannot work, if so. -/
def fault? (config : ModelConfig) : Option InferenceError :=
  let base := trim config.baseUrl.toList
  if base.isEmpty then some (.configuration "LLM_API_BASE_URL is not set")
  else if !("http://".toList.isPrefixOf base || "https://".toList.isPrefixOf base) then
    some (.configuration ("API base URL must start with http:// or https://, got "
      ++ String.ofList base))
  else if isBlankText config.model.toList then
    some (.configuration "LLM_MODEL_NAME is not set")
  else if config.maxAttempts == 0 then
    some (.configuration "max_attempts must be at least 1")
  else none

/-- The text without the slashes at its end. -/
def withoutSlashes (text : List Char) : List Char :=
  (text.reverse.dropWhile (· == '/')).reverse

/-- The address that requests are sent to. -/
def chatUrl (config : ModelConfig) : String :=
  String.ofList (withoutSlashes (trim config.baseUrl.toList)) ++ "/chat/completions"

/-- How long to wait before the retry with the given number, counted from one.  The wait
doubles with every retry up to the sixth. -/
def backoff (config : ModelConfig) (retry : Nat) : Duration :=
  config.baseBackoff.times (Nat.pow 2 (min (retry - 1) 5))

/-- The names of the parts of a configuration, in order. -/
def partNames : List String :=
  ["api_base_url", "api_key", "model_name", "max_output_tokens", "max_attempts", "base_backoff",
    "request_timeout", "temperature"]

/-- What reading a configuration gives. -/
inductive Decoded where
  /-- A configuration. -/
  | config (config : ModelConfig)
  /-- The value stands for no configuration. -/
  | malformed
  /-- A wait is too long to be counted. -/
  | overflow

/-- A wait, given in seconds. -/
def readWait (json : Option Json) : Except Decoded Duration :=
  match json.bind Json.float? with
  | none => .error .malformed
  | some seconds =>
    match Duration.ofSeconds? seconds.toBits with
    | some d => .ok d
    | none => .error .overflow

/-- A part that must be given. -/
def need {α : Type} (value : Option α) : Except Decoded α :=
  match value with
  | some a => .ok a
  | none => .error .malformed

/-- The configuration that a JSON value stands for. -/
def ofJson (json : Json) : Decoded :=
  match json.parts? partNames with
  | some [baseUrl, apiKey, model, tokens, attempts, wait, timeout, temperature] =>
    let result : Except Decoded ModelConfig := do
      let baseUrl ← need (baseUrl.bind Json.string?)
      let apiKey ← need (Json.optional? Json.string? apiKey)
      let model ← need (model.bind Json.string?)
      let maxOutputTokens ← need (Json.optional? (Json.unsigned? 32) tokens)
      let maxAttempts ← need (attempts.bind (Json.unsigned? 32))
      let baseBackoff ← readWait wait
      let requestTimeout ← readWait timeout
      let temperature ← need (temperature.bind Json.float?)
      return { baseUrl, apiKey, model, maxOutputTokens, maxAttempts, baseBackoff, requestTimeout,
               temperature := temperature.toFloat32 }
    match result with
    | .ok config => .config config
    | .error e => e
  | _ => .malformed

/-- The configuration as a JSON value. -/
def toJson (config : ModelConfig) : Json :=
  let key := match config.apiKey with
    | some k => [("api_key", Json.string k)]
    | none => []
  Json.ofFields (key ++ [
    ("api_base_url", .string config.baseUrl),
    ("model_name", .string config.model),
    ("max_output_tokens", Json.ofNat? config.maxOutputTokens),
    ("max_attempts", Json.nat config.maxAttempts),
    ("base_backoff", Json.ofFloat config.baseBackoff.seconds),
    ("request_timeout", Json.ofFloat config.requestTimeout.seconds),
    ("temperature", Json.ofFloat config.temperature.toFloat)])

end ModelConfig

end Scrutiny
