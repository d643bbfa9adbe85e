import Scrutiny.Inference.Config
import Scrutiny.Review.Session
import Scrutiny.Settings.Environment
import Scrutiny.Text.Quoted

/-!
# Settings

The settings of a run, from the variables of the environment and from the command line.  Values
are trimmed, and blank ones count as missing.
-/

namespace Scrutiny

open Text

/-- The settings of a run. -/
structure Settings where
  /-- The address of the service. -/
  apiBaseUrl : Option String
  /-- The key for the service. -/
  apiKey : Option String
  /-- The name of the model. -/
  modelName : Option String
  /-- The largest number of tokens of a reply. -/
  maxOutputTokens : Option Nat
  /-- The folder of the cache and of the stores. -/
  dataFolder : String
  /-- How many requests may be under way at the same time. -/
  concurrency : Nat
  /-- The largest number of characters of a chunk and of a question. -/
  charLimit : Nat
  deriving DecidableEq, Repr, Inhabited

namespace Settings

/-- The number of characters unless another one is given. -/
def defaultCharLimit : Nat := 2000

/-- The folder of the data unless another one is given. -/
def defaultDataFolder : String := "~/.ai_audit"

/-- A path with the home folder in place of a tilde at its start. -/
def expandHome (home : Option String) (path : String) : String :=
  match home, path.toList with
  | some home, ['~'] => home
  | some home, '~' :: '/' :: rest => Path.join home (String.ofList rest)
  | _, _ => path

/-- A secret that can be shown: at most its last four characters. -/
def maskSecret (secret : String) : String :=
  let chars := secret.toList
  if chars.length ≤ 8 then "****" else "****" ++ String.ofList (chars.drop (chars.length - 4))

/-- What is said about a value that is no positive number. -/
def notPositive (name value : String) : String :=
  name ++ " must be a positive integer, got " ++ quoted value

/-- The settings that variables give. -/
def ofVariables (home : Option String) (lookup : String → Option String) : Except Failure Settings := do
  let get (name : String) : Option String :=
    (lookup name).bind fun value =>
      let trimmed := trim value.toList
      if trimmed.isEmpty then none else some (String.ofList trimmed)
  let maxOutputTokens ← match get "LLM_MAX_OUTPUT_TOKENS" with
    | none => pure none
    | some value =>
      match readWhole 32 value.toList with
      | .ok n => pure (some n)
      | .error e =>
        throw { message := notPositive "LLM_MAX_OUTPUT_TOKENS" value, causes := [e.message] }
  let charLimit ← match get "AI_AUDIT_CHAR_LIMIT" with
    | none => pure defaultCharLimit
    | some value =>
      match readWhole 64 value.toList with
      | .ok (n + 1) => pure (n + 1)
      | _ => throw { message := notPositive "AI_AUDIT_CHAR_LIMIT" value, causes := [] }
  return { apiBaseUrl := get "LLM_API_BASE_URL"
           apiKey := get "LLM_API_KEY"
           modelName := get "LLM_MODEL_NAME"
           maxOutputTokens
           dataFolder := expandHome home ((get "AI_AUDIT_DATA_DIR").getD defaultDataFolder)
           concurrency := readConcurrency (get "AI_AUDIT_CONCURRENCY") defaultConcurrency
           charLimit }

/-- The settings with those of the command line in place of others. -/
def withOverrides (settings : Settings) (concurrency charLimit : Option Nat) : Settings :=
  { settings with
    concurrency := (concurrency.map clampConcurrency).getD settings.concurrency
    charLimit := (charLimit.filter (0 < ·)).getD settings.charLimit }

/-- What is said about a variable that is not set. -/
def notSet (name : String) : Failure :=
  { message := name ++ " is not set (add it to the environment or " ++ Environment.fileName ++ ")"
    causes := [] }

/-- The configuration of the model. -/
def modelConfig (settings : Settings) : Except Failure ModelConfig := do
  let some base := settings.apiBaseUrl | throw (notSet "LLM_API_BASE_URL")
  let some model := settings.modelName | throw (notSet "LLM_MODEL_NAME")
  let config := { (ModelConfig.ofModel base model).withApiKey settings.apiKey with
    maxOutputTokens := settings.maxOutputTokens }
  match config.fault? with
  | some fault => throw { message := "Invalid model configuration", causes := [fault.message] }
  | none => return config

/-- The settings of the reviews. -/
def review (settings : Settings) : ReviewSettings :=
  { dataFolder := settings.dataFolder, charLimit := settings.charLimit,
    concurrency := settings.concurrency }

/-- The settings as a JSON value, without the secret. -/
def toJson (settings : Settings) : Json :=
  Json.ofFields [("api_base_url", Json.ofText? settings.apiBaseUrl),
    ("api_key", Json.ofText? (settings.apiKey.map maskSecret)),
    ("model_name", Json.ofText? settings.modelName),
    ("max_output_tokens", Json.ofNat? settings.maxOutputTokens),
    ("data_dir", .string settings.dataFolder), ("concurrency", Json.nat settings.concurrency),
    ("char_limit", Json.nat settings.charLimit)]

end Settings

end Scrutiny
