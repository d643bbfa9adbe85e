import Scrutiny.Inference.Transport
import Scrutiny.Json.Writer
import Scrutiny.Review.Reviewer
import Scrutiny.Text.Lines

/-!
# Scripts

A script is a model that needs no service.  It answers by rules, so that reviews can be run again
with the same replies, and it remembers what it was asked.
-/

namespace Scrutiny

open Text

/-- A reply of a script. -/
inductive ScriptedReply where
  /-- A text, or a failure. -/
  | plain (result : Except InferenceError String)
  /-- An answer with a status, as a service gives it. -/
  | response (answer : IncomingMessage)
  /-- A text that repeats the first line of the question. -/
  | echo

/-- What a reply of a script says to a request. -/
def ScriptedReply.toResult (request : ChatRequest) : ScriptedReply → Except InferenceError String
  | .plain result => result
  | .response answer => .error (Reply.ofStatus answer.status (lossyText answer.body))
  | .echo => .ok ("Generated text for: " ++ String.ofList (firstLine request.user.toList))

/-- The answer of a service that gives a reply of a script. -/
def ScriptedReply.toAnswer (request : ChatRequest) : ScriptedReply → IncomingMessage
  | .response answer => answer
  | reply =>
    match reply.toResult request with
    | .ok text => { status := 200, body := (Reply.envelope text).render.toUTF8.toList }
    | .error e => { status := 500, body := e.message.toUTF8.toList }

/-- A rule: which requests it is for, and the replies to the first of them, the second, and so on. -/
structure ScriptRule where
  /-- The reviewer; without one the rule is for all. -/
  reviewer : Option String
  /-- A part that the question must have. -/
  part : Option String
  /-- The replies; the last one is given again. -/
  replies : List ScriptedReply

/-- Whether a rule is for a question of a reviewer. -/
def ScriptRule.isFor (rule : ScriptRule) (reviewer question : String) : Bool :=
  rule.reviewer.all (· == reviewer) && rule.part.all fun part => hasInside part.toList question.toList

/-- A script with what it was asked. -/
structure Script where
  /-- The rules; the first one that is for a request answers it. -/
  rules : List ScriptRule
  /-- How often each question of a reviewer was asked. -/
  counts : List ((String × String) × Nat)
  /-- The requests, the last one first. -/
  requests : List ChatRequest

namespace Script

/-- A script that was not asked yet. -/
def ofRules (rules : List ScriptRule) : Script := { rules, counts := [], requests := [] }

/-- The name of the reviewer that a request is for. -/
def reviewerOf (request : ChatRequest) : String :=
  ((Reviewer.all.find? (·.prompt == request.system)).map Reviewer.id).getD ""

/-- The question of a request, without the reminder at its end. -/
def questionOf (request : ChatRequest) : String :=
  let ending := ("\n\n" ++ Inference.reminder).toList
  let user := request.user.toList
  if ending.isSuffixOf user then String.ofList (user.take (user.length - ending.length))
  else request.user

/-- The reply to a request. -/
def reply (script : Script) (request : ChatRequest) : ScriptedReply × Script :=
  let reviewer := reviewerOf request
  let question := questionOf request
  let key := (reviewer, question)
  let count := ((script.counts.find? (·.1 == key)).map (·.2)).getD 0
  let next : Script :=
    { script with
      requests := request :: script.requests
      counts := (key, count + 1) :: script.counts.filter (·.1 != key) }
  let replies := ((script.rules.find? (·.isFor reviewer question)).map (·.replies)).getD []
  let other := if request.jsonMode then .plain (.ok "\x7b\"issues\": []\x7d") else .echo
  ((replies[count]?.or replies.getLast?).getD other, next)

/-- The script as a model. -/
def model : Model Script := fun script request =>
  let (reply, next) := script.reply request
  (reply.toResult request, next)

end Script

end Scrutiny
