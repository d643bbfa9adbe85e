import Scrutiny.Json.Value
import Scrutiny.Text.Lines
import Scrutiny.Text.Whole

/-!
# Issues

What a reviewer reports about a chunk.  Replies are read leniently: entries that say nothing
are dropped, several names are known for the same thing, and what cannot be understood
counts as the mildest case.
-/

namespace Scrutiny

open Text

/-- How serious an issue is. -/
inductive Severity where
  | high
  | medium
  | low
  deriving DecidableEq, Repr, Inhabited

namespace Severity

/-- The name of a severity. -/
def name : Severity → String
  | .high => "high"
  | .medium => "medium"
  | .low => "low"

/-- The severity with the given name. -/
def ofName? (name : String) : Option Severity :=
  [.high, .medium, .low].find? (·.name == name)

/-- The severity as a JSON value. -/
def toJson (severity : Severity) : Json := .string severity.name

/-- The severity that a JSON value stands for. -/
def ofJson? (json : Json) : Option Severity :=
  json.variant?.bind ofName?

/-- The severity that a label stands for; a label that is not known is mild. -/
def ofLabel (label : String) : Severity :=
  match String.ofList ((trim label.toList).map Char.toLower) with
  | "high" | "critical" | "severe" => .high
  | "medium" | "moderate" | "med" => .medium
  | _ => .low

end Severity

/-- One finding of one reviewer about one chunk. -/
structure Issue where
  /-- Its type. -/
  type : String
  /-- How serious it is. -/
  severity : Severity
  /-- What is wrong. -/
  description : String
  /-- How it could be mended. -/
  suggestion : Option String
  /-- The line within the chunk, counted from zero. -/
  lineOffset : Nat
  /-- The line within the file, counted from one, once the chunk is known. -/
  absoluteLine : Option Nat
  deriving DecidableEq, Repr, Inhabited

namespace Issue

/-- The type of an issue that stands for a review that failed. -/
def failureType : String := "processing-error"

/-- The issue that stands for a review that failed. -/
def ofFailure (reviewer reason : String) : Issue :=
  { type := failureType, severity := .low, description := reviewer ++ " review failed: " ++ reason,
    suggestion := none, lineOffset := 0, absoluteLine := none }

/-- Whether the issue stands for a review that failed. -/
def isFailure (issue : Issue) : Bool :=
  issue.type == failureType

/-- The line in the file of an issue in a chunk that starts at line `startLine`, counted from zero.
There is none if it cannot be counted with 64 bits. -/
def lineFrom? (issue : Issue) (startLine : Nat) : Option Nat :=
  let line := startLine + issue.lineOffset + 1
  if line < Nat.pow 2 64 then some line else none

/-- The issue with its line in the file. -/
def resolved? (issue : Issue) (startLine : Nat) : Option Issue :=
  (issue.lineFrom? startLine).map fun line => { issue with absoluteLine := some line }

/-! ### Issues in replies -/

/-- The first of the named fields that holds a text which is not blank, trimmed. -/
def textUnder? (entry : Json) (names : List String) : Option String :=
  names.findSome? fun name =>
    ((entry.field? name).bind Json.string?).bind fun text =>
      let trimmed := trim text.toList
      if trimmed.isEmpty then none else some (String.ofList trimmed)

/-- The line that a value gives: a whole number, or a text that stands for one. -/
def lineOf? : Json → Option Nat
  | .number n => Json.nat? (.number n)
  | .string text => (readWhole 64 (trim text.toList)).toOption
  | _ => none

/-- The issue that an entry of a reply stands for. -/
def ofItem? (type : String) (entry : Json) : Option Issue := do
  let _ ← entry.object?
  let description ← textUnder? entry ["description", "message", "issue", "problem"]
  let severity := match (entry.field? "severity").bind Json.string? with
    | some label => Severity.ofLabel label
    | none => .low
  let line := ["line_number_offset", "line_offset", "line_number", "line"].findSome? fun name =>
    (entry.field? name).bind lineOf?
  return { type, severity, description,
           suggestion := textUnder? entry ["suggestion", "fix", "recommendation"],
           lineOffset := line.getD 0, absoluteLine := none }

/-- What a reply is said to lack if it has no list of issues. -/
def missingList : String := "response has no \"issues\" array"

/-- The issues of a reply, in order; there are none if the reply has no list of them. -/
def ofReply? (reply : Json) (type : String) : Option (List Issue) :=
  ((reply.field? "issues").bind Json.array?).map (·.filterMap (ofItem? type))

/-! ### Issues as JSON -/

/-- The issue as a JSON value. -/
def toJson (issue : Issue) : Json :=
  let suggestion := match issue.suggestion with
    | some text => [("suggestion", Json.string text)]
    | none => []
  let line := match issue.absoluteLine with
    | some n => [("absolute_line", Json.nat n)]
    | none => []
  .object ([("type", .string issue.type), ("severity", issue.severity.toJson),
    ("description", .string issue.description)] ++ suggestion
    ++ [("line_number_offset", Json.nat issue.lineOffset)] ++ line)

/-- The names of the parts of an issue, in order. -/
def partNames : List String :=
  ["type", "severity", "description", "suggestion", "line_number_offset", "absolute_line"]

/-- The issue that a JSON value stands for. -/
def ofJson? (json : Json) : Option Issue := do
  match ← json.parts? partNames with
  | [type, severity, description, suggestion, line, absolute] =>
    return { type := ← type.bind Json.string?
             severity := ← severity.bind Severity.ofJson?
             description := ← description.bind Json.string?
             suggestion := ← Json.optional? Json.string? suggestion
             lineOffset := ← line.bind (Json.unsigned? 64)
             absoluteLine := ← Json.optional? (Json.unsigned? 64) absolute }
  | _ => none

end Issue

end Scrutiny
