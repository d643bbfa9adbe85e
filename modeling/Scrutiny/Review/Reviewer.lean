/-!
# Reviewers

The roles that a model is asked to take on, with what it is told and the kind of reply
that is expected.
-/

namespace Scrutiny

/-- The kind of reply that a reviewer gives. -/
inductive ReviewOutput where
  /-- A list of issues, as JSON. -/
  | issues
  /-- A text that explains the intent behind some code. -/
  | rationale
  /-- A document. -/
  | document
  deriving DecidableEq, Repr, Inhabited

/-- The name of a kind of reply. -/
def ReviewOutput.name : ReviewOutput → String
  | .issues => "issues"
  | .rationale => "rationale"
  | .document => "document"

/-- A role that a model takes on. -/
structure Reviewer where
  /-- The name it is known by. -/
  id : String
  /-- The type of the issues it reports. -/
  issueType : String
  /-- What the model is told. -/
  prompt : String
  /-- The kind of reply. -/
  output : ReviewOutput
  deriving DecidableEq, Repr, Inhabited

namespace Reviewer

/-- Whether the reply has to be a JSON object. -/
def jsonMode (reviewer : Reviewer) : Bool :=
  reviewer.output == .issues

/-- What every reviewer that reports issues is told about its reply. -/
def replyFormat : String :=
  "Respond with a single JSON object and nothing else:\n" ++
  "\x7b\"issues\": [\x7b\"severity\": \"high\" | \"medium\" | \"low\", \"description\": \"...\", " ++
  "\"suggestion\": \"...\", \"line_number_offset\": 0\x7d]\x7d\n" ++
  "line_number_offset is the 0-based line index within the code you were given.\n" ++
  "Return \x7b\"issues\": []\x7d when you find nothing worth reporting."

/-- Looks for vulnerabilities. -/
def security : Reviewer where
  id := "security"
  issueType := "security"
  prompt :=
    "You are a senior application security reviewer. Examine the code for " ++
    "vulnerabilities: injection, unsafe deserialization, path traversal, " ++
    "hard-coded secrets, missing input validation, insecure cryptography and " ++
    "unsafe handling of untrusted data. Report only concrete problems visible " ++
    "in the code, not generic advice." ++ "\n\n" ++ replyFormat
  output := .issues

/-- Looks for code that is hard to read. -/
def readability : Reviewer where
  id := "readability"
  issueType := "readability"
  prompt :=
    "You are a clean-code reviewer. Look for unclear names, functions doing " ++
    "too much, deep nesting, duplicated logic, misleading comments, dead code " ++
    "and error handling that hides failures. Rate severity by how much the " ++
    "problem hurts a maintainer." ++ "\n\n" ++ replyFormat
  output := .issues

/-- Explains why code is written the way it is. -/
def whyExtractor : Reviewer where
  id := "why_extractor"
  issueType := "rationale"
  prompt :=
    "You are a software archaeologist. Given one function or class, explain why " ++
    "it is written the way it is: the problem it solves, the constraints it " ++
    "appears to work around and the trade-offs the author accepted. Answer in " ++
    "three to six plain sentences. Do not restate the code line by line."
  output := .rationale

/-- Reviews the architecture of a whole project. -/
def architectureReviewer : Reviewer where
  id := "architecture_reviewer"
  issueType := "architecture"
  prompt :=
    "You are a software architect reviewing skeleton code: signatures, classes " ++
    "and docstrings with bodies removed. Assess module boundaries, layering, " ++
    "coupling, naming consistency and responsibilities. Write a Markdown review " ++
    "with sections for strengths, problems and concrete recommendations."
  output := .document

/-- Writes the internal design document. -/
def detailDesigner : Reviewer where
  id := "detail_designer"
  issueType := "design"
  prompt :=
    "You write internal design documents from skeleton code. For each file " ++
    "describe its purpose, the main types and functions with their " ++
    "responsibilities, inputs and outputs, and how it depends on other files. " ++
    "Write Markdown with one section per file."
  output := .document

/-- Writes the overview of a design. -/
def overviewDesigner : Reviewer where
  id := "overview_designer"
  issueType := "design"
  prompt :=
    "You write external design overviews. From the internal design document " ++
    "you are given, describe the system as a whole: its purpose, the main " ++
    "components and how they interact, the data flow and the external " ++
    "interfaces. Write Markdown for a reader who will not read the code."
  output := .document

/-- All reviewers. -/
def all : List Reviewer :=
  [security, readability, whyExtractor, architectureReviewer, detailDesigner, overviewDesigner]

/-- The reviewers that look at every chunk of an audit, in order. -/
def auditors : List Reviewer := [security, readability]

/-- The reviewer with the given name. -/
def ofId? (id : String) : Option Reviewer :=
  all.find? (·.id == id)

end Reviewer

end Scrutiny
