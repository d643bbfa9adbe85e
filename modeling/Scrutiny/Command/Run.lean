import Scrutiny.Command.Arguments
import Scrutiny.Documents.Design
import Scrutiny.Rationale.Extraction
import Scrutiny.Review.Report
import Scrutiny.Settings

/-!
# Commands

What each command does, says and fails with.  A command is a function of its arguments, the
environment, the files and the model.
-/

namespace Scrutiny

open Text

namespace ReviewError

/-- The wordings of an error and of the errors behind it. -/
def chain (error : ReviewError) : List String :=
  let causes := match error with
    | .files cause => [cause.message]
    | .chunking (.unreadable reason) => ["IO error: " ++ reason, reason]
    | .chunking cause => [cause.message]
    | .cache (.files cause) => [(CacheError.files cause).message, cause.message]
    | .cache cause => [cause.message]
    | .inference (.serialization reason) => [(InferenceError.serialization reason).message, reason]
    | .inference cause => [cause.message]
    | _ => []
  error.message :: causes

/-- The failure of something because of an error. -/
def toFailure (error : ReviewError) (message : String) : Failure :=
  { message, causes := error.chain }

end ReviewError

/-- What a command says. -/
structure Output where
  /-- The lines on standard output. -/
  lines : List String
  /-- The lines about files that failed. -/
  failed : List String
  deriving DecidableEq, Repr, Inhabited

/-- How a command ends. -/
inductive Ending where
  /-- It has done its work. -/
  | done (output : Output)
  /-- It failed. -/
  | failed (failure : Failure)
  /-- A number was too large. -/
  | overflow
  /-- The arguments are wrong. -/
  | usage
  /-- Help or the version was asked for. -/
  | information
  deriving DecidableEq, Repr, Inhabited

/-- The exit code of an ending. -/
def Ending.code : Ending → Nat
  | .done _ | .information => 0
  | .failed _ => 1
  | .usage => 2
  | .overflow => 101

namespace Command

variable {μ : Type}

/-- A text at the right end of a column. -/
def column (width : Nat) (text : String) : String :=
  String.ofList (List.replicate (width - text.length) ' ') ++ text

/-- What is said about the audit of a file. -/
def fileLines (audit : FileAudit) (artifact : String) : List String :=
  let high := audit.chunks.flatMap fun chunk =>
    (chunk.issues.filter (·.severity == .high)).map fun issue =>
      "  line " ++ toString (issue.absoluteLine.getD (chunk.startLine + 1)) ++ ": [" ++ issue.type ++ "] "
        ++ issue.description
  (audit.file ++ ": " ++ toString audit.totalIssues ++ " issues (" ++ toString audit.highSeverity
    ++ " high) in " ++ toString audit.chunks.length ++ " chunks") :: high ++ ["Report: " ++ artifact]

/-- What is said about the audit of a project. -/
def projectOutput (audit : ProjectAudit) : Output :=
  let files := (audit.files.filter (0 < ·.totalIssues)).take 10
  { lines :=
      ("Audited " ++ toString audit.files.length ++ "/" ++ toString audit.totalFiles ++ " files ("
        ++ toString audit.skipped ++ " skipped, " ++ toString audit.failed.length ++ " failed): "
        ++ toString audit.totalIssues ++ " issues, " ++ toString audit.highSeverity ++ " high")
      :: files.map (fun file => "  " ++ column 4 (toString file.totalIssues) ++ "  " ++ file.file)
      ++ ["Summary: " ++ audit.summaryPath]
    failed := audit.failed.map fun file => "  failed: " ++ file.file ++ " (" ++ file.reason ++ ")" }

/-- Some lines on standard output. -/
def say (lines : List String) : Output := { lines, failed := [] }

/-- What a command does in a session, and what it says then. -/
def action (session : Session μ) (isFile : String → Bool) : Command → ReviewAction μ Output
  | .audit path force out =>
    if isFile path then do
      match ← session.auditSingle path force out with
      | none => return say [path ++ ": nothing to audit"]
      | some (found, artifact) => return say (fileLines found artifact)
    else do return projectOutput (← session.auditProject path force out)
  | .extractWhy folder force => do
    let report ← session.extractRationale folder force
    return say ["Extracted " ++ toString report.extracted ++ ", skipped " ++ toString report.skipped
      ++ ", failed " ++ toString report.failed ++ "; " ++ toString report.totalEntries ++ " entries in "
      ++ report.storePath]
  | .listWhy folder filter => do
    let entries ← session.listRationale folder filter
    if entries.isEmpty then return say ["No rationale stored for " ++ folder]
    return say (entries.map fun entry => "## " ++ entry.chunkId ++ " (" ++ entry.kind ++ ")\n\n"
      ++ String.ofList (trim entry.rationale.toList) ++ "\n")
  | .reviewArchitecture folder out => do
    let report ← session.reviewArchitecture folder out
    match report.outputPath with
    | some path => return say ["Reviewed " ++ toString report.fileCount ++ " files in "
        ++ toString report.batchCount ++ " batches: " ++ path]
    | none => return say [report.markdown]
  | .designDoc folder out force => do
    let report ← session.writeDesign folder out force
    return say [(if report.detailSkipped then "Reused " else "Wrote ") ++ report.detailPath,
      "Wrote " ++ report.overviewPath]
  | .config => return say []

/-- What a command is said to have failed with. -/
def failureMessage : Command → String
  | .audit path _ _ => "Audit of " ++ path ++ " failed"
  | .extractWhy folder _ => "Rationale extraction for " ++ folder ++ " failed"
  | .listWhy folder _ => "Failed to read rationale for " ++ folder
  | .reviewArchitecture folder _ => "Architecture review of " ++ folder ++ " failed"
  | .designDoc folder _ _ => "Design document for " ++ folder ++ " failed"
  | .config => ""

/-- The ending that a result of reviews has. -/
def ending (message : String) : Except ReviewError Output → Ending
  | .ok output => .done output
  | .error .lineOverflow => .overflow
  | .error e => .failed (e.toFailure message)

/-- Whether a path leads to a file. -/
def isFile (tree : FileTree) (path : String) : Bool :=
  match tree.find path with
  | .ok (.file _) => true
  | _ => false

/-- Runs a command that needs a model. -/
def runSession (settings : Settings) (model : ModelConfig → Model μ) (clock : Clock) (command : Command)
    (world : World μ) : Ending × World μ :=
  match settings.modelConfig with
  | .error failure => (.failed failure, world)
  | .ok chosen =>
    let (started, opened) := Session.start chosen (model chosen) settings.review clock world
    match started with
    | .error e => (.failed (e.toFailure ("Failed to open data dir " ++ settings.dataFolder)), opened)
    | .ok session =>
      let (result, reviewed) := command.action session (isFile opened.files) opened
      let (_, closed) := session.close reviewed
      (ending command.failureMessage result, closed)

/-- Runs the program. -/
def run (arguments : List String) (home : Option String) (environment : Environment)
    (model : ModelConfig → Model μ) (clock : Clock) (world : World μ) : Ending × World μ :=
  match Arguments.parse arguments with
  | .error .usage => (.usage, world)
  | .error .information => (.information, world)
  | .ok invocation =>
    let (loaded, environment) := environment.loadFile world.files Environment.fileName
    match loaded.bind fun _ => Settings.ofVariables home environment.get? with
    | .error failure => (.failed failure, world)
    | .ok base =>
      let settings := base.withOverrides invocation.concurrency invocation.charLimit
      match invocation.command with
      | .config => (.done (say [settings.toJson.pretty]), world)
      | command => runSession settings model clock command world

end Command

end Scrutiny
