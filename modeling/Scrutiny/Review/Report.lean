import Scrutiny.Review.Audit
import Scrutiny.Total

/-!
# Audit reports

The audit of a file, which is written beside the file or into a folder with the same layout, and
the summary of the audits of all files of a project.
-/

namespace Scrutiny

/-- What the auditors have found in a file. -/
structure FileAudit where
  /-- The path of the file. -/
  file : String
  /-- The audits of its chunks, in order. -/
  chunks : List ChunkAudit
  /-- Why its chunks were found by its lines only. -/
  degraded : Option String
  deriving DecidableEq, Repr, Inhabited

namespace FileAudit

/-- The number of issues. -/
def totalIssues (audit : FileAudit) : Nat :=
  total (fun chunk => chunk.issues.length) audit.chunks

/-- The number of issues of high severity. -/
def highSeverity (audit : FileAudit) : Nat :=
  total ChunkAudit.highSeverity audit.chunks

/-- Whether there are no chunks. -/
def isEmpty (audit : FileAudit) : Bool :=
  audit.chunks.isEmpty

/-- The audit as a JSON value. -/
def toJson (audit : FileAudit) : Json :=
  let degraded := match audit.degraded with
    | some reason => [("degraded", Json.string reason)]
    | none => []
  .object ([("source_file", .string audit.file),
    ("chunks", .array (audit.chunks.map ChunkAudit.toJson)),
    ("total_issues", Json.nat audit.totalIssues)] ++ degraded)

/-- The ending of the names of the files that audits are written to. -/
def ending : String := "_audit.json"

/-- Where the audit of a file is written: beside it, or into a folder where the layout below
`root` is repeated. -/
def artifactPath (file root : String) (out : Option String) : String :=
  let name := (Path.stem? file).getD "" ++ ending
  match out with
  | none => Path.withFileName file name
  | some folder =>
    let relative := (Path.stripBase? file root).getD file
    Path.join (Path.join folder ((Path.parent? relative).getD "")) name

/-- Writes the audit of a file. -/
def write {μ : Type} (audit : FileAudit) (path : String) : ReviewAction μ Unit :=
  ReviewAction.onFiles ReviewAction.cacheFailure (FileAction.writeJson path audit.toJson)

end FileAudit

/-- The number of issues of one file. -/
structure FileSummary where
  /-- The path of the file, seen from the project. -/
  file : String
  /-- The number of issues. -/
  totalIssues : Nat
  /-- The number of issues of high severity. -/
  highSeverity : Nat
  deriving DecidableEq, Repr, Inhabited

/-- A file that could not be audited. -/
structure FailedFile where
  /-- The path of the file, seen from the project. -/
  file : String
  /-- Why it could not be audited. -/
  reason : String
  deriving DecidableEq, Repr, Inhabited

/-- What became of the files of a project, in the order in which they were audited. -/
structure AuditProgress where
  /-- The files that were audited. -/
  audited : List FileSummary
  /-- The files that could not be audited. -/
  failed : List FailedFile
  /-- The number of files without chunks. -/
  skipped : Nat
  deriving DecidableEq, Repr, Inhabited

/-- The summary of the audits of a project. -/
structure ProjectAudit where
  /-- The folder of the project. -/
  folder : String
  /-- The number of source files. -/
  totalFiles : Nat
  /-- The number of files without chunks. -/
  skipped : Nat
  /-- The files that were audited, those with the most issues first. -/
  files : List FileSummary
  /-- The files that could not be audited. -/
  failed : List FailedFile
  /-- The file that the summary is written to. -/
  summaryPath : String
  deriving DecidableEq, Repr, Inhabited

namespace ProjectAudit

/-- The name of the file that the summary is written to. -/
def summaryFile : String := "_summary_audit.json"

/-- The number of issues. -/
def totalIssues (audit : ProjectAudit) : Nat :=
  total FileSummary.totalIssues audit.files

/-- The number of issues of high severity. -/
def highSeverity (audit : ProjectAudit) : Nat :=
  total FileSummary.highSeverity audit.files

/-- The summary as a JSON value. -/
def toJson (audit : ProjectAudit) : Json :=
  let file (summary : FileSummary) : Json :=
    .object [("file", .string summary.file), ("total_issues", Json.nat summary.totalIssues),
      ("high_severity", Json.nat summary.highSeverity)]
  let failure (failed : FailedFile) : Json :=
    .object [("file", .string failed.file), ("reason", .string failed.reason)]
  .object [("directory", .string audit.folder), ("total_files", Json.nat audit.totalFiles),
    ("audited_files", Json.nat audit.files.length), ("skipped_files", Json.nat audit.skipped),
    ("total_issues", Json.nat audit.totalIssues), ("high_severity_total", Json.nat audit.highSeverity),
    ("files", .array (audit.files.map file)), ("failed", .array (audit.failed.map failure))]

/-- Whether a file comes before another one in a summary. -/
def comesFirst (a b : FileSummary) : Bool :=
  b.totalIssues < a.totalIssues || (a.totalIssues == b.totalIssues && a.file ≤ b.file)

/-- The summary of what became of the files of a project. -/
def ofProgress (folder : String) (totalFiles : Nat) (out : Option String) (progress : AuditProgress) :
    ProjectAudit :=
  { folder, totalFiles, skipped := progress.skipped
    files := progress.audited.mergeSort comesFirst
    failed := progress.failed
    summaryPath := Path.join (out.getD folder) summaryFile }

end ProjectAudit

namespace Session

variable {μ : Type}

/-- The ids of the definitions that chunks were cut from, without repetitions and in order. -/
def parentIds (chunks : List Chunk) : List String :=
  ((chunks.map fun chunk => parentId chunk.id).mergeSort (· ≤ ·)).eraseReps

/-- Audits a file.  With `force`, what the cache has about its chunks is removed first. -/
def auditFile (session : Session μ) (path root : String) (force : Bool) : ReviewAction μ FileAudit := do
  let found ← ReviewAction.look (·.canonical path)
  let file ← ReviewAction.ofExcept (fun e : FileError => .badPath path e.message) found
  let base ← ReviewAction.look fun tree => (tree.canonical root).toOption.getD root
  let outcome ← session.chunks file base
  let degraded := outcome.degraded.map ChunkError.message
  if outcome.chunks.isEmpty then return { file, chunks := [], degraded }
  if force then
    (parentIds outcome.chunks).forM fun id => do
      let _ ← ReviewAction.onFiles ReviewAction.cacheFailure (session.cache.invalidate id)
  let chunks ← session.auditChunks force Reviewer.auditors outcome.chunks
  return { file, chunks, degraded }

/-- Audits one file and writes the result; a file without chunks has none. -/
def auditSingle (session : Session μ) (path : String) (force : Bool) (out : Option String) :
    ReviewAction μ (Option (FileAudit × String)) := do
  let root := (Path.parent? path).getD "."
  let audit ← session.auditFile path root force
  if audit.isEmpty then return none
  let artifact := FileAudit.artifactPath audit.file ((Path.parent? audit.file).getD root) out
  audit.write artifact
  return some (audit, artifact)

/-- Audits one file of a project and writes the result. -/
def auditMember (session : Session μ) (root : String) (force : Bool) (out : Option String)
    (progress : AuditProgress) (path : String) : ReviewAction μ AuditProgress := do
  let file := Path.relativeTo path root
  let attempt : ReviewAction μ AuditProgress := do
    let audit ← session.auditFile path root force
    if audit.isEmpty then return { progress with skipped := progress.skipped + 1 }
    audit.write (FileAudit.artifactPath path root out)
    let summary : FileSummary :=
      { file, totalIssues := audit.totalIssues, highSeverity := audit.highSeverity }
    return { progress with audited := progress.audited ++ [summary] }
  tryCatch attempt fun e =>
    if e.isFatal then throw e
    else return { progress with failed := progress.failed ++ [{ file, reason := e.message }] }

/-- Audits all source files of a project, and writes the results and their summary. -/
def auditProject (session : Session μ) (folder : String) (force : Bool) (out : Option String) :
    ReviewAction μ ProjectAudit := do
  let root ← existingFolder folder
  let files ← ReviewAction.look (Sources.scan · root)
  let progress ← files.foldlM (session.auditMember root force out) { audited := [], failed := [], skipped := 0 }
  let audit := ProjectAudit.ofProgress root files.length out progress
  ReviewAction.onFiles ReviewAction.cacheFailure (FileAction.writeJson audit.summaryPath audit.toJson)
  return audit

end Session

end Scrutiny
