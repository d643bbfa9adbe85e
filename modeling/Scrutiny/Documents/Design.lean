import Scrutiny.Digest.Sha256
import Scrutiny.Documents.Architecture

/-!
# Design documents

A model writes the detailed design of a project from its skeletons, and then an overview from the
detailed design.  Each document is written as a whole, so that a run that was interrupted goes on
after the last document that is complete.
-/

namespace Scrutiny

open Text

/-- What a run of writing a design document has done. -/
structure DesignReport where
  /-- The file of the detailed design. -/
  detailPath : String
  /-- The file of the overview. -/
  overviewPath : String
  /-- Whether the detailed design was there already. -/
  detailSkipped : Bool
  /-- All states of the run. -/
  transitions : List DesignState
  deriving DecidableEq, Repr, Inhabited

/-- The report as a JSON value. -/
def DesignReport.toJson (report : DesignReport) : Json :=
  .object [("detail_path", .string report.detailPath), ("overview_path", .string report.overviewPath),
    ("stage1_skipped", .bool report.detailSkipped),
    ("transitions", .array (report.transitions.map fun state => .string state.name))]

namespace Session

variable {μ : Type}

/-- The first line of the note on scripts. -/
def scriptMark : String := "> **Note on JavaScript/TypeScript**"

/-- The note on what the designers do not look at in scripts. -/
def scriptNote : String :=
  scriptMark ++ "\n> This document was produced by language-agnostic designers. Type safety,\n"
    ++ "> async/await misuse, React hook rules and other JS/TS-specific concerns\n"
    ++ "> were not analysed in depth.\n\n"

/-- The lock of the documents in a folder. -/
def designLock (session : Session μ) (folder : String) : String :=
  Path.join (Path.join session.settings.dataFolder "locks")
    ("design-" ++ Sha256.shortOfText folder ++ ".lock")

/-- The detailed design of a project without skeletons. -/
def nothingToDesign : String :=
  "# Detailed Design (Internal)\n\nNo source files were found.\n"

/-- The question for the detailed design of a batch. -/
def detailQuestion (batch : Batch) : String :=
  "Write the internal design document for this skeleton code:\n\n" ++ batch.text

/-- The detailed design of a batch with the given number, under a heading if there are several. -/
def designBatch (session : Session μ) (several : Bool) (number : Nat) (batch : Batch) :
    ReviewAction μ String := do
  let text ← session.documentOr .detailDesigner (detailQuestion batch) fun reason =>
    "*Generating batch " ++ toString number ++ " failed: " ++ reason ++ "*"
  return if several then "## " ++ batch.heading ++ " detailed design\n\n" ++ text else text

/-- The head of the detailed design. -/
def detailHead (root date : String) (fileCount : Nat) : String :=
  "# Detailed Design (Internal)\n\n**Directory:** \x60" ++ root ++ "\x60  \n**Generated:** " ++ date
    ++ "  \n**Files:** " ++ toString fileCount ++ rule

/-- The detailed design of a project. -/
def detailText (session : Session μ) (root : String) : ReviewAction μ String := do
  let blocks ← skeletons root
  if blocks.isEmpty then return nothingToDesign
  let note := if blocks.any fun block => block.language.isScript then scriptNote else ""
  let batches := Batch.pack session.settings.charLimit (blocks.map SkeletonBlock.text)
  let sections ← batches.zipIdx.mapM fun (batch, i) =>
    session.designBatch (1 < batches.length) (i + 1) batch
  return detailHead root session.clock.date blocks.length ++ note ++ rule.intercalate sections

/-- Writes the detailed design of a project. -/
def writeDetail (session : Session μ) (root path : String) : ReviewAction μ Unit := do
  let text ← session.detailText root
  ReviewAction.onFiles .files (FileAction.writeAtomic path (bytesOf text))

/-- The question for the overview of a detailed design. -/
def overviewQuestion (detail : String) : String :=
  "Write the external design overview for this internal design document:\n\n" ++ detail

/-- The head of the overview. -/
def overviewHead (date source : String) : String :=
  "# Design Overview (External)\n\n**Generated:** " ++ date ++ "  \n**Source:** \x60" ++ source
    ++ "\x60" ++ rule

/-- The overview of a detailed design. -/
def overviewText (session : Session μ) (detailPath detail : String) : ReviewAction μ String := do
  let text ← session.documentOr .overviewDesigner (overviewQuestion detail) fun reason =>
    "*Generating the overview failed: " ++ reason ++ "*"
  let source := (Path.fileName? detailPath).getD DesignRun.detailFile
  let note := if hasInside scriptMark.toList detail.toList then scriptNote else ""
  return overviewHead session.clock.date source ++ note ++ text

/-- Writes the overview of a detailed design. -/
def writeOverview (session : Session μ) (detailPath path : String) : ReviewAction μ Unit := do
  let found ← ReviewAction.look (·.readText detailPath)
  let detail ← ReviewAction.ofExcept .files found
  let text ← session.overviewText detailPath detail
  ReviewAction.onFiles .files (FileAction.writeAtomic path (bytesOf text))

/-- One step of a run. -/
def advanceRun (run : DesignRun) (next : DesignState) : ReviewAction μ DesignRun :=
  ReviewAction.ofExcept .transition (run.advance next)

/-- Begins a run: the folder of the documents is made and locked, and shows where the run starts. -/
def beginDesign (session : Session μ) (folder : String) (out : Option String) (force : Bool) :
    ReviewAction μ (String × DesignRun) := do
  let root ← existingFolder folder
  let target := out.getD root
  ReviewAction.onFiles .files (FileAction.createFolders target)
  takeLock (session.designLock target)
  let start ← ReviewAction.onFiles .files (DesignRun.resume target force)
  return (root, start)

/-- The first stage of a run. -/
def runDetail (session : Session μ) (root : String) (run : DesignRun) : ReviewAction μ DesignRun := do
  let running ← advanceRun run .detailRunning
  session.writeDetail root running.detailPath
  advanceRun running .detailDone

/-- The second stage of a run. -/
def runOverview (session : Session μ) (run : DesignRun) : ReviewAction μ DesignRun := do
  let running ← advanceRun run .overviewRunning
  session.writeOverview running.detailPath running.overviewPath
  advanceRun running .overviewDone

/-- The stages of a run, from where it starts. -/
def runStages (session : Session μ) (root : String) (start : DesignRun) : ReviewAction μ DesignReport := do
  let detailSkipped := start.state == .detailDone
  let detailed ← if detailSkipped then pure start else session.runDetail root start
  let finished ← session.runOverview detailed
  return { detailPath := finished.detailPath, overviewPath := finished.overviewPath, detailSkipped,
           transitions := finished.transitions }

/-- Writes the design document of a project. -/
def writeDesign (session : Session μ) (folder : String) (out : Option String) (force : Bool) :
    ReviewAction μ DesignReport := do
  let (root, start) ← session.beginDesign folder out force
  session.runStages root start

end Session

end Scrutiny
