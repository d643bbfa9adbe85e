import Scrutiny.Chunk.Chunker
import Scrutiny.Files.Atomic
import Scrutiny.Review.Reviewer
import Scrutiny.Review.Session

/-!
# Reviews of architectures

The skeletons of all files of a project are put together in batches, and the model is asked about each
batch.
-/

namespace Scrutiny

/-!
## Batches

Blocks of text are packed into batches, in order, as many into each as the limit on its
characters allows.  A block that is too long by itself has a batch of its own.
-/

/-- Some consecutive blocks. -/
structure Batch where
  /-- The number of the first block, counted from one. -/
  first : Nat
  /-- The number of the last block. -/
  last : Nat
  /-- The blocks, with a blank line between them. -/
  text : String
  deriving DecidableEq, Repr, Inhabited

namespace Batch

/-- What stands between two blocks of a batch. -/
def separator : String := "\n\n"

/-- The batch with another block at its end. -/
def add (batch : Batch) (block : String) : Batch :=
  { batch with last := batch.last + 1, text := batch.text ++ separator ++ block }

/-- Whether another block fits into the batch. -/
def fits (limit : Nat) (batch : Batch) (block : String) : Bool :=
  batch.text.length + separator.length + block.length ≤ limit

/-- The batch that starts with a block. -/
def ofBlock (number : Nat) (block : String) : Batch :=
  { first := number, last := number, text := block }

/-- Packs the blocks after those of a batch. -/
def packFrom (limit : Nat) (batch : Batch) : List String → List Batch
  | [] => [batch]
  | block :: rest =>
    if batch.fits limit block then packFrom limit (batch.add block) rest
    else batch :: packFrom limit (ofBlock (batch.last + 1) block) rest

/-- Packs blocks into batches. -/
def pack (limit : Nat) : List String → List Batch
  | [] => []
  | block :: rest => packFrom limit (ofBlock 1 block) rest

/-- The heading of a batch. -/
def heading (batch : Batch) : String :=
  if batch.first == batch.last then "Files " ++ toString batch.first
  else "Files " ++ toString batch.first ++ "-" ++ toString batch.last

end Batch

/-!
## Skeleton blocks

The skeletons of the files of a project, each under a line with the path of its file.
-/

open Text

/-- The skeleton of one file. -/
structure SkeletonBlock where
  /-- The path of the file, seen from the project. -/
  path : String
  /-- The language of the file. -/
  language : Language
  /-- The path and the skeleton. -/
  text : String
  deriving DecidableEq, Repr, Inhabited

namespace SkeletonBlock

/-- The skeleton of a file, if it can be read and has one. -/
def ofFile? (tree : FileTree) (root file : String) : Option SkeletonBlock := do
  let path := Path.relativeTo file root
  let language := Language.ofPath file
  let source ← (readSource tree file).toOption
  let skeleton ← (skeleton source language).toOption
  if isBlankText skeleton.toList then none
  return { path, language,
           text := "=== File: " ++ path ++ " ===\n" ++ String.ofList (trimEnd skeleton.toList) }

/-- The skeletons of some files; those without one are left out. -/
def collect (tree : FileTree) (root : String) (files : List String) : List SkeletonBlock :=
  files.filterMap (ofFile? tree root)

end SkeletonBlock

/-!
## Architecture reviews

The skeletons of the files of a project are packed into batches, the model reviews each of them,
and the reviews become one document.
-/

/-- A review of the architecture of a project. -/
structure ArchitectureReport where
  /-- The document. -/
  markdown : String
  /-- The number of files with a skeleton. -/
  fileCount : Nat
  /-- The number of batches. -/
  batchCount : Nat
  /-- The file that the document was written to. -/
  outputPath : Option String
  deriving DecidableEq, Repr, Inhabited

namespace Session

variable {μ : Type}

/-- Sends a question for a document to the model. -/
def document (session : Session μ) (reviewer : Reviewer) (question : String) :
    ReviewAction μ String := do
  let reply ← ReviewAction.ask
    (Inference.text session.config session.model reviewer.prompt (session.bounded question))
  ReviewAction.ofExcept .inference reply

/-- The trimmed reply to a question for a document, or a note on its failure. -/
def documentOr (session : Session μ) (reviewer : Reviewer) (question : String)
    (note : String → String) : ReviewAction μ String :=
  tryCatch (do return String.ofList (trim (← session.document reviewer question).toList)) fun e =>
    if e.isFatal then throw e else return note e.message

/-- The skeletons of the source files of a project. -/
def skeletons (root : String) : ReviewAction μ (List SkeletonBlock) :=
  ReviewAction.look fun tree => SkeletonBlock.collect tree root (Sources.scan tree root)

/-- What stands between the parts of a document. -/
def rule : String := "\n\n---\n\n"

/-- The question for the review of a batch. -/
def architectureQuestion (batch : Batch) : String :=
  "Review the architecture of this skeleton code:\n\n" ++ batch.text

/-- The review of a batch with the given number. -/
def reviewBatch (session : Session μ) (number : Nat) (batch : Batch) : ReviewAction μ String :=
  session.documentOr .architectureReviewer (architectureQuestion batch) fun reason =>
    "*Review of batch " ++ toString number ++ " failed: " ++ reason ++ "*"

/-- The reviews of batches in one document. -/
def joinReviews : List (Batch × String) → String
  | [(_, review)] => review
  | reviews => rule.intercalate (reviews.map fun (batch, review) => "## " ++ batch.heading ++ "\n\n" ++ review)

/-- The head of the document. -/
def architectureHead (root date : String) (fileCount : Nat) : String :=
  "# Architecture Review\n\n**Directory:** \x60" ++ root ++ "\x60\n**Generated:** " ++ date
    ++ "\n**Files:** " ++ toString fileCount ++ rule

/-- The document of a project without skeletons. -/
def nothingToReview : String :=
  "# Architecture Review\n\nNo source files with a usable skeleton were found.\n"

/-- Reviews the architecture of a project. -/
def reviewArchitecture (session : Session μ) (folder : String) (out : Option String) :
    ReviewAction μ ArchitectureReport := do
  let root ← existingFolder folder
  let blocks ← skeletons root
  let batches := Batch.pack session.settings.charLimit (blocks.map SkeletonBlock.text)
  let markdown ← if batches.isEmpty then pure nothingToReview else do
    let reviews ← batches.zipIdx.mapM fun (batch, i) => return (batch, ← session.reviewBatch (i + 1) batch)
    pure (architectureHead root session.clock.date blocks.length ++ joinReviews reviews)
  match out with
  | some path => ReviewAction.onFiles .files (FileAction.writeAtomic path (bytesOf markdown))
  | none => pure ()
  return { markdown, fileCount := blocks.length, batchCount := batches.length, outputPath := out }

end Session

end Scrutiny
