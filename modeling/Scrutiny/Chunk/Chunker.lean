import Scrutiny.Chunk.Assembly
import Scrutiny.Chunk.Definitions
import Scrutiny.Chunk.Fallback
import Scrutiny.Chunk.SizeGuard
import Scrutiny.Chunk.Skeleton
import Scrutiny.Files.Tree
import Scrutiny.Grammar.Parse
import Scrutiny.Scan.Sources

/-!
# Chunks

From a text or a file to its chunks.
-/

/-!
## Chunking a source text

A text is read with the grammar of its language and cut along its definitions.  A text
that cannot be read is cut by its lines instead, and the reason is kept.
-/

namespace Scrutiny

open Text

/-- Why a text cannot be cut. -/
inductive ChunkError where
  /-- The text does not follow the grammar; the line counts from one. -/
  | malformed (language : Language) (line : Nat)
  /-- There is no grammar for the language. -/
  | unsupported (language : Language)
  /-- The settings of the chunker are of no use. -/
  | badConfig (reason : String)
  /-- The file cannot be read. -/
  | unreadable (reason : String)
  /-- The text is blank. -/
  | blank
  deriving DecidableEq, Repr, Inhabited

namespace ChunkError

/-- The wording of an error. -/
def message : ChunkError → String
  | .malformed language line => language.name ++ " syntax error near line " ++ toString line
  | .unsupported language => "No chunker for " ++ language.name ++ " files"
  | .badConfig reason => "Invalid chunker configuration: " ++ reason
  | .unreadable reason => "IO error: " ++ reason
  | .blank => "File has no content to chunk"

/-- Whether the text can still be cut by its lines. -/
def isRecoverable : ChunkError → Bool
  | .malformed _ _ => true
  | _ => false

end ChunkError

/-- The settings of the chunker. -/
structure ChunkConfig where
  /-- The largest number of characters of a guarded chunk. -/
  maxChars : Nat
  /-- Whether code outside of all definitions becomes chunks too. -/
  moduleBlocks : Bool
  deriving DecidableEq, Repr, Inhabited

namespace ChunkConfig

/-- The settings that hold unless others are given. -/
def standard : ChunkConfig := { maxChars := 2000, moduleBlocks := true }

/-- The settings, if they are of any use. -/
def validate (config : ChunkConfig) : Except ChunkError ChunkConfig :=
  if config.maxChars == 0 then .error (.badConfig "max_chunk_chars must be > 0") else .ok config

end ChunkConfig

/-- The chunks of a file, and why it could not be read with a grammar if it could not. -/
structure ChunkOutcome where
  /-- The chunks, in the order of the file. -/
  chunks : List Chunk
  /-- The error of the grammar. -/
  degraded : Option ChunkError
  deriving DecidableEq, Repr, Inhabited

/-- The syntax tree of a text. -/
def syntaxTree (index : LineIndex) (language : Language) : Except ChunkError Grammar.Tree :=
  if language.hasGrammar then
    match Grammar.parse language index.chars with
    | .ok tree => .ok tree
    | .error offset => .error (.malformed language (index.lineOf offset + 1))
  else .error (.unsupported language)

/-- The spans of the definitions of a text, and the error of the grammar if there is one. -/
def definitionSpans (index : LineIndex) (language : Language) : List Span × Option ChunkError :=
  match syntaxTree index language with
  | .ok tree => (Definitions.ofFile index tree, none)
  | .error error => (Fallback.spans index language, some error)

/-- The chunks of a text. -/
def chunkText (config : ChunkConfig) (path text : String) (language : Language) :
    Except ChunkError ChunkOutcome :=
  let chars := text.toList
  if isBlankText chars then .error .blank
  else if !language.hasGrammar then .error (.unsupported language)
  else
    let index := LineIndex.ofText chars
    let (spans, degraded) := definitionSpans index language
    .ok { chunks := Assembly.chunks index language config.moduleBlocks path spans, degraded }

/-- The chunks of a text, none of them too large. -/
def chunkGuarded (config : ChunkConfig) (path text : String) (language : Language) :
    Except ChunkError ChunkOutcome :=
  match chunkText config path text language with
  | .error error => .error error
  | .ok outcome => .ok { outcome with chunks := SizeGuard.guardAll config.maxChars outcome.chunks }

/-- The skeleton of a text. -/
def skeleton (text : String) (language : Language) : Except ChunkError String :=
  let index := LineIndex.ofText text.toList
  match syntaxTree index language with
  | .ok tree => .ok (String.ofList (Skeleton.ofTree index language tree))
  | .error error => .error error

end Scrutiny

/-!
## Chunks of files

Files are read as text, whatever their bytes are, and cut into chunks that are named after the
path of the file seen from a root.
-/

namespace Scrutiny

/-- The text of a source file. -/
def readSource (tree : FileTree) (path : String) : Except ChunkError String :=
  match tree.read path with
  | .ok bytes => .ok (Text.lossyText bytes)
  | .error e => .error (.unreadable e.message)

/-- The chunks of a file. -/
def chunkFile (config : ChunkConfig) (tree : FileTree) (path root : String) :
    Except ChunkError ChunkOutcome := do
  let text ← readSource tree path
  chunkText config (Path.relativeTo path root) text (.ofPath path)

/-- The chunks of a file, none of them too large.  A blank file has none. -/
def chunkFileGuarded (config : ChunkConfig) (tree : FileTree) (path root : String) :
    Except ChunkError ChunkOutcome := do
  let text ← readSource tree path
  match chunkGuarded config (Path.relativeTo path root) text (.ofPath path) with
  | .error .blank => return { chunks := [], degraded := none }
  | outcome => outcome

end Scrutiny
