/-!
# Chunks

A chunk is a named piece of a source file that is reviewed on its own.  A span is the
range of a file that a chunk is to be cut from.
-/

namespace Scrutiny

/-- What a chunk was cut from. -/
inductive ChunkKind where
  /-- A function or a method. -/
  | function
  /-- A class, or another type definition. -/
  | type
  /-- Code outside of all definitions. -/
  | moduleBlock
  deriving DecidableEq, Repr, Inhabited

namespace ChunkKind

/-- The name of a kind, as it is stored. -/
def name : ChunkKind → String
  | .function => "function"
  | .type => "class"
  | .moduleBlock => "module-level-block"

/-- The kind that is stored under a name. -/
def ofName? (name : String) : Option ChunkKind :=
  [.function, .type, .moduleBlock].find? (·.name == name)

end ChunkKind

/-- The range of a definition in a file; offsets count characters, lines count from zero. -/
structure Span where
  /-- The name of the definition, after the names of those around it. -/
  name : String
  /-- What it defines. -/
  kind : ChunkKind
  /-- The offset of its first character. -/
  start : Nat
  /-- The offset after its last character. -/
  stop : Nat
  /-- The line it starts on. -/
  line : Nat
  deriving DecidableEq, Repr, Inhabited

/-- A named piece of a source file. -/
structure Chunk where
  /-- The path of the file, a colon and the name. -/
  id : String
  /-- The name of the definition, after the names of those around it. -/
  name : String
  /-- The text of the piece. -/
  text : String
  /-- The line of the file that the text starts on, counted from zero. -/
  startLine : Nat
  /-- What it was cut from. -/
  kind : ChunkKind
  deriving DecidableEq, Repr, Inhabited

namespace Chunk

/-- The chunk with the given name in the file at `path`. -/
def ofFile (path name text : String) (startLine : Nat) (kind : ChunkKind) : Chunk :=
  { id := path ++ ":" ++ name, name, text, startLine, kind }

/-- The number of lines of the text. -/
def lineCount (chunk : Chunk) : Nat :=
  chunk.text.toList.count '\n' + 1

/-- The line of the file that the text ends on. -/
def endLine (chunk : Chunk) : Nat :=
  chunk.startLine + chunk.lineCount - 1

/-- The number of characters of the text. -/
def size (chunk : Chunk) : Nat :=
  chunk.text.toList.length

/-- Whether a part of the line belongs to the chunk. -/
def containsLine (chunk : Chunk) (line : Nat) : Bool :=
  chunk.startLine ≤ line && line ≤ chunk.endLine

end Chunk

/-- The id without the number of a part, which is a last number sign followed by digits only. -/
def parentId (id : String) : String :=
  let reversed := id.toList.reverse
  let digits := reversed.takeWhile (· != '#')
  match reversed.drop digits.length with
  | '#' :: rest =>
    if !digits.isEmpty && digits.all Char.isDigit then String.ofList rest.reverse else id
  | _ => id

end Scrutiny
