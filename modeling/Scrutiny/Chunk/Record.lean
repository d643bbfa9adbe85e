import Scrutiny.Chunk.Chunker
import Scrutiny.Json.Value

/-!
# Chunks as JSON

How chunks, their kinds and the settings of the chunker are written as JSON values, and read
from them.
-/

namespace Scrutiny

namespace ChunkKind

/-- The kind as a JSON value. -/
def toJson (kind : ChunkKind) : Json := .string kind.name

/-- The kind that a JSON value stands for. -/
def ofJson? (json : Json) : Option ChunkKind :=
  json.variant?.bind ofName?

end ChunkKind

namespace Chunk

/-- The chunk as a JSON value. -/
def toJson (chunk : Chunk) : Json :=
  .object [("chunk_id", .string chunk.id), ("qualified_name", .string chunk.name),
    ("source_text", .string chunk.text), ("start_line", Json.nat chunk.startLine),
    ("kind", chunk.kind.toJson)]

/-- The chunk that a JSON value stands for. -/
def ofJson? (json : Json) : Option Chunk := do
  match ← json.parts? ["chunk_id", "qualified_name", "source_text", "start_line", "kind"] with
  | [id, name, text, line, kind] =>
    return { id := ← id.bind Json.string?
             name := ← name.bind Json.string?
             text := ← text.bind Json.string?
             startLine := ← line.bind (Json.unsigned? 64)
             kind := ← kind.bind ChunkKind.ofJson? }
  | _ => none

end Chunk

namespace ChunkConfig

/-- The settings as a JSON value. -/
def toJson (config : ChunkConfig) : Json :=
  .object [("max_chunk_chars", Json.nat config.maxChars),
    ("emit_module_block", .bool config.moduleBlocks)]

/-- The settings that a JSON value stands for. -/
def ofJson? (json : Json) : Option ChunkConfig := do
  match ← json.parts? ["max_chunk_chars", "emit_module_block"] with
  | [maxChars, blocks] =>
    return { maxChars := ← maxChars.bind (Json.unsigned? 64)
             moduleBlocks := ← blocks.bind Json.bool? }
  | _ => none

end ChunkConfig

end Scrutiny
