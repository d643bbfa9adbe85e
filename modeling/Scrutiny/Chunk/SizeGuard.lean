import Scrutiny.Chunk.Basic
import Scrutiny.Text.Cluster
import Scrutiny.Text.Lines

/-!
# The size guard

A chunk with more characters than the ceiling is cut into parts that are not larger.  It is
cut between lines, if possible after a line that ends a statement and not before the middle
of what fits.  A line that is too long by itself is cut between clusters of characters, and
a cluster that is too long by itself between its characters.
-/

namespace Scrutiny.SizeGuard

open Text

/-- A part of a text: the line it starts on, counted from the first line, and its characters. -/
structure Part where
  /-- The number of lines of the text before the line that the part starts on. -/
  line : Nat
  /-- The characters of the part. -/
  chars : List Char
  deriving DecidableEq, Repr, Inhabited

/-- Whether a line ends with something that the next line belongs to. -/
def opensBlock (line : List Char) : Bool :=
  match (trimEnd line).getLast? with
  | some c => [':', '\x7b', '(', '[', ',', '\\', '='].contains c
  | none => false

/-- Whether a statement ends with a line that is followed by `next`. -/
def isBoundary (line : List Char) (next : Option (List Char)) : Bool :=
  match (trimEnd line).getLast? with
  | none => true
  | some c =>
    if c == ';' || c == '\x7d' then true
    else
      match next with
      | some following =>
        if isBlankText following then !opensBlock line
        else !opensBlock line && indentWidth following ≤ indentWidth line
      | none => !opensBlock line

/-- The number of lines that fit after `used` characters, with a line feed before each. -/
def fitting (ceiling used : Nat) : List (List Char) → Nat
  | [] => 0
  | line :: rest =>
    if used + 1 + line.length ≤ ceiling then 1 + fitting ceiling (used + 1 + line.length) rest else 0

/-- The last of the first `count` lines that ends a statement. -/
def lastBoundary? (lines : List (List Char)) (count : Nat) : Option Nat :=
  (List.range count).reverse.find? fun i =>
    match lines[i]? with
    | some line => isBoundary line lines[i + 1]?
    | none => false

/-- The number of lines of the next part: all that fit if nothing is left then; else up to a
line that ends a statement and is not before the middle of those that fit; else all that fit. -/
def partSize (ceiling : Nat) (first : List Char) (rest : List (List Char)) : Nat :=
  let count := 1 + fitting ceiling first.length rest
  if count == 1 + rest.length then count
  else
    match lastBoundary? (first :: rest) count with
    | some boundary => if (count - 1) / 2 ≤ boundary then boundary + 1 else count
    | none => count

/-- The clusters of a line, as `clustersOf` finds them; those that are too long are cut into
characters. -/
def units (clustersOf : List Char → List (List Char)) (ceiling : Nat) (line : List Char) :
    List (List Char) :=
  (clustersOf line).flatMap fun cluster =>
    if ceiling < cluster.length then cluster.map ([·]) else [cluster]

/-- Packs pieces into as few runs as possible, none of them longer than the ceiling if no piece
is; `current` is the run that is being filled. -/
def pack (ceiling : Nat) (current : List Char) : List (List Char) → List (List Char)
  | [] => if current.isEmpty then [] else [current]
  | piece :: rest =>
    if ceiling < current.length + piece.length && !current.isEmpty then
      current :: pack ceiling piece rest
    else pack ceiling (current ++ piece) rest

/-- The pieces of a line that is too long. -/
def splitLine (clustersOf : List Char → List (List Char)) (ceiling : Nat) (line : List Char) :
    List (List Char) :=
  pack ceiling [] (units clustersOf ceiling line)

/-- The number of lines of the next part is not zero. -/
theorem partSize_pos (ceiling : Nat) (first : List Char) (rest : List (List Char)) :
  0 < partSize ceiling first rest
  := by
  unfold partSize
  dsimp only
  split
  · omega
  · split
    · split <;> omega
    · omega

/-- The parts of the lines of a text, the first of which has the number `line`. -/
def split (clustersOf : List Char → List (List Char)) (ceiling : Nat) (line : Nat) :
    List (List Char) → List Part
  | [] => []
  | first :: rest =>
    if ceiling < first.length then
      (splitLine clustersOf ceiling first).map (fun chars => { line, chars })
        ++ split clustersOf ceiling (line + 1) rest
    else
      let size := partSize ceiling first rest
      { line, chars := joinWith ['\n'] ((first :: rest).take size) }
        :: split clustersOf ceiling (line + size) ((first :: rest).drop size)
termination_by lines => lines.length
decreasing_by
  · simp
  · have := partSize_pos ceiling first rest
    simp only [List.length_drop, List.length_cons]
    omega

/-- The ceiling that is applied: at least one character. -/
def ceilingOf (maxChars : Nat) : Nat := max maxChars 1

/-- The `n`-th part of a chunk. -/
def part (chunk : Chunk) (n : Nat) (p : Part) : Chunk :=
  { id := chunk.id ++ "#" ++ toString n
    name := chunk.name ++ "#" ++ toString n
    text := String.ofList p.chars
    startLine := chunk.startLine + p.line
    kind := chunk.kind }

/-- The parts of a chunk, numbered from `n` on. -/
def numbered (chunk : Chunk) (n : Nat) : List Part → List Chunk
  | [] => []
  | p :: rest => part chunk n p :: numbered chunk (n + 1) rest

/-- The chunk itself if it is not too large, else its parts, where lines are cut between the
clusters that `clustersOf` finds. -/
def guardBy (clustersOf : List Char → List (List Char)) (maxChars : Nat) (chunk : Chunk) :
    List Chunk :=
  let ceiling := ceilingOf maxChars
  if chunk.size ≤ ceiling then [chunk]
  else
    let parts := split clustersOf ceiling 0 (splitAt '\n' chunk.text.toList)
    if parts.length ≤ 1 then [chunk] else numbered chunk 1 parts

/-- The chunk itself if it is not too large, else its parts. -/
def guard (maxChars : Nat) (chunk : Chunk) : List Chunk :=
  guardBy Cluster.clusters maxChars chunk

/-- The guard applied to every chunk, in order. -/
def guardAll (maxChars : Nat) (chunks : List Chunk) : List Chunk :=
  chunks.flatMap (guard maxChars)

end Scrutiny.SizeGuard
