import Scrutiny.Chunk.Basic
import Scrutiny.Language
import Scrutiny.Text.Lines

/-!
# From spans to chunks

Spans are put in order, those that overlap an earlier one are left out, runs of lines
between them that hold code become spans too, and every span becomes the chunk of its
text.  A name that occurs again gets a number.
-/

namespace Scrutiny.Assembly

open Text

/-- Whether the first span comes before the second, or at the same place and is no longer. -/
def spanBefore (a b : Span) : Bool :=
  a.start < b.start || (a.start == b.start && a.stop ≤ b.stop)

/-- The spans that are not empty and do not start before `stop`, the end of the last one. -/
def apart (stop : Nat) : List Span → List Span
  | [] => []
  | span :: rest =>
    if span.start < stop || span.stop ≤ span.start then apart stop rest
    else span :: apart span.stop rest

/-- The first and the last line that a span takes part of. -/
def lineRange (index : LineIndex) (span : Span) : Nat × Nat :=
  (index.lineOf span.start, index.lineOf (max (span.stop - 1) span.start))

/-- The lines that belong to none of the spans. -/
def uncoveredLines (index : LineIndex) (spans : List Span) : List Nat :=
  let ranges := spans.map (lineRange index)
  (List.range index.lineCount).filter fun line =>
    !ranges.any fun (first, last) => first ≤ line && line ≤ last

/-- The maximal runs of consecutive numbers in an increasing list, as first and last. -/
def runs : List Nat → List (Nat × Nat)
  | [] => []
  | n :: rest =>
    match runs rest with
    | [] => [(n, n)]
    | (first, last) :: later =>
      if first == n + 1 then (n, last) :: later else (n, n) :: (first, last) :: later

/-- Whether a text starts with the given characters. -/
def startsWith (text : List Char) (mark : String) : Bool :=
  mark.toList.isPrefixOf text

/-- Closing brackets and the signs that may follow them. -/
def isCloser (c : Char) : Bool :=
  c == '\x7d' || c == ')' || c == ']' || c == ';' || c == ','

/-- Whether a line holds code of its own: it is not indented, and it is more than a comment, the
name of another file or closing brackets. -/
def isSignificant (language : Language) (line : List Char) : Bool :=
  let trimmed := trim line
  indentWidth line == 0
    && !trimmed.isEmpty
    && !language.commentMarks.any (startsWith trimmed)
    && !language.importMarks.any (startsWith trimmed)
    && !trimmed.all isCloser

/-- The name of code outside of all definitions. -/
def moduleName : String := "<module>"

/-- The span of the lines from `first` to `last` without the blank ones at its ends, if one of
them holds code of its own. -/
def moduleSpan? (index : LineIndex) (language : Language) (first last : Nat) : Option Span :=
  let lines := (List.range (last + 1 - first)).map (first + ·)
  let isFull (line : Nat) := !isBlankText (index.line line)
  (lines.find? isFull).bind fun first => (lines.reverse.find? isFull).bind fun last =>
    if lines.any fun line => first ≤ line && line ≤ last && isSignificant language (index.line line)
    then
      some { name := moduleName, kind := .moduleBlock, start := index.lineStart first,
             stop := index.lineEnd last, line := first }
    else none

/-- The spans of the code outside of the given ones. -/
def moduleSpans (index : LineIndex) (language : Language) (spans : List Span) : List Span :=
  (runs (uncoveredLines index spans)).filterMap fun (first, last) =>
    moduleSpan? index language first last

/-- The name of the next chunk after chunks that were to have the names `seen`. -/
def uniqueName (seen : List String) (name : String) : String :=
  let earlier := seen.count name
  if earlier == 0 then name else name ++ "~" ++ toString (earlier + 1)

/-- The chunks of the spans, after chunks that were to have the names `seen`. -/
def cut (index : LineIndex) (path : String) (seen : List String) : List Span → List Chunk
  | [] => []
  | span :: rest =>
    Chunk.ofFile path (uniqueName seen span.name)
        (String.ofList (index.slice span.start span.stop)) span.line span.kind
      :: cut index path (span.name :: seen) rest

/-- The spans that become chunks, in order. -/
def select (index : LineIndex) (language : Language) (withModule : Bool) (spans : List Span) :
    List Span :=
  let kept := apart 0 (spans.mergeSort spanBefore)
  if withModule then
    (kept ++ moduleSpans index language kept).mergeSort fun a b => a.start ≤ b.start
  else kept

/-- The chunks of a text with the given definition spans. -/
def chunks (index : LineIndex) (language : Language) (withModule : Bool) (path : String)
    (spans : List Span) : List Chunk :=
  cut index path [] (select index language withModule spans)

end Scrutiny.Assembly
