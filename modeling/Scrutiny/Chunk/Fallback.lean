import Scrutiny.Chunk.Basic
import Scrutiny.Chunk.Definitions
import Scrutiny.Language
import Scrutiny.Text.Letter
import Scrutiny.Text.Lines

/-!
# Definitions by lines

A text that cannot be read with a grammar is cut by its lines: into units, which go by the indentation
or by the braces of the language.
-/

namespace Scrutiny.Fallback

open Text

/-!
## Units of lines

A definition that was found by looking at lines only: a name and a range of whole lines.
-/

/-- A definition that covers the lines `first`, …, `last`. -/
structure LineUnit where
  /-- The name of the definition, after the names of those around it. -/
  name : String
  /-- What it defines. -/
  kind : ChunkKind
  /-- Its first line. -/
  first : Nat
  /-- Its last line. -/
  last : Nat
  deriving DecidableEq, Repr, Inhabited

/-- The span of the lines of a unit. -/
def LineUnit.span (index : LineIndex) (unit : LineUnit) : Span :=
  { name := unit.name, kind := unit.kind, start := index.lineStart unit.first,
    stop := index.lineEnd unit.last, line := unit.first }

/-!
## Units by indentation

Functions and classes of a text whose blocks are marked by indentation, found without
reading it as a whole.  A scope reaches from its header to the last line of code before
the next one that is not indented deeper.  A function is one unit; a class ends before
the first header inside it, and that header is a unit of its own unless it stands inside
a function.
-/

/-- The text after `mark` if it starts with it. -/
def after? : (mark text : List Char) → Option (List Char)
  | [], text => some text
  | m :: mark, c :: text => if m == c then after? mark text else none
  | _ :: _, [] => none

/-- The kind and the name of the definition that a line starts, if it starts one. -/
def header? (line : List Char) : Option (ChunkKind × String) :=
  let trimmed := trimStart line
  let rest :=
    match after? "async ".toList trimmed with
    | some later => trimStart later
    | none => trimmed
  let found : Option (ChunkKind × List Char) :=
    match after? "def ".toList rest with
    | some later => some (.function, later)
    | none => (after? "class ".toList rest).map fun later => (.type, later)
  found.bind fun (kind, later) =>
    let name := (trimStart later).takeWhile fun c => isAlphanumeric c || c == '_'
    if name.isEmpty then none else some (kind, String.ofList name)

/-- Whether a line holds code: it is not blank and not only a comment. -/
def isCode (line : List Char) : Bool :=
  match trim line with
  | [] => false
  | c :: _ => c != '#'

/-- A scope that is not closed yet. -/
structure OpenScope where
  /-- The indentation of its header. -/
  indent : Nat
  /-- Its name, after the names of those around it. -/
  name : String
  /-- What it defines. -/
  kind : ChunkKind
  /-- The line of its header. -/
  first : Nat
  /-- Whether a header inside it has already ended its unit. -/
  emitted : Bool
  deriving DecidableEq, Repr, Inhabited

/-- The unit of a scope that ends with the line `last`, unless it has ended before. -/
def OpenScope.close (scope : OpenScope) (last : Nat) : List LineUnit :=
  if scope.kind == .function || !scope.emitted then
    [{ name := scope.name, kind := scope.kind, first := scope.first, last := max last scope.first }]
  else []

/-- What is known after some lines. -/
structure IndentState where
  /-- The open scopes, the innermost first. -/
  scopes : List OpenScope
  /-- The units found so far. -/
  units : List LineUnit
  /-- The last line of code so far. -/
  lastCode : Nat
  deriving DecidableEq, Repr, Inhabited

namespace IndentState

/-- Closes the scopes whose header is indented at least as deep as `indent`. -/
def closeDeeper (lastCode indent : Nat) :
    List OpenScope → List LineUnit → List OpenScope × List LineUnit
  | [], units => ([], units)
  | scope :: scopes, units =>
    if indent ≤ scope.indent then closeDeeper lastCode indent scopes (units ++ scope.close lastCode)
    else (scope :: scopes, units)

/-- Opens the scope of a header, unless it stands inside a function. -/
def openScope (state : IndentState) (line indent : Nat) (kind : ChunkKind) (name : String) :
    IndentState :=
  match state.scopes with
  | [] =>
    { state with scopes := [{ indent, name, kind, first := line, emitted := false }] }
  | parent :: outer =>
    if parent.kind == .function then state
    else
      let unit : LineUnit :=
        { name := parent.name, kind := .type, first := parent.first, last := state.lastCode }
      let inner : OpenScope :=
        { indent, name := parent.name ++ "." ++ name, kind, first := line, emitted := false }
      { state with
        scopes := inner :: { parent with emitted := true } :: outer
        units := if parent.emitted then state.units else state.units ++ [unit] }

/-- Reads one line. -/
def step (state : IndentState) (number : Nat) (line : List Char) : IndentState :=
  if isCode line then
    let indent := indentWidth line
    let (scopes, units) := closeDeeper state.lastCode indent state.scopes state.units
    let closed : IndentState := { state with scopes, units }
    let opened :=
      match header? line with
      | some (kind, name) => closed.openScope number indent kind name
      | none => closed
    { opened with lastCode := number }
  else state

end IndentState

/-- The units of the lines of a text, in the order in which they end. -/
def indentationUnits (index : LineIndex) : List LineUnit :=
  let start : IndentState := { scopes := [], units := [], lastCode := 0 }
  let state := (List.range index.lineCount).foldl (fun s n => s.step n (index.line n)) start
  state.scopes.foldl (fun units scope => units ++ scope.close state.lastCode) state.units

/-!
## Lines that declare

Which definition a line starts in a language with braces, judged by that line alone.
-/

/-- A step over the start of a text: what is left after it. -/
abbrev Step := List Char → Option (List Char)

namespace Step

/-- Steps over blanks. -/
def blanks : Step := fun text => some (text.dropWhile isBlank)

/-- Steps over at least one blank. -/
def someBlanks : Step
  | [] => none
  | c :: text => if isBlank c then some (text.dropWhile isBlank) else none

/-- Steps over the given characters. -/
def word (mark : String) : Step := after? mark.toList

/-- One step after the other. -/
def andThen (first second : Step) : Step := fun text => (first text).bind second

/-- The first step, or the second where the first is impossible. -/
def orElse (first second : Step) : Step := fun text => (first text).or (second text)

/-- The step, or none. -/
def optional (step : Step) : Step := fun text => some ((step text).getD text)

/-- The given characters and at least one blank, or nothing. -/
def optionalWord (mark : String) : Step := optional (andThen (word mark) someBlanks)

/-- The text between two characters, both included. -/
def enclosed (first last : Char) : Step
  | [] => none
  | c :: text =>
    if c == first then
      match text.dropWhile (· != last) with
      | _ :: rest => some rest
      | [] => none
    else none

/-- Succeeds where no word character follows. -/
def boundary : Step
  | [] => some []
  | c :: text => if isWordCharacter c then none else some (c :: text)

end Step

/-- Whether a character may start a name. -/
def startsName (dollar : Bool) (c : Char) : Bool :=
  c.isAlpha || c == '_' || (dollar && c == '$')

/-- The name at the start of a text, and what is left after it. -/
def name? (dollar : Bool) (also : Char) : List Char → Option (List Char × List Char)
  | [] => none
  | c :: text =>
    if startsName dollar c then
      let continues (d : Char) := isWordCharacter d || d == also
      some (c :: text.takeWhile continues, text.dropWhile continues)
    else none

/-- Steps over a type after a colon, up to the next equals sign. -/
def typeAnnotation : Step
  | ':' :: text =>
    match text with
    | c :: _ => if c == '=' then none else some (text.dropWhile (· != '='))
    | [] => none
  | _ => none

/-- Whether a function follows: the word for it, or parameters and an arrow. -/
def functionValue : Step :=
  let arrow := Step.word "=>"
  let parameters := Step.andThen (Step.enclosed '(' ')') <| Step.andThen Step.blanks <|
    Step.orElse (Step.andThen typeAnnotation arrow) arrow
  let parameter : Step := fun text => (name? true '$' text).bind fun (_, rest) =>
    Step.andThen Step.blanks arrow rest
  Step.orElse (Step.andThen (Step.word "function") Step.boundary) (Step.orElse parameters parameter)

/-- The variable that a line binds to a function. -/
def functionBinding? (line : List Char) : Option String :=
  let binder := Step.orElse (Step.word "const") (Step.orElse (Step.word "let") (Step.word "var"))
  let start := Step.andThen Step.blanks <| Step.andThen (Step.optionalWord "export") <|
    Step.andThen binder Step.someBlanks
  (start line).bind fun text => (name? true '$' text).bind fun (name, rest) =>
    let equals := Step.andThen Step.blanks <|
      Step.andThen (Step.optional typeAnnotation) <| Step.andThen (Step.word "=") Step.blanks
    (equals rest).bind fun value =>
      let asyncValue := Step.andThen (Step.word "async") (Step.andThen Step.someBlanks functionValue)
      (Step.orElse asyncValue functionValue value).map fun _ => String.ofList name

/-- The definition that a line starts in a dialect of JavaScript. -/
def scriptDeclaration? (line : List Char) : Option (ChunkKind × String) :=
  match functionBinding? line with
  | some name => some (.function, name)
  | none =>
    let start := ["export", "default", "declare", "abstract", "async"].foldl
      (fun step mark => Step.andThen step (Step.optionalWord mark)) Step.blanks
    let defining (mark : String) (kind : ChunkKind) (rest : List Char) :=
      (Step.word mark rest).map fun later => (kind, later)
    (start line).bind fun rest =>
      let found :=
        (defining "function*" .function rest).or <| (defining "function" .function rest).or <|
          (defining "class" .type rest).or <| (defining "interface" .type rest).or <|
          defining "enum" .type rest
      found.map fun (kind, later) =>
        match name? true '$' (later.dropWhile isBlank) with
        | some (name, _) => (kind, String.ofList name)
        | none => (kind, "default")

/-- Steps over the words in front of the one that tells what is defined. -/
def rustModifiers : (fuel : Nat) → List Char → List Char
  | 0, text => text
  | fuel + 1, text =>
    let quoted := Step.optional (Step.andThen Step.someBlanks (Step.enclosed '"' '"'))
    let modifier := Step.orElse (Step.word "async") <| Step.orElse (Step.word "unsafe") <|
      Step.orElse (Step.word "const") <| Step.orElse (Step.word "default") <|
      Step.andThen (Step.word "extern") quoted
    match Step.andThen modifier Step.someBlanks text with
    | some rest => rustModifiers fuel rest
    | none => text

/-- The text after the first `mark`. -/
def afterFirst? (mark : List Char) : List Char → Option (List Char)
  | [] => if mark.isEmpty then some [] else none
  | c :: text =>
    match after? mark (c :: text) with
    | some rest => some rest
    | none => afterFirst? mark text

/-- The definition that a line starts in Rust. -/
def rustDeclaration? (line : List Char) : Option (ChunkKind × String) :=
  let visibility := Step.optional <| Step.andThen (Step.word "pub") <|
    Step.andThen (Step.optional (Step.enclosed '(' ')')) Step.someBlanks
  (Step.andThen Step.blanks visibility line).bind fun visible =>
    let rest := rustModifiers line.length visible
    let found := ["fn", "struct", "enum", "trait", "union", "impl", "mod"].findSome? fun mark =>
      (Step.andThen (Step.word mark) Step.boundary rest).map fun later => (mark, later)
    found.bind fun (mark, later) =>
      let kind := if mark == "fn" then ChunkKind.function else ChunkKind.type
      let own : Option (List Char) :=
        let parameters := Step.optional (Step.andThen (Step.enclosed '<' '>') Step.blanks)
        (Step.andThen Step.blanks parameters later).bind fun text =>
          (name? false ':' text).map (·.1)
      let isPathChar (c : Char) := isAlphanumeric c || c == '_' || c == ':'
      let name : Option (List Char) :=
        match if mark == "impl" then afterFirst? " for ".toList line else none with
        | some target =>
          let path := (target.dropWhile (!isPathChar ·)).takeWhile isPathChar
          if path.isEmpty then none else some path
        | none => own
      name.map fun path => (kind, String.ofList (Definitions.lastSegment path))

/-- The definition that a line starts in a language with braces. -/
def declaration? (language : Language) (line : List Char) : Option (ChunkKind × String) :=
  if language == .rust then rustDeclaration? line else scriptDeclaration? line

/-!
## Units by braces

Definitions of a text whose blocks are marked by braces, found without reading it as a
whole.  A line that declares something opens a unit while no brace is open; the unit ends
with the line on which the last of its braces is closed, or, if no brace was opened, with
the first line that needs no continuation.
-/

/-- What a line leaves open for the next one. -/
structure LexState where
  /-- Whether a block comment is open. -/
  comment : Bool
  /-- The quotation mark of the string that is open. -/
  quote : Option Char
  deriving DecidableEq, Repr, Inhabited

/-- The effect of a line on the braces. -/
structure LineScan where
  /-- The braces opened less the braces closed. -/
  delta : Int
  /-- Whether a brace was opened. -/
  opened : Bool
  /-- Whether a statement ended. -/
  terminated : Bool
  deriving DecidableEq, Repr, Inhabited

/-- How far the reading of a line has come. -/
structure CharState where
  /-- What is open. -/
  lex : LexState
  /-- The effect so far. -/
  scan : LineScan
  /-- Whether the next character belongs to the last one. -/
  skip : Bool
  /-- Whether the rest of the line is a comment. -/
  done : Bool
  deriving DecidableEq, Repr, Inhabited

/-- Reads the character `c`, after which `next` follows.  Braces count outside of comments and
strings only; `apostrophes` tells whether an apostrophe starts a string. -/
def CharState.step (apostrophes : Bool) (state : CharState) (c : Char) (next : Option Char) :
    CharState :=
  if state.done then state
  else if state.skip then { state with skip := false }
  else if state.lex.comment then
    if c == '*' && next == some '/' then
      { state with lex := { state.lex with comment := false }, skip := true }
    else state
  else
    match state.lex.quote with
    | some mark =>
      if c == '\\' then { state with skip := true }
      else if c == mark then { state with lex := { state.lex with quote := none } }
      else state
    | none =>
      if c == '/' && next == some '/' then { state with done := true }
      else if c == '/' && next == some '*' then
        { state with lex := { state.lex with comment := true }, skip := true }
      else if c == '"' || c == '\x60' || (c == '\'' && apostrophes) then
        { state with lex := { state.lex with quote := some c } }
      else if c == '\x7b' then
        { state with scan := { state.scan with delta := state.scan.delta + 1, opened := true } }
      else if c == '\x7d' then
        { state with scan := { state.scan with delta := state.scan.delta - 1 } }
      else if c == ';' then { state with scan := { state.scan with terminated := true } }
      else state

/-- Reads the characters of a line. -/
def scanChars (apostrophes : Bool) : List Char → CharState → CharState
  | [], state => state
  | c :: rest, state => scanChars apostrophes rest (state.step apostrophes c rest.head?)

/-- Reads a line; of the strings only templates go on in the next one. -/
def scanLine (apostrophes : Bool) (state : LexState) (line : List Char) : LexState × LineScan :=
  let start : CharState :=
    { lex := state, scan := { delta := 0, opened := false, terminated := false }, skip := false,
      done := false }
  let after := scanChars apostrophes line start
  let quote := if after.lex.quote == some '\x60' then after.lex.quote else none
  ({ after.lex with quote }, after.scan)

/-- Whether a text ends with the given characters. -/
def endsWith (text mark : List Char) : Bool :=
  (after? mark.reverse text.reverse).isSome

/-- Whether the next line still belongs to what a line declares. -/
def continuesOnNextLine (line : List Char) : Bool :=
  let trimmed := trimEnd line
  trimmed.isEmpty
    || ["(", ",", "=>", "=", "<", ":", "|", "&", "+", "extends", "implements"].any
        (fun mark => endsWith trimmed mark.toList)
    || trimmed.count ')' < trimmed.count '('

/-- A unit that is not closed yet. -/
structure Pending where
  /-- Its name. -/
  name : String
  /-- What it defines. -/
  kind : ChunkKind
  /-- The line that declares it. -/
  first : Nat
  /-- Whether one of its braces was opened. -/
  opened : Bool
  deriving DecidableEq, Repr, Inhabited

/-- The unit up to the line `last`. -/
def Pending.unit (pending : Pending) (last : Nat) : LineUnit :=
  { name := pending.name, kind := pending.kind, first := pending.first, last }

/-- What is known after some lines. -/
structure BraceState where
  /-- The number of open braces. -/
  depth : Int
  /-- What the last line left open. -/
  lex : LexState
  /-- The unit that is being read. -/
  current : Option Pending
  /-- The units found so far. -/
  units : List LineUnit
  deriving DecidableEq, Repr, Inhabited

/-- Reads one line. -/
def BraceState.step (language : Language) (state : BraceState) (number : Nat) (line : List Char) :
    BraceState :=
  let current :=
    if state.depth == 0 && state.current.isNone && !state.lex.comment && state.lex.quote.isNone then
      (declaration? language line).map fun (kind, name) =>
        { name, kind, first := number, opened := false }
    else state.current
  let (lex, scan) := scanLine (language != .rust) state.lex line
  let depth := max (state.depth + scan.delta) 0
  match current with
  | none => { state with depth, lex, current := none }
  | some pending =>
    let opened := pending.opened || scan.opened
    let finished :=
      if opened then depth == 0
      else depth == 0 && (scan.terminated || !continuesOnNextLine line)
    if finished then
      { depth, lex, current := none, units := state.units ++ [pending.unit number] }
    else { depth, lex, current := some { pending with opened }, units := state.units }

/-- The last line that is not blank, or `default` where all are. -/
def lastNonBlank (index : LineIndex) (default : Nat) : Nat :=
  ((List.range index.lineCount).reverse.find? fun n => !isBlankText (index.line n)).getD default

/-- The units of the lines of a text, in order. -/
def braceUnits (index : LineIndex) (language : Language) : List LineUnit :=
  let start : BraceState :=
    { depth := 0, lex := { comment := false, quote := none }, current := none, units := [] }
  let state :=
    (List.range index.lineCount).foldl (fun s n => s.step language n (index.line n)) start
  match state.current with
  | none => state.units
  | some pending =>
    state.units ++ [pending.unit (max (lastNonBlank index pending.first) pending.first)]

/-!
## Definitions without a syntax tree

The spans that stand in for those of the tree where a text cannot be read as a whole.
-/

/-- The units of a text in the given language, ordered by their first lines. -/
def units (index : LineIndex) (language : Language) : List LineUnit :=
  let found := if language.usesIndentation then indentationUnits index else braceUnits index language
  found.mergeSort fun a b => a.first ≤ b.first

/-- The spans of the units of a text. -/
def spans (index : LineIndex) (language : Language) : List Span :=
  (units index language).map (·.span index)

end Scrutiny.Fallback
