import Scrutiny.Files.Tree
import Scrutiny.Text.Lines
import Scrutiny.Text.Letter
import Scrutiny.Total

/-!
# Environments and failures

Files with the values of variables, and how a failure to use them is told.
-/

namespace Scrutiny

open Text

/-!
## Failures

What a command says when it fails: a message, and the causes behind it, each the cause of the
one before.
-/

/-- A failure. -/
structure Failure where
  /-- What failed. -/
  message : String
  /-- Why, from the nearest cause on. -/
  causes : List String
  deriving DecidableEq, Repr, Inhabited

namespace Failure

/-- The failure with something that failed because of it. -/
def under (failure : Failure) (message : String) : Failure :=
  { message, causes := failure.message :: failure.causes }

/-- The failure in one line. -/
def line (failure : Failure) : String :=
  ": ".intercalate (failure.message :: failure.causes)

/-- A text with something in front of its first line and as many blanks in front of the others. -/
def indented (first rest : String) (text : String) : String :=
  match (splitAt '\n' text.toList).map String.ofList with
  | [] => first
  | head :: tail => "\n".intercalate ((first ++ head) :: tail.map (rest ++ ·))

/-- A number to the right of a column of five characters. -/
def numberColumn (n : Nat) : String :=
  let digits := toString n
  String.ofList (List.replicate (5 - digits.length) ' ') ++ digits ++ ": "

/-- The failure with its causes below it. -/
def report (failure : Failure) : String :=
  let listed := match failure.causes with
    | [] => ""
    | [cause] => "\n\nCaused by:\n" ++ indented "    " "    " cause
    | causes => "\n\nCaused by:\n" ++ "\n".intercalate (causes.zipIdx.map fun (cause, i) =>
        indented (numberColumn i) "       " cause)
  failure.message ++ listed

end Failure

/-!
## Environments

The variables of a process, and files that set further ones.  Each line of such a file gives a
variable its value: bare, between apostrophes, where nothing has a meaning, or between quotes.
`$NAME` stands for the value of a variable, a backslash takes away the meaning of the next
character, and `#` after a blank starts a comment.  Values between quotes may go on over several
lines.  Variables that are set already keep their values.
-/

/-- The variables of a process. -/
structure Environment where
  /-- The names with their values. -/
  values : List (String × String)
  deriving DecidableEq, Repr, Inhabited

namespace Environment

/-- The value of a variable. -/
def get? (environment : Environment) (name : String) : Option String :=
  (environment.values.find? (·.1 == name)).map (·.2)

/-- Sets a variable unless it is set already. -/
def setIfMissing (environment : Environment) (name value : String) : Environment :=
  match environment.get? name with
  | some _ => environment
  | none => { values := environment.values ++ [(name, value)] }

/-! ### Reading one line -/

/-- Why a file with variables cannot be read. -/
inductive LoadError where
  /-- A line is not understood at some place. -/
  | line (text : String) (index : Nat)
  /-- The file cannot be read. -/
  | files (cause : FileError)
  deriving DecidableEq, Repr, Inhabited

/-- The wording of an error. -/
def LoadError.message : LoadError → String
  | .line text index =>
    "Error parsing line: '" ++ text ++ "', error at line index: " ++ toString index
  | .files cause => cause.message

/-- The number of bytes of a text. -/
def byteLength (text : List Char) : Nat :=
  total Char.utf8Size text

/-- The values that the lines so far have given to names; an empty one counts as none. -/
abbrev Given := List (String × Option String)

/-- The value that a name stands for. -/
def substitute (environment : Environment) (given : Given) (name : List Char) : List Char :=
  let name := String.ofList name
  match environment.get? name with
  | some value => value.toList
  | none => (((given.find? (·.1 == name)).bind (·.2)).getD "").toList

/-- Where in a value the next character stands. -/
inductive Place where
  /-- Outside of quotes. -/
  | bare
  /-- After the end; only a comment may follow. -/
  | ended
  /-- Between apostrophes. -/
  | strong
  /-- Between quotes. -/
  | weak
  deriving DecidableEq, Repr, Inhabited

/-- Whether a name is being read. -/
inductive Naming where
  /-- No name is being read. -/
  | none
  /-- A name after a dollar sign. -/
  | plain
  /-- A name between braces. -/
  | braced
  deriving DecidableEq, Repr, Inhabited

/-- What was read of a value. -/
structure ValueState where
  /-- Where the next character stands. -/
  place : Place
  /-- Whether the next character has lost its meaning. -/
  escaped : Bool
  /-- Whether a name is being read. -/
  naming : Naming
  /-- The characters of that name, the last one first. -/
  name : List Char
  /-- The value so far, the last character first. -/
  output : List Char
  deriving DecidableEq, Repr, Inhabited

namespace ValueState

/-- Adds a character to the value. -/
def put (state : ValueState) (c : Char) : ValueState :=
  { state with output := c :: state.output }

/-- Ends a name and adds its value. -/
def endName (environment : Environment) (given : Given) (state : ValueState) : ValueState :=
  let value := substitute environment given state.name.reverse
  { state with naming := .none, name := [], output := value.reverse ++ state.output }

/-- Reads a character of a name that is no letter and no digit. -/
def inName (environment : Environment) (given : Given) (state : ValueState) (c : Char) : ValueState :=
  if state.naming == .braced then
    if c == '\x7d' then state.endName environment given else { state with name := c :: state.name }
  else if c == '\x7b' && state.name.isEmpty then { state with naming := .braced }
  else
    let ended := state.endName environment given
    if c == '$' then { ended with naming := .plain } else ended.put c

/-- Reads one character; nothing is left to read after the start of a comment. -/
def step (environment : Environment) (given : Given) (state : ValueState) (c : Char) :
    Option (Option ValueState) :=
  if state.place == .ended then
    if c == ' ' || c == '\t' then some (some state)
    else if c == '#' then some none
    else none
  else if state.escaped then
    let plain := { state with escaped := false }
    if c == '\\' || c == '\'' || c == '"' || c == '$' || c == ' ' then some (some (plain.put c))
    else if c == 'n' then some (some (plain.put '\n'))
    else none
  else if state.place == .strong then
    some (some (if c == '\'' then { state with place := .bare } else state.put c))
  else if state.naming != .none then
    some (some (if isAlphanumeric c then { state with name := c :: state.name }
      else state.inName environment given c))
  else if c == '$' then some (some { state with naming := .plain })
  else if c == '\\' then some (some { state with escaped := true })
  else if state.place == .weak then
    some (some (if c == '"' then { state with place := .bare } else state.put c))
  else if c == '\'' then some (some { state with place := .strong })
  else if c == '"' then some (some { state with place := .weak })
  else if c == ' ' || c == '\t' then some (some { state with place := .ended })
  else some (some (state.put c))

end ValueState

/-- Reads the characters of a value; a failure gives the number of those before it. -/
def readChars (environment : Environment) (given : Given) (state : ValueState) (index : Nat) :
    List Char → Except Nat ValueState
  | [] => .ok state
  | c :: rest =>
    match state.step environment given c with
    | none => .error index
    | some none => .ok state
    | some (some next) => readChars environment given next (index + 1) rest

/-- Reads a value. -/
def readValue (environment : Environment) (given : Given) (text : List Char) :
    Except LoadError String :=
  let start : ValueState :=
    { place := .bare, escaped := false, naming := .none, name := [], output := [] }
  match readChars environment given start 0 text with
  | .error index => .error (.line (String.ofList text) index)
  | .ok state =>
    if state.naming == .braced || state.place == .strong || state.place == .weak then
      .error (.line (String.ofList text) (byteLength text - 1))
    else .ok (String.ofList (state.endName environment given).output.reverse)

/-- Whether a character may start a name. -/
def startsName (c : Char) : Bool :=
  c.isAlpha || c == '_'

/-- Whether a character may stand in a name. -/
def inName (c : Char) : Bool :=
  c.isAlphanum || c == '_' || c == '.'

/-- What is left of a line, and the number of bytes before it. -/
structure Cursor where
  rest : List Char
  position : Nat
  deriving DecidableEq, Repr, Inhabited

namespace Cursor

/-- Passes over the first characters that pass a test. -/
def skipWhile (cursor : Cursor) (test : Char → Bool) : Cursor :=
  { rest := cursor.rest.dropWhile test
    position := cursor.position + byteLength (cursor.rest.takeWhile test) }

/-- Reads a name. -/
def name? (cursor : Cursor) : Option (String × Cursor) :=
  match cursor.rest with
  | c :: _ =>
    if startsName c then
      some (String.ofList (cursor.rest.takeWhile inName), cursor.skipWhile inName)
    else none
  | [] => none

/-- Passes over an equals sign. -/
def equals? (cursor : Cursor) : Option Cursor :=
  match cursor.rest with
  | '=' :: rest => some { rest, position := cursor.position + 1 }
  | _ => none

end Cursor

/-- Reads a line: a name with a value, or nothing. -/
def readLine (environment : Environment) (given : Given) (line : List Char) :
    Except LoadError (Option (String × Option String)) := do
  let fail {α : Type} (cursor : Cursor) : Except LoadError α :=
    .error (.line (String.ofList line) cursor.position)
  let name (cursor : Cursor) : Except LoadError (String × Cursor) :=
    match cursor.name? with
    | some (name, later) => .ok (name, later.skipWhile isBlank)
    | none => fail cursor
  let start := Cursor.skipWhile { rest := trimEnd line, position := 0 } isBlank
  if start.rest.isEmpty || start.rest.head? == some '#' then return none
  let (first, afterFirst) ← name start
  let (key, afterKey) ← match afterFirst.equals? with
    | some later => pure (first, later)
    | none =>
      if first == "export" then do
        let (second, afterSecond) ← name afterFirst
        match afterSecond.equals? with
        | some later => pure (second, later)
        | none => fail afterSecond
      else fail afterFirst
  let value := (afterKey.skipWhile isBlank).rest
  if value.isEmpty || value.head? == some '#' then return some (key, none)
  return some (key, some (← readValue environment given value))

/-! ### Reading a file -/

/-- Where a line ends that was read so far. -/
inductive LineState where
  /-- The line is complete. -/
  | complete
  /-- The last character was a blank. -/
  | blank
  /-- The last character was a backslash. -/
  | escape
  /-- An apostrophe is open. -/
  | strong
  /-- An apostrophe is open, and the last character was a backslash. -/
  | strongEscape
  /-- A quote is open. -/
  | weak
  /-- A quote is open, and the last character was a backslash. -/
  | weakEscape
  deriving DecidableEq, Repr, Inhabited

/-- The state after a character that stands outside of quotes. -/
def LineState.ofChar (c : Char) : LineState :=
  match c with
  | '\\' => .escape
  | '"' => .weak
  | '\'' => .strong
  | _ => .complete

/-- The state after a character. -/
def LineState.step (state : LineState) (c : Char) : LineState :=
  match state with
  | .complete => if isBlank c && c != '\n' && c != '\r' then .blank else .ofChar c
  | .blank => .ofChar c
  | .escape => .complete
  | .weak => if c == '\\' then .weakEscape else if c == '"' then .complete else .weak
  | .weakEscape => .weak
  | .strong => if c == '\\' then .strongEscape else if c == '\'' then .complete else .strong
  | .strongEscape => .strong

/-- The state at the end of a text, or the part of it before a comment. -/
def scanLine (state : LineState) (read : List Char) : List Char → Except (List Char) LineState
  | [] => .ok state
  | c :: rest =>
    if state == .blank && c == '#' then .error read.reverse
    else scanLine (state.step c) (c :: read) rest

/-- A line without the characters that end it. -/
def withoutEnd (line : List Char) : List Char :=
  match line.reverse with
  | '\n' :: '\r' :: rest => rest.reverse
  | '\n' :: rest => rest.reverse
  | _ => line

/-- What a file was read up to. -/
structure Loading where
  /-- The variables so far. -/
  environment : Environment
  /-- The values that the lines have given. -/
  given : Given
  /-- The beginning of a line that goes on. -/
  pending : List Char
  /-- Where that beginning ends. -/
  state : LineState

namespace Loading

/-- Takes a complete line in. -/
def take (loading : Loading) (line : List Char) : Except LoadError Loading :=
  match readLine loading.environment loading.given line with
  | .error e => .error e
  | .ok none => .ok { loading with pending := [], state := .complete }
  | .ok (some (name, value)) =>
    .ok { environment := loading.environment.setIfMissing name (value.getD "")
          given := (name, value) :: loading.given, pending := [], state := .complete }

/-- Takes in what is left of a file, line by line. -/
def run (loading : Loading) : List (List UInt8) → Except LoadError Unit × Environment
  | [] =>
    if loading.state == .complete then (.ok (), loading.environment)
    else (.error (.line (String.ofList loading.pending) (byteLength loading.pending)), loading.environment)
  | bytes :: rest =>
    match text? bytes with
    | none => (.error (.files .notText), loading.environment)
    | some text =>
      let line := loading.pending ++ text.toList
      let done (line : List Char) : Except LoadError Unit × Environment :=
        match loading.take line with
        | .error e => (.error e, loading.environment)
        | .ok next => run next rest
      if (trimStart line).head? == some '#' then done []
      else
        match scanLine loading.state [] text.toList with
        | .error start => done (loading.pending ++ start)
        | .ok .complete => done (withoutEnd line)
        | .ok state => run { loading with pending := line, state } rest

end Loading

/-- The lines of a file, each with the line feed at its end. -/
def rawLines (bytes : List UInt8) : List (List UInt8) :=
  let pieces := splitAt 0x0a bytes
  pieces.dropLast.map (· ++ [0x0a]) ++ (pieces.getLast?.filter (!·.isEmpty)).toList

/-- Bytes without a byte order mark at their start. -/
def withoutMark : List UInt8 → List UInt8
  | 0xef :: 0xbb :: 0xbf :: rest => rest
  | bytes => bytes

/-- Sets the variables of a file that are not set.  Those before a line that is not understood
are set nevertheless. -/
def load (environment : Environment) (bytes : List UInt8) : Except LoadError Unit × Environment :=
  Loading.run { environment, given := [], pending := [], state := .complete }
    (rawLines (withoutMark bytes))

/-- The name of the file with the variables of a project. -/
def fileName : String := ".env"

/-- Sets the variables of the file at a path, and tells whether there is one. -/
def loadFile (environment : Environment) (tree : FileTree) (path : String) :
    Except Failure Bool × Environment :=
  let fail (e : LoadError) : Failure :=
    let causes := match e with
      | .line _ _ => [e.message]
      | .files _ => [e.message, e.message]
    { message := "Failed to load " ++ path, causes }
  match tree.read path with
  | .error .notFound => (.ok false, environment)
  | .error e => (.error (fail (.files e)), environment)
  | .ok bytes =>
    let (result, next) := environment.load bytes
    ((result.map fun () => true).mapError fail, next)

end Environment

end Scrutiny
