import Scrutiny.Text.Whole

/-!
# Arguments

The commands of the program and their arguments.  Options that belong to no command may stand
before the name of the command or after it.
-/

namespace Scrutiny

open Text

/-- What the program is asked to do. -/
inductive Command where
  /-- Audits a file or a project. -/
  | audit (path : String) (force : Bool) (outputFolder : Option String)
  /-- Explains the chunks of a project. -/
  | extractWhy (folder : String) (force : Bool)
  /-- Shows explanations. -/
  | listWhy (folder : String) (filter : Option String)
  /-- Reviews the architecture of a project. -/
  | reviewArchitecture (folder : String) (output : Option String)
  /-- Writes the design documents of a project. -/
  | designDoc (folder : String) (outputFolder : Option String) (force : Bool)
  /-- Shows the settings. -/
  | config
  deriving DecidableEq, Repr, Inhabited

/-- A command with the options that belong to none. -/
structure Invocation where
  /-- The command. -/
  command : Command
  /-- How many requests may be under way at the same time. -/
  concurrency : Option Nat
  /-- The largest number of characters of a chunk and of a question. -/
  charLimit : Option Nat
  deriving DecidableEq, Repr, Inhabited

/-- Why no command is run. -/
inductive ArgumentStop where
  /-- The arguments are wrong. -/
  | usage
  /-- Help or the version was asked for. -/
  | information
  deriving DecidableEq, Repr, Inhabited

namespace Arguments

/-- The options. -/
inductive Switch where
  | verbose
  | quiet
  | concurrency
  | charLimit
  | force
  | outputFolder
  | filter
  | output
  deriving DecidableEq, Repr, Inhabited

/-- Whether an option has a value. -/
def Switch.hasValue : Switch → Bool
  | .verbose | .quiet | .force => false
  | _ => true

/-- The options that belong to no command. -/
def common : List Switch := [.verbose, .quiet, .concurrency, .charLimit]

/-- The names of the commands, and the options of each. -/
def commands : List (String × List Switch) :=
  [("audit", [.force, .outputFolder]), ("extract-why", [.force]), ("list-why", [.filter]),
    ("review-architecture", [.output]), ("design-doc", [.outputFolder, .force]), ("config", [])]

/-- The long name of an option. -/
def Switch.long : Switch → String
  | .verbose => "verbose"
  | .quiet => "quiet"
  | .concurrency => "concurrency"
  | .charLimit => "char-limit"
  | .force => "force"
  | .outputFolder => "output-dir"
  | .filter => "filter"
  | .output => "output"

/-- The short name of an option. -/
def Switch.short? : Switch → Option Char
  | .verbose => some 'v'
  | .quiet => some 'q'
  | .output => some 'o'
  | _ => none

/-- The options that were given, with their values. -/
abbrev Given := List (Switch × String)

/-- What was read of the arguments at one level: before the name of the command, or after it. -/
structure Level where
  /-- The options that may be given. -/
  known : List Switch
  /-- Whether the version may be asked for. -/
  hasVersion : Bool
  /-- The options that were given. -/
  given : Given
  /-- What was given besides, in order. -/
  positional : List String
  deriving Repr, Inhabited

/-- Whether a text is an admissible value of an option. -/
def isValue : Switch → String → Bool
  | .concurrency, value | .charLimit, value => (readWhole 64 value.toList).toOption.isSome
  | .outputFolder, value | .output, value => value != ""
  | _, _ => true

/-- Adds an option, which may be given once. -/
def Level.give (level : Level) (option : Switch) (value : String) : Except ArgumentStop Level :=
  if level.given.any (·.1 == option) || !isValue option value then .error .usage
  else .ok { level with given := level.given ++ [(option, value)] }

/-- Whether an argument looks like an option. -/
def looksLikeOption (argument : String) : Bool :=
  argument.toList.head? == some '-' && argument != "-"

/-- What some letters after a dash stand for: the options among them, and an option at their end
that waits for its value. -/
def Level.letters (level : Level) : List Char → Except ArgumentStop (Level × Option Switch)
  | [] => .ok (level, none)
  | c :: rest =>
    if c == 'h' then .error .information
    else if c == 'V' && level.hasVersion then .error .information
    else
      match level.known.find? (·.short? == some c) with
      | none => .error .usage
      | some option =>
        if option.hasValue then
          match rest with
          | [] => .ok (level, some option)
          | '=' :: value => (level.give option (String.ofList value)).map (·, none)
          | value => (level.give option (String.ofList value)).map (·, none)
        else
          match level.give option "" with
          | .error stop => .error stop
          | .ok next => next.letters rest

/-- What a word after two dashes stands for. -/
def Level.word (level : Level) (text : List Char) : Except ArgumentStop (Level × Option Switch) :=
  let name := String.ofList (text.takeWhile (· != '='))
  let value? := match text.dropWhile (· != '=') with
    | [] => none
    | _ :: value => some (String.ofList value)
  if name == "help" && value?.isNone then .error .information
  else if name == "version" && level.hasVersion && value?.isNone then .error .information
  else
    match level.known.find? (·.long == name), value? with
    | none, _ => .error .usage
    | some option, some value =>
      if option.hasValue then (level.give option value).map (·, none) else .error .usage
    | some option, none =>
      if option.hasValue then .ok (level, some option) else (level.give option "").map (·, none)

/-- Reads the arguments of one level.  `isCommand` tells which arguments start the next level; what
is after such an argument is left. -/
def readLevel (isCommand : String → Bool) (level : Level) (waiting : Option Switch) :
    List String → Except ArgumentStop (Level × Option (String × List String))
  | [] => if waiting.isSome then .error .usage else .ok (level, none)
  | argument :: rest =>
    if argument == "--" then
      if waiting.isSome then .error .usage
      else .ok ({ level with positional := level.positional ++ rest }, none)
    else if looksLikeOption argument then
      if waiting.isSome then .error .usage
      else
        let read := match argument.toList with
          | '-' :: '-' :: text => level.word text
          | '-' :: text => level.letters text
          | _ => .error .usage
        match read with
        | .error stop => .error stop
        | .ok (next, pending) => readLevel isCommand next pending rest
    else
      match waiting with
      | some option =>
        match level.give option argument with
        | .error stop => .error stop
        | .ok next => readLevel isCommand next none rest
      | none =>
        if isCommand argument then .ok (level, some (argument, rest))
        else readLevel isCommand { level with positional := level.positional ++ [argument] } none rest

/-- The value of an option. -/
def value? (given : Given) (option : Switch) : Option String :=
  (given.find? (·.1 == option)).map (·.2)

/-- The value of an option that is a number. -/
def number? (given : Given) (option : Switch) : Option Nat :=
  (value? given option).bind fun value => (readWhole 64 value.toList).toOption

/-- The command with the given name, options and path. -/
def command? (name : String) (given : Given) (positional : List String) : Option Command :=
  let force := (value? given .force).isSome
  match name, positional with
  | "config", [] => some .config
  | "audit", [path] => some (.audit path force (value? given .outputFolder))
  | "extract-why", [folder] => some (.extractWhy folder force)
  | "list-why", [folder] => some (.listWhy folder (value? given .filter))
  | "review-architecture", [folder] => some (.reviewArchitecture folder (value? given .output))
  | "design-doc", [folder] => some (.designDoc folder (value? given .outputFolder) force)
  | _, _ => none

/-- What is shown when help on some commands is asked for. -/
def help : List String → ArgumentStop
  | [] => .information
  | [name] => if name == "help" || commands.any (·.1 == name) then .information else .usage
  | _ => .usage

/-- What the arguments of the program ask for. -/
def parse (arguments : List String) : Except ArgumentStop Invocation := do
  let isCommand (name : String) : Bool := name == "help" || commands.any (·.1 == name)
  let top : Level := { known := common, hasVersion := true, given := [], positional := [] }
  let (outer, next) ← readLevel isCommand top none arguments
  let some (name, rest) := next | throw .usage
  if !outer.positional.isEmpty then throw .usage
  if name == "help" then throw (help rest)
  let options := ((commands.find? (·.1 == name)).map (·.2)).getD []
  let level : Level := { known := common ++ options, hasVersion := false, given := [], positional := [] }
  let (inner, _) ← readLevel (fun _ => false) level none rest
  if inner.positional.any (· == "") then throw .usage
  let some command := command? name inner.given inner.positional | throw .usage
  let number (option : Switch) : Option Nat :=
    (number? inner.given option).or (number? outer.given option)
  return { command, concurrency := number .concurrency, charLimit := number .charLimit }

end Arguments

end Scrutiny
