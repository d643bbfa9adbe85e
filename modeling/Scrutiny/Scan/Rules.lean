import Scrutiny.Scan.Glob
import Scrutiny.Text.Lines

/-!
# Rules on paths

What keeps a path out of an audit: the list of a project, and the rules of a version control
system.
-/

/-!
## Ignore lists

A project can list the paths that are not to be audited, one glob a line; lines that start with
`#` are comments.  A slash at the end of a glob counts for nothing, and everything below a path
that is matched is ignored too.  A glob without a slash is also matched against each part of a
path, so that `fixtures` ignores every folder of that name.  What is no glob is passed over.
-/

namespace Scrutiny

open Text

/-- One line of an ignore list. -/
structure IgnoreRule where
  /-- The glob. -/
  exact : Glob
  /-- The glob for everything below. -/
  below : Glob
  /-- Whether the glob is matched against each part of a path too. -/
  anywhere : Bool
  deriving Repr, Inhabited

/-- What a project does not want to have audited. -/
structure IgnoreList where
  /-- The rules, in order. -/
  rules : List IgnoreRule
  deriving Repr, Inhabited

namespace IgnoreList

/-- The name of the file with the ignore list of a project. -/
def fileName : String := ".aiauditignore"

/-- In ignore lists wildcards match slashes, and brackets must be closed. -/
def globRules : GlobRules := { crossing := true, openBrackets := false }

/-- A pattern without the slashes at its end. -/
def withoutSlashes (pattern : List Char) : List Char :=
  (pattern.reverse.dropWhile (· == '/')).reverse

/-- A pattern without the current folder at its start. -/
def withoutHere : List Char → List Char
  | '.' :: '/' :: rest => withoutHere rest
  | pattern => pattern

/-- The rule that a line stands for. -/
def rule? (line : List Char) : Option IgnoreRule := do
  let trimmed := trim line
  if trimmed.head? == some '#' then none
  let pattern := withoutHere (withoutSlashes trimmed)
  if pattern.isEmpty then none
  return { exact := ← Glob.ofText? globRules pattern
           below := ← Glob.ofText? globRules (pattern ++ "/**".toList)
           anywhere := !pattern.contains '/' }

/-- The ignore list with the given text. -/
def ofText (text : String) : IgnoreList :=
  { rules := (splitAt '\n' text.toList).filterMap rule? }

/-- Whether there are no rules. -/
def isEmpty (list : IgnoreList) : Bool :=
  list.rules.isEmpty

/-- Whether a rule matches a path. -/
def matchesRule (path : String) (pieces : List String) (rule : IgnoreRule) : Bool :=
  rule.exact.accepts path || rule.below.accepts path
    || (rule.anywhere && pieces.any rule.exact.accepts)

/-- Whether a path, seen from the project, is ignored. -/
def ignores (list : IgnoreList) (path : String) : Bool :=
  let pieces := (splitAt '/' path.toList).map String.ofList
  list.rules.any (matchesRule path pieces)

end IgnoreList

end Scrutiny

/-!
## Gitignore rules

The rules of the files in which a version control system lists what it passes over.  Each line is
a glob; an exclamation mark in front keeps what earlier lines drop, a slash at the end stands for
folders only, and a glob without any other slash is matched at every depth.  The last rule
that matches decides.
-/

namespace Scrutiny

open Text

/-- One line of a file with such rules. -/
structure GitRule where
  /-- The glob, for paths seen from the folder of the file. -/
  glob : Glob
  /-- Whether what is matched is kept. -/
  keeps : Bool
  /-- Whether only folders are matched. -/
  foldersOnly : Bool
  deriving Repr, Inhabited

/-- What some rules say about a path. -/
inductive Verdict where
  /-- Nothing. -/
  | silent
  /-- It is passed over. -/
  | drop
  /-- It is kept. -/
  | keep
  deriving DecidableEq, Repr, Inhabited

/-- The first verdict unless it is silent, else the second one. -/
def Verdict.orElse (first second : Verdict) : Verdict :=
  match first with
  | .silent => second
  | verdict => verdict

namespace GitRule

/-- In these rules wildcards do not match slashes, and a bracket may stand alone. -/
def globRules : GlobRules := { crossing := false, openBrackets := true }

/-- Whether a text ends with another one. -/
def endsWith (text ending : List Char) : Bool :=
  ending.isSuffixOf text

/-- A line without the blanks at its end, unless the last one is escaped. -/
def trimLine (line : List Char) : List Char :=
  if endsWith line "\\ ".toList then line else trimEnd line

/-- Takes the marks at the start of a line apart: whether what is matched is kept, whether the
glob is matched at one depth only, and the rest. -/
def splitMarks (line : List Char) : Bool × Bool × List Char :=
  let anchored (keeps : Bool) (rest : List Char) : Bool × Bool × List Char :=
    match rest with
    | '/' :: later => (keeps, true, later)
    | _ => (keeps, false, rest)
  match line with
  | '\\' :: '!' :: rest => (false, false, '!' :: rest)
  | '\\' :: '#' :: rest => (false, false, '#' :: rest)
  | '!' :: rest => anchored true rest
  | _ => anchored false line

/-- A line without a slash at its end, and whether there was one.  A backslash in front of it
goes away with it. -/
def splitFolderMark (line : List Char) : Bool × List Char :=
  match line.reverse with
  | '/' :: '\\' :: rest => (true, rest.reverse)
  | '/' :: rest => (true, rest.reverse)
  | _ => (false, line)

/-- The rule that a line stands for. -/
def ofLine? (line : List Char) : Option GitRule := do
  if line.head? == some '#' then none
  let trimmed := trimLine line
  if trimmed.isEmpty then none
  let (keeps, anchored, marked) := splitMarks trimmed
  let (foldersOnly, body) := splitFolderMark marked
  let placed :=
    if anchored || body.contains '/' || body == "**".toList then body else "**/".toList ++ body
  let pattern := if endsWith placed "/**".toList then placed ++ "/*".toList else placed
  return { glob := ← Glob.ofText? globRules pattern, keeps, foldersOnly }

/-- A line without a carriage return at its end. -/
def withoutReturn (line : List UInt8) : List UInt8 :=
  if line.getLast? == some 0x0d then line.dropLast else line

/-- The lines of a file, up to the first one that is no text. -/
def linesOf (bytes : List UInt8) : List (List Char) :=
  let pieces := splitAt 0x0a bytes
  let lines := pieces.dropLast.map withoutReturn ++ [pieces.getLastD []]
  ((lines.map text?).takeWhile Option.isSome).filterMap fun line => line.map String.toList

/-- The rules in a file, in order. -/
def ofFile (bytes : List UInt8) : List GitRule :=
  match linesOf bytes with
  | [] => []
  | first :: rest => (first.dropWhile (· == '\uFEFF') :: rest).filterMap ofLine?

/-- What some rules say about a path. -/
def verdict (rules : List GitRule) (path : String) (isFolder : Bool) : Verdict :=
  match rules.reverse.find? fun rule => (isFolder || !rule.foldersOnly) && rule.glob.accepts path with
  | some rule => if rule.keeps then .keep else .drop
  | none => .silent

end GitRule

end Scrutiny
