import Scrutiny.Text.Utf8

/-!
# Globs

Patterns for paths.  `?` matches one byte and `*` any number of bytes; `**` as a whole part of a
path stands for any number of folders; `[...]` matches one of the bytes that it lists, and
`{a,b}` one of several patterns.  A backslash takes away the meaning of the character after it.

A glob is matched by marking positions of the text: each part of the glob takes the positions
where the parts before it can end to those where it can end itself.
-/

namespace Scrutiny

open Text

/-- A part of a glob. -/
inductive GlobPart where
  /-- A character. -/
  | literal (c : Char)
  /-- One byte. -/
  | one
  /-- Any number of bytes. -/
  | many
  /-- Any number of folders at the start. -/
  | leading
  /-- Everything below a folder. -/
  | inside
  /-- A slash, with any number of folders after it. -/
  | between
  /-- One of the bytes of some ranges of characters, or one that is not. -/
  | oneOf (negated : Bool) (ranges : List (Char × Char))
  /-- One of several patterns. -/
  | choice (branches : List (List GlobPart))
  deriving Repr, Inhabited

/-- How globs are read and matched. -/
structure GlobRules where
  /-- Whether wildcards match slashes. -/
  crossing : Bool
  /-- Whether a bracket that is never closed stands for itself. -/
  openBrackets : Bool
  deriving DecidableEq, Repr, Inhabited

/-- A glob. -/
structure Glob where
  /-- How it is matched. -/
  rules : GlobRules
  /-- Its parts. -/
  parts : List GlobPart
  deriving Repr, Inhabited

namespace Glob

/-! ### Reading -/

/-- What a bracket lists, as far as it was read. -/
structure Listed where
  /-- The ranges, the last one first. -/
  ranges : List (Char × Char)
  /-- Whether the last range waits for its end. -/
  pending : Bool
  deriving DecidableEq, Repr, Inhabited

/-- Why a bracket cannot be read. -/
inductive BracketFault where
  /-- It is never closed. -/
  | unclosed
  /-- A range ends before it starts. -/
  | reversed
  deriving DecidableEq, Repr, Inhabited

/-- Adds a character to what a bracket lists. -/
def Listed.add (listed : Listed) (c : Char) : Except BracketFault Listed :=
  match listed.pending, listed.ranges with
  | true, (first, _) :: others =>
    if c < first then .error .reversed else .ok { ranges := (first, c) :: others, pending := false }
  | _, ranges => .ok { ranges := (c, c) :: ranges, pending := false }

/-- Reads what a bracket lists up to its end; `first` tells that nothing was read yet. -/
def readBracket (first : Bool) (listed : Listed) :
    List Char → Except BracketFault (List (Char × Char) × List Char)
  | [] => .error .unclosed
  | c :: rest =>
    if c == ']' && !first then
      let ranges := if listed.pending then ('-', '-') :: listed.ranges else listed.ranges
      .ok (ranges.reverse, rest)
    else if c == '-' && !first && !listed.pending then
      readBracket false { listed with pending := true } rest
    else
      match listed.add c with
      | .error fault => .error fault
      | .ok more => readBracket false more rest

/-- Reads a bracket after its first character. -/
def readClass (text : List Char) : Except BracketFault (GlobPart × List Char) :=
  let (negated, inner) := match text with
    | '!' :: rest | '^' :: rest => (true, rest)
    | _ => (false, text)
  match readBracket true { ranges := [], pending := false } inner with
  | .error fault => .error fault
  | .ok (ranges, rest) => .ok (.oneOf negated ranges, rest)

/-- A choice that is being read: the parts before it, and the branches that are complete.  Both
lists have the last one first. -/
structure OpenChoice where
  before : List GlobPart
  branches : List (List GlobPart)

/-- What was read of a glob. -/
structure Progress where
  /-- The character before the next one. -/
  last : Option Char
  /-- The choices around the next character, the innermost first. -/
  choices : List OpenChoice
  /-- The parts of the current branch, the last one first. -/
  current : List GlobPart
  /-- Whether opening brackets stand for themselves from now on. -/
  plainBrackets : Bool

/-- Adds a part. -/
def Progress.push (progress : Progress) (last : Char) (part : GlobPart) : Progress :=
  { progress with last := some last, current := part :: progress.current }

/-- Reads on after two stars. -/
def doubleStar (progress : Progress) (rest : List Char) : Progress × List Char :=
  let plain : Progress × List Char := ((progress.push '*' .many).push '*' .many, rest)
  match progress.current with
  | [] =>
    match rest with
    | [] => (progress.push '*' .leading, [])
    | '/' :: later => (progress.push '/' .leading, later)
    | _ => plain
  | lastPart :: earlier =>
    let fresh := !progress.choices.isEmpty && (progress.last == some ',' || progress.last == some '\x7b')
    let folders (last : Char) (part : GlobPart) (later : List Char) : Progress × List Char :=
      let part := match lastPart with
        | .leading => .leading
        | .inside => .inside
        | _ => part
      ({ progress with last := some last, current := part :: earlier }, later)
    if progress.last != some '/' && !fresh then plain
    else
      match rest with
      | [] => folders '*' .inside []
      | c :: later =>
        if (c == ',' || c == '\x7d') && !progress.choices.isEmpty then folders '*' .inside (c :: later)
        else if c == '/' then folders '/' .between later
        else plain

/-- Reads the rest of a glob. -/
def readParts (rules : GlobRules) : (fuel : Nat) → Progress → List Char → Option (List GlobPart)
  | 0, _, _ => none
  | _ + 1, progress, [] => if progress.choices.isEmpty then some progress.current.reverse else none
  | fuel + 1, progress, c :: rest =>
    match c with
    | '?' => readParts rules fuel (progress.push c .one) rest
    | '*' =>
      match rest with
      | '*' :: later =>
        let (next, after) := doubleStar progress later
        readParts rules fuel next after
      | _ => readParts rules fuel (progress.push c .many) rest
    | '[' =>
      if progress.plainBrackets then readParts rules fuel (progress.push c (.literal c)) rest
      else
        match readClass rest with
        | .ok (part, later) => readParts rules fuel (progress.push ']' part) later
        | .error .reversed => none
        | .error .unclosed =>
          if rules.openBrackets then
            readParts rules fuel { progress.push c (.literal c) with plainBrackets := true } rest
          else none
    | '\x7b' =>
      let choice : OpenChoice := { before := progress.current, branches := [] }
      readParts rules fuel
        { progress with last := some c, choices := choice :: progress.choices, current := [] } rest
    | '\x7d' =>
      match progress.choices with
      | [] => none
      | choice :: outer =>
        let branches := ((progress.current :: choice.branches).map List.reverse).reverse
        readParts rules fuel
          { progress with last := some c, choices := outer, current := .choice branches :: choice.before }
          rest
    | ',' =>
      match progress.choices with
      | [] => readParts rules fuel (progress.push c (.literal c)) rest
      | choice :: outer =>
        let wider := { choice with branches := progress.current :: choice.branches }
        readParts rules fuel
          { progress with last := some c, choices := wider :: outer, current := [] } rest
    | '\\' =>
      match rest with
      | [] => none
      | escaped :: later => readParts rules fuel (progress.push escaped (.literal escaped)) later
    | _ => readParts rules fuel (progress.push c (.literal c)) rest

/-- The glob that a text stands for. -/
def ofText? (rules : GlobRules) (text : List Char) : Option Glob :=
  let start : Progress := { last := none, choices := [], current := [], plainBrackets := false }
  (readParts rules (text.length + 1) start text).map fun parts => { rules, parts }

/-! ### Matching -/

/-- The ranges of bytes that a range of characters in a bracket stands for. -/
def byteRanges (range : Char × Char) : List (UInt8 × UInt8) :=
  let bytes (c : Char) := bytesOf (String.singleton c)
  let low := bytes range.1
  let high := bytes range.2
  if range.1 == range.2 then low.map fun b => (b, b)
  else
    let single (b : UInt8) : UInt8 × UInt8 := (b, b)
    low.dropLast.map single ++ [(low.getLastD 0, high.headD 0)] ++ high.tail.map single

/-- The marks after one byte that passes a test. -/
def step (test : UInt8 → Bool) (text : List UInt8) (marks : List Bool) : List Bool :=
  false :: List.zipWith (fun b mark => mark && test b) text marks

/-- The marks after any number of bytes that pass a test; `reached` tells that a run of them can be
under way. -/
def spread (test : UInt8 → Bool) (reached : Bool) : List UInt8 → List Bool → List Bool
  | _, [] => []
  | [], mark :: _ => [reached || mark]
  | b :: text, mark :: marks =>
    (reached || mark) :: spread test ((reached || mark) && test b) text marks

/-- The marks that are in one of two lists. -/
def union (a b : List Bool) : List Bool :=
  List.zipWith (· || ·) a b

/-- Whether a byte is a slash. -/
def isSlash (b : UInt8) : Bool := b == 0x2f

mutual

/-- Whether a part matches nothing but the empty text and has no text of its own. -/
def isVoid : GlobPart → Bool
  | .choice branches => areVoidBranches branches
  | _ => false

/-- Whether all parts are void. -/
def areVoid : List GlobPart → Bool
  | [] => true
  | part :: rest => isVoid part && areVoid rest

/-- Whether all branches are void. -/
def areVoidBranches : List (List GlobPart) → Bool
  | [] => true
  | branch :: rest => areVoid branch && areVoidBranches rest

end

mutual

/-- The marks after a part. -/
def after (rules : GlobRules) (text : List UInt8) : GlobPart → List Bool → List Bool
  | .literal c, marks =>
    (bytesOf (String.singleton c)).foldl (fun marks b => step (· == b) text marks) marks
  | .one, marks => step (fun b => rules.crossing || !isSlash b) text marks
  | .many, marks => spread (fun b => rules.crossing || !isSlash b) false text marks
  | .leading, marks => union marks (step isSlash text (spread (fun _ => true) false text marks))
  | .inside, marks => spread (fun _ => true) false text (step isSlash text marks)
  | .between, marks =>
    let slash := step isSlash text marks
    union slash (step isSlash text (spread (fun _ => true) false text slash))
  | .oneOf negated ranges, marks =>
    let bytes := ranges.flatMap byteRanges
    step (fun b => (bytes.any fun (low, high) => low ≤ b && b ≤ high) != negated) text marks
  | .choice branches, marks =>
    if areVoidBranches branches then marks
    else afterAny rules text branches marks (marks.map fun _ => false)

/-- The marks after some parts. -/
def afterAll (rules : GlobRules) (text : List UInt8) : List GlobPart → List Bool → List Bool
  | [], marks => marks
  | part :: rest, marks => afterAll rules text rest (after rules text part marks)

/-- The marks after one of several branches, and some marks found before. -/
def afterAny (rules : GlobRules) (text : List UInt8) :
    List (List GlobPart) → (marks found : List Bool) → List Bool
  | [], _, found => found
  | branch :: rest, marks, found =>
    if areVoid branch then afterAny rules text rest marks found
    else afterAny rules text rest marks (union found (afterAll rules text branch marks))

end

/-- Whether the glob stands for any number of folders and nothing else. -/
def isAnything (glob : Glob) : Bool :=
  match glob.parts with
  | [.leading] => true
  | _ => false

/-- Whether a text is matched. -/
def accepts (glob : Glob) (text : String) : Bool :=
  let bytes := bytesOf text
  let start := true :: List.replicate bytes.length false
  glob.isAnything || (afterAll glob.rules bytes glob.parts start).getLastD false

end Glob

end Scrutiny
