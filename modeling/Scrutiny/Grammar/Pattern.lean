import Scrutiny.Grammar.Tree

/-!
# Patterns

A grammar is a function from rule names to patterns.  A pattern is read from left
to right with ordered choice: the first alternative that matches is taken.  Reading
yields the nodes that the pattern makes, or the furthest place at which a token was
missing.

Patterns mention each other by rule name only, so that a grammar needs no recursion
of its own; the depth of reading is bounded by `Pattern.read`'s first argument.
-/

namespace Scrutiny.Grammar

/-- A place in a text: an offset in characters, and the widths of the indented
blocks that are open there, the innermost first. -/
structure Cursor where
  /-- The number of characters before the place. -/
  offset : Nat
  /-- The widths of the open blocks. -/
  indents : List Nat
  deriving Repr, Inhabited

/-- A token: where it starts, and the place after it. -/
structure Token where
  /-- The offset of its first character. -/
  start : Nat
  /-- The place after its last character. -/
  after : Cursor
  deriving Repr, Inhabited

/-- A scanner looks for one token at a place.  Where there is none it tells at which
offset it was missed. -/
abbrev Scanner := Array Char → Cursor → Except Nat Token

/-- Patterns over rule names of type `σ`. -/
inductive Pattern (σ : Type) where
  /-- Matches nothing at all, and succeeds. -/
  | empty
  /-- One token. -/
  | token (scan : Scanner)
  /-- What the rule stands for. -/
  | call (rule : σ)
  /-- One pattern after the other. -/
  | seq (first second : Pattern σ)
  /-- The first pattern if it matches, else the second. -/
  | either (first second : Pattern σ)
  /-- The pattern as often as it matches and moves on. -/
  | many (item : Pattern σ)
  /-- Succeeds where the pattern matches, and stays in place. -/
  | ahead (item : Pattern σ)
  /-- Succeeds where the pattern does not match, and stays in place. -/
  | absent (item : Pattern σ)
  /-- A node of the given kind around what the pattern makes. -/
  | node (kind : Kind) (item : Pattern σ)
  /-- The nodes of the pattern, playing the given part. -/
  | part (role : Role) (item : Pattern σ)
  /-- The nodes of the pattern, read as a group of their own. -/
  | group (item : Pattern σ)
  /-- The pattern as often as it matches; each match puts a node around all that the
  group holds so far. -/
  | suffixes (next : Pattern σ)
  /-- Notes whether what was just read may stand on the left of an assignment. -/
  | mark (assignable : Bool)
  /-- Succeeds where what was just read may stand on the left of an assignment. -/
  | assignable

/-- How far reading has come within one node. -/
structure Progress where
  /-- The place that is reached. -/
  cursor : Cursor
  /-- The start of the first token of the node. -/
  begun : Option Nat
  /-- The nodes made so far, the last first. -/
  made : List Tree
  /-- Whether what was just read may stand on the left of an assignment. -/
  assignable : Bool
  /-- The furthest offset at which a token was missed. -/
  reach : Nat
  deriving Inhabited

namespace Progress

/-- The same place, at the start of a new node. -/
def enter (p : Progress) : Progress :=
  { p with begun := none, made := [] }

/-- The node around what was read. -/
def wrap (p : Progress) (kind : Kind) : Tree :=
  { kind, role := none, start := p.begun.getD p.cursor.offset, stop := p.cursor.offset,
    children := p.made.reverse }

/-- `outer` moved to where `inner` came, with the nodes `made` added. -/
def leave (outer inner : Progress) (made : List Tree) : Progress :=
  { inner with begun := outer.begun.or inner.begun, made := made ++ outer.made }

end Progress

/-- Reading with the rules `rules` in `text`, at most `fuel` patterns deep. -/
def Pattern.read {σ : Type} (rules : σ → Pattern σ) (text : Array Char) :
    (fuel : Nat) → Pattern σ → Progress → Except Nat Progress
  | 0, _, p => .error p.reach
  | fuel + 1, pattern, p =>
    match pattern with
    | .empty => .ok p
    | .token scan =>
      match scan text p.cursor with
      | .error missed => .error (max p.reach missed)
      | .ok found =>
        .ok { p with
          cursor := found.after
          begun := p.begun.or (some found.start)
          assignable := false }
    | .call rule => read rules text fuel (rules rule) p
    | .seq first second =>
      match read rules text fuel first p with
      | .error reach => .error reach
      | .ok q => read rules text fuel second q
    | .either first second =>
      match read rules text fuel first p with
      | .error reach => read rules text fuel second { p with reach }
      | .ok q => .ok q
    | .many item =>
      match read rules text fuel item p with
      | .error reach => .ok { p with reach }
      | .ok q =>
        if p.cursor.offset < q.cursor.offset then read rules text fuel (.many item) q
        else .ok p
    | .ahead item =>
      match read rules text fuel item p.enter with
      | .error reach => .error reach
      | .ok q => .ok { p with reach := q.reach }
    | .absent item =>
      match read rules text fuel item p.enter with
      | .error _ => .ok p
      | .ok _ => .error p.reach
    | .node kind item =>
      match read rules text fuel item p.enter with
      | .error reach => .error reach
      | .ok q => .ok (p.leave q [q.wrap kind])
    | .part role item =>
      match read rules text fuel item p.enter with
      | .error reach => .error reach
      | .ok q => .ok (p.leave q (q.made.map (·.withRole role)))
    | .group item =>
      match read rules text fuel item p.enter with
      | .error reach => .error reach
      | .ok q => .ok (p.leave q q.made)
    | .suffixes next =>
      match read rules text fuel next p with
      | .error reach => .ok { p with reach }
      | .ok q => read rules text fuel (.suffixes next) { q with made := [q.wrap .other] }
    | .mark b => .ok { p with assignable := b }
    | .assignable => if p.assignable then .ok p else .error p.reach

namespace Pattern

variable {σ : Type}

instance : AndThen (Pattern σ) where
  andThen first second := .seq first (second ())

instance : OrElse (Pattern σ) where
  orElse first second := .either first (second ())

/-- The pattern, or nothing. -/
def opt (item : Pattern σ) : Pattern σ :=
  .either item .empty

/-- The pattern once or more often. -/
def many1 (item : Pattern σ) : Pattern σ :=
  .seq item (.many item)

/-- One of the patterns, tried in order. -/
def oneOf : List (Pattern σ) → Pattern σ
  | [] => .absent .empty
  | [item] => item
  | item :: rest => .either item (oneOf rest)

/-- The patterns one after the other. -/
def inOrder : List (Pattern σ) → Pattern σ
  | [] => .empty
  | [item] => item
  | item :: rest => .seq item (inOrder rest)

/-- The first pattern, then the second as often as it matches; each further match
puts a node around all that was read before. -/
def chain (first next : Pattern σ) : Pattern σ :=
  .group (.seq first (.suffixes next))

/-- The pattern once or more often, with separators between. -/
def sepBy (item separator : Pattern σ) : Pattern σ :=
  .seq item (.many (.seq separator item))

/-- The tree of a whole text that the pattern `file` stands for, or the furthest offset at
which a token was missed.  Reading goes as deep as the length of the text allows. -/
def tree (rules : σ → Pattern σ) (file : Pattern σ) (text : Array Char) : Except Nat Tree :=
  let start : Progress :=
    { cursor := { offset := 0, indents := [0] }, begun := none, made := [], assignable := false,
      reach := 0 }
  match read rules text (64 * (text.size + 64)) file start with
  | .error reach => .error reach
  | .ok p =>
    match p.made with
    | [tree] => .ok tree
    | _ => .error p.reach

end Pattern

end Scrutiny.Grammar
