import Scrutiny.Grammar.Tree
import Scrutiny.Language
import Scrutiny.Text.Lines
import Scrutiny.Total

/-!
# Skeletons

A source text with the bodies of its functions left out.  A function inside another one
goes with the body of the outer one.  In a language with braces a body becomes an empty
block with a comment; with indentation it becomes its doc string, if it starts with one,
and the statement that does nothing.
-/

namespace Scrutiny.Skeleton

open Grammar Text

/-- A range of a text, and what takes its place. -/
structure Edit where
  /-- The offset of the first character that is left out. -/
  start : Nat
  /-- The offset after the last one. -/
  stop : Nat
  /-- What stands there instead. -/
  replacement : List Char
  deriving DecidableEq, Repr, Inhabited

/-- What takes the place of a body between braces. -/
def braceStub : List Char := "\x7b /* ... */ \x7d".toList

/-- The doc string that a body starts with: a statement whose first part is a string. -/
def docString? (body : Tree) : Option Tree :=
  match body.children with
  | first :: _ =>
    match first.kind, first.children with
    | .statement, inner :: _ => if inner.kind == .stringLiteral then some first else none
    | _, _ => none
  | [] => none

/-- What takes the place of an indented body.  The statement after a doc string is indented by
as many blanks as there are bytes before the body on its line. -/
def indentedStub (index : LineIndex) (body : Tree) : List Char :=
  match docString? body with
  | some doc =>
    let before := index.slice (index.lineStart (index.lineOf body.start)) body.start
    index.slice doc.start doc.stop ++ '\n' :: List.replicate (total Char.utf8Size before) ' ' ++ "pass".toList
  | none => "pass".toList

/-- Whether the body of the node is left out where it is a block. -/
def isFunction (kind : Kind) : Bool :=
  kind == .functionDef || kind == .closure || kind == .method

/-- The edit that leaves out the body of a function. -/
def bodyEdit? (index : LineIndex) (language : Language) (tree : Tree) : Option Edit :=
  if isFunction tree.kind then
    match tree.child? .body with
    | some body =>
      if body.kind == .block then
        let replacement := if language == .python then indentedStub index body else braceStub
        some { start := body.start, stop := body.stop, replacement }
      else none
    | none => none
  else none

mutual

/-- The edits of the outermost functions of a tree. -/
def edits (index : LineIndex) (language : Language) : Tree → List Edit
  | ⟨kind, role, start, stop, children⟩ =>
    match bodyEdit? index language ⟨kind, role, start, stop, children⟩ with
    | some edit => [edit]
    | none => editsOfAll index language children

/-- The edits of the outermost functions of trees side by side. -/
def editsOfAll (index : LineIndex) (language : Language) : List Tree → List Edit
  | [] => []
  | tree :: rest => edits index language tree ++ editsOfAll index language rest

end

/-- The text from `offset` on with the edits applied; one that starts before `offset` is left
out. -/
def splice (index : LineIndex) (offset : Nat) : List Edit → List Char
  | [] => index.slice offset index.chars.size
  | edit :: rest =>
    if edit.start < offset then splice index offset rest
    else index.slice offset edit.start ++ edit.replacement ++ splice index edit.stop rest

/-- The skeleton of a text with the given syntax tree. -/
def ofTree (index : LineIndex) (language : Language) (tree : Tree) : List Char :=
  splice index 0 ((edits index language tree).mergeSort fun a b => a.start ≤ b.start)

end Scrutiny.Skeleton
