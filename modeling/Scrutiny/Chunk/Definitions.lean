import Scrutiny.Chunk.Basic
import Scrutiny.Grammar.Tree
import Scrutiny.Text.Lines

/-!
# Definitions in a syntax tree

The spans of the functions and types that a tree defines.  A function is one span.  A
class is cut in front of its first member: the part before it is the span of the class,
and every member is a span of its own, named after the class.  Functions inside the body
of another function belong to that function.  Implementation blocks and modules have no
span of their own and only lend their name to what is inside.
-/

namespace Scrutiny.Definitions

open Grammar Text

/-- The name of a definition inside the scope of another one. -/
def qualify (scope : Option String) (name : String) : String :=
  match scope with
  | some outer => outer ++ "." ++ name
  | none => name

/-- The first of the nodes that plays the given part. -/
def partOf? (children : List Tree) (role : Role) : Option Tree :=
  children.find? (·.role == some role)

/-- The text of a node. -/
def textOf (index : LineIndex) (tree : Tree) : String :=
  String.ofList (index.slice tree.start tree.stop)

/-- The text of the name among the parts of a definition. -/
def nameOf? (index : LineIndex) (children : List Tree) : Option String :=
  (partOf? children .name).map (textOf index)

/-- The span of a whole definition that covers the range from `start` to `stop`. -/
def wholeSpan (index : LineIndex) (start stop : Nat) (name : String) (kind : ChunkKind) : Span :=
  { name, kind, start, stop, line := index.lineOf start }

/-- The span of a container up to its first member: it ends before the line that the member
starts on, or before the member if that line already belongs to the container's first one;
blanks at its end are left out. -/
def headerSpan (index : LineIndex) (start memberStart : Nat) (name : String) : Span :=
  let lineStart := index.lineStart (index.lineOf memberStart)
  let cut := if start < lineStart then lineStart else memberStart
  let header := trimEnd (index.slice start cut)
  { name, kind := .type, start, stop := start + header.length, line := index.lineOf start }

/-- Whether a value is bound that is a function. -/
def bindsFunction (children : List Tree) : Bool :=
  match partOf? children .value with
  | some value => value.kind == .closure
  | none => false

/-- Whether a node in the body of a class is a member with a span of its own. -/
def isMember (tree : Tree) : Bool :=
  match tree.kind with
  | .functionDef | .classDef | .method => true
  | .decorated =>
    match partOf? tree.children .definition with
    | some inner => inner.kind == .functionDef || inner.kind == .classDef
    | none => false
  | .property => bindsFunction tree.children
  | _ => false

/-- The span of a container with its members: its header if it has a member, else all of it. -/
def containerSpan (index : LineIndex) (start stop : Nat) (name : String)
    (firstMember : Option Tree) : Span :=
  match firstMember with
  | some member => headerSpan index start member.start name
  | none => wholeSpan index start stop name .type

/-- The characters before the first double colon. -/
def beforeColons : List Char → List Char
  | [] => []
  | ':' :: ':' :: _ => []
  | c :: rest => c :: beforeColons rest

/-- The last part of a path whose parts are separated by double colons. -/
def lastSegment (path : List Char) : List Char :=
  (beforeColons path.reverse).reverse

/-- The name of the type that an implementation block is for: the last part of a path, and
without the arguments it is applied to. -/
def implementedType? (index : LineIndex) (children : List Tree) : Option String :=
  (partOf? children .type).bind fun type =>
    match type.kind with
    | .typeApplication =>
      (partOf? type.children .type).map fun base =>
        String.ofList (lastSegment (index.slice base.start base.stop))
    | .typePath => (partOf? type.children .name).map (textOf index)
    | _ => some (textOf index type)

/-- The name of the first variable that is bound to a function. -/
def boundFunction? (index : LineIndex) (children : List Tree) : Option String :=
  children.findSome? fun child =>
    if child.kind == .binding && bindsFunction child.children then nameOf? index child.children
    else none

/-- The span of a method, or of a function that is the value of a property. -/
def memberSpan (index : LineIndex) (scope : Option String) (tree : Tree) : List Span :=
  match nameOf? index tree.children with
  | some name => [wholeSpan index tree.start tree.stop (qualify scope name) .function]
  | none => []

mutual

/-- The spans of a definition in a scope.  The range from `start` to `stop` is what the
definition covers together with the decorators and the export around it. -/
def spans (index : LineIndex) (scope : Option String) (start stop : Nat) : Tree → List Span
  | ⟨kind, _, _, _, children⟩ =>
    let name := qualify scope ((nameOf? index children).getD "default")
    match kind with
    | .functionDef => [wholeSpan index start stop name .function]
    | .record | .interfaceDef | .enumDef => [wholeSpan index start stop name .type]
    | .classDef =>
      let members := (partOf? children .body).map (·.children) |>.getD []
      containerSpan index start stop name (members.find? isMember)
        :: classMembers index name children
    | .traitDef =>
      let members := (partOf? children .body).map (·.children) |>.getD []
      containerSpan index start stop name (members.find? (·.kind == .functionDef))
        :: methods index name children
    | .implBlock =>
      match implementedType? index children with
      | some type => methods index (qualify scope type) children
      | none => []
    | .moduleDef => bodySpans index name children
    | .decorated => partSpans index scope .definition start stop children
    | .exported =>
      if (partOf? children .declaration).isSome then
        partSpans index scope .declaration start stop children
      else
        match partOf? children .value with
        | some value =>
          if value.kind == .closure then [wholeSpan index start stop "default" .function]
          else if value.kind == .classDef then
            partSpans index scope .value start stop children
          else []
        | none => []
    | .bindings =>
      match boundFunction? index children with
      | some bound => [wholeSpan index start stop bound .function]
      | none => []
    | _ => []

/-- The spans of the first node that plays the given part, as a part of the range around it. -/
def partSpans (index : LineIndex) (scope : Option String) (role : Role) (start stop : Nat) :
    List Tree → List Span
  | [] => []
  | tree :: rest =>
    if tree.role == some role then spans index scope start stop tree
    else partSpans index scope role start stop rest

/-- The spans of the definitions in the body of a module. -/
def bodySpans (index : LineIndex) (scope : String) : List Tree → List Span
  | [] => []
  | ⟨_, role, _, _, inner⟩ :: rest =>
    if role == some .body then siblingSpans index (some scope) inner
    else bodySpans index scope rest

/-- The spans of definitions that stand side by side. -/
def siblingSpans (index : LineIndex) (scope : Option String) : List Tree → List Span
  | [] => []
  | tree :: rest => spans index scope tree.start tree.stop tree ++ siblingSpans index scope rest

/-- The spans of the members in the body of a class. -/
def classMembers (index : LineIndex) (scope : String) : List Tree → List Span
  | [] => []
  | ⟨_, role, _, _, inner⟩ :: rest =>
    if role == some .body then memberSpans index scope inner
    else classMembers index scope rest

/-- The spans of members that stand side by side. -/
def memberSpans (index : LineIndex) (scope : String) : List Tree → List Span
  | [] => []
  | tree :: rest =>
    (if tree.kind == .method || tree.kind == .property then
      if isMember tree then memberSpan index (some scope) tree else []
    else if isMember tree then spans index (some scope) tree.start tree.stop tree
    else []) ++ memberSpans index scope rest

/-- The spans of the functions in the body of a trait or of an implementation block. -/
def methods (index : LineIndex) (scope : String) : List Tree → List Span
  | [] => []
  | ⟨_, role, _, _, inner⟩ :: rest =>
    if role == some .body then
      (inner.filter (·.kind == .functionDef)).flatMap (memberSpan index (some scope))
    else methods index scope rest

end

/-- The spans of all definitions of a file. -/
def ofFile (index : LineIndex) (file : Tree) : List Span :=
  siblingSpans index none file.children

end Scrutiny.Definitions
