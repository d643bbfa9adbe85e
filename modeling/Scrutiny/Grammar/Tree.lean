/-!
# Syntax trees

One kind of tree for all languages.  A node covers a range of the text, counted in
characters; its children are the nodes read inside that range, in text order.  Only
what the extraction of definitions and the skeletons look at has a kind of its own.
-/

namespace Scrutiny.Grammar

/-- What a node stands for. -/
inductive Kind where
  /-- A whole file. -/
  | file
  /-- A definition together with the decorators in front of it. -/
  | decorated
  /-- A named function. -/
  | functionDef
  /-- A function that is written as a value. -/
  | closure
  /-- A function that is a member of a class or of an object. -/
  | method
  /-- A member of a class that holds a value. -/
  | property
  /-- A class. -/
  | classDef
  /-- An interface. -/
  | interfaceDef
  /-- An enumeration that is listed like an interface. -/
  | enumDef
  /-- A type that is given by its fields or variants. -/
  | record
  /-- A trait. -/
  | traitDef
  /-- An implementation block. -/
  | implBlock
  /-- A nested module. -/
  | moduleDef
  /-- An export of a declaration or of a value. -/
  | exported
  /-- A declaration of variables. -/
  | bindings
  /-- One variable of such a declaration. -/
  | binding
  /-- A body made of statements or members. -/
  | block
  /-- An expression that stands as a statement. -/
  | statement
  /-- One string literal. -/
  | stringLiteral
  /-- A path that names a type. -/
  | typePath
  /-- A type applied to arguments. -/
  | typeApplication
  /-- Anything else. -/
  | other
  deriving DecidableEq, Repr, Inhabited

/-- The part that a child plays in its parent. -/
inductive Role where
  /-- The name that is defined. -/
  | name
  /-- The body. -/
  | body
  /-- The definition under its decorators. -/
  | definition
  /-- The declaration that is exported. -/
  | declaration
  /-- The value that is bound or exported. -/
  | value
  /-- The type that a block implements, or the type that is applied. -/
  | type
  deriving DecidableEq, Repr, Inhabited

/-- A node: what it stands for, the part it plays, its range and its children. -/
structure Tree where
  /-- What the node stands for. -/
  kind : Kind
  /-- The part that the node plays in its parent. -/
  role : Option Role
  /-- The offset of its first character. -/
  start : Nat
  /-- The offset after its last character. -/
  stop : Nat
  /-- The nodes inside it. -/
  children : List Tree
  deriving Repr, Inhabited

namespace Tree

/-- The first child that plays the given part. -/
def child? (tree : Tree) (role : Role) : Option Tree :=
  tree.children.find? (·.role == some role)

/-- The node as one that plays the given part. -/
def withRole (tree : Tree) (role : Role) : Tree :=
  { tree with role := some role }

end Tree

end Scrutiny.Grammar
