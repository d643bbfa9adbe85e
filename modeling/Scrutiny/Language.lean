/-!
# Languages

The languages that can be reviewed, how a file name tells which one it holds, and what
their comments and imports look like.
-/

namespace Scrutiny

/-- A language, or `unknown` for a file that holds none of them. -/
inductive Language where
  | python
  | javascript
  | typescript
  | tsx
  | rust
  | unknown
  deriving DecidableEq, Repr, Inhabited

namespace Language

/-- The name of a language. -/
def name : Language → String
  | .python => "python"
  | .javascript => "javascript"
  | .typescript => "typescript"
  | .tsx => "tsx"
  | .rust => "rust"
  | .unknown => "unknown"

/-- The language with the given name, as it is written in lower case. -/
def ofName? (name : String) : Option Language :=
  [.python, .javascript, .typescript, .tsx, .rust, .unknown].find? (·.name == name)

/-- The language that files with the given extension hold; upper and lower case are the
same. -/
def ofExtension (extension : String) : Language :=
  match String.ofList (extension.toList.map Char.toLower) with
  | "py" | "pyw" => .python
  | "js" | "jsx" | "mjs" | "cjs" => .javascript
  | "ts" | "mts" | "cts" => .typescript
  | "tsx" => .tsx
  | "rs" => .rust
  | _ => .unknown

/-- Whether there is a grammar for the language. -/
def hasGrammar (language : Language) : Bool :=
  language != .unknown

/-- Whether the language is one of the dialects of JavaScript. -/
def isScript : Language → Bool
  | .javascript | .typescript | .tsx => true
  | _ => false

/-- Whether blocks are marked by indentation. -/
def usesIndentation (language : Language) : Bool :=
  language == .python

/-- How lines start that hold a comment only. -/
def commentMarks : Language → List String
  | .python => ["#"]
  | .unknown => []
  | _ => ["//", "/*", "*"]

/-- How lines start that only name other files. -/
def importMarks : Language → List String
  | .rust => ["use ", "pub use ", "extern crate ", "mod "]
  | .python => ["import ", "from "]
  | .unknown => []
  | _ => ["import ", "export * from", "require("]

/-- The extensions of the files that a scan of a directory finds. -/
def scannedExtensions : List String :=
  ["py", "js", "jsx", "mjs", "cjs", "ts", "tsx", "rs"]

end Language

end Scrutiny
