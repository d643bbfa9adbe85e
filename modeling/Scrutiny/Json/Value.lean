/-!
# JSON

Values, and how records and variants are written as values.
-/

namespace Scrutiny

/-!
## JSON values

Numbers are whole numbers of 64 bits, with or without a sign, or doubles.  The fields of an
object are kept in the order of their names, and no name occurs twice.
-/

namespace Json

/-- A number. -/
inductive Number where
  /-- A whole number between `-2 ^ 63` and `2 ^ 64 - 1`. -/
  | int (value : Int)
  /-- A double, by its bits. -/
  | double (bits : UInt64)
  deriving DecidableEq, Repr, Inhabited

end Json

/-- A JSON value. -/
inductive Json where
  | null
  | bool (value : Bool)
  | number (value : Json.Number)
  | string (value : String)
  | array (items : List Json)
  | object (fields : List (String × Json))
  deriving Repr, Inhabited

namespace Json

mutual

/-- Whether two values are the same. -/
def beq : Json → Json → Bool
  | .null, .null => true
  | .bool a, .bool b => a == b
  | .number a, .number b => a == b
  | .string a, .string b => a == b
  | .array as, .array bs => beqItems as bs
  | .object as, .object bs => beqFields as bs
  | _, _ => false

/-- Whether two lists of values are the same. -/
def beqItems : List Json → List Json → Bool
  | [], [] => true
  | a :: as, b :: bs => beq a b && beqItems as bs
  | _, _ => false

/-- Whether two lists of fields are the same. -/
def beqFields : List (String × Json) → List (String × Json) → Bool
  | [], [] => true
  | (k, a) :: as, (l, b) :: bs => k == l && beq a b && beqFields as bs
  | _, _ => false

end

instance : BEq Json := ⟨beq⟩

/-- The whole number `n`. -/
def nat (n : Nat) : Json := .number (.int n)

/-- The fields with the value of one of them set. -/
def setField (name : String) (value : Json) : List (String × Json) → List (String × Json)
  | [] => [(name, value)]
  | (k, v) :: rest =>
    if name == k then (k, value) :: rest
    else if name < k then (name, value) :: (k, v) :: rest
    else (k, v) :: setField name value rest

/-- The object with the given fields; of two fields with one name the later one counts. -/
def ofFields (fields : List (String × Json)) : Json :=
  .object (fields.foldl (fun sorted (name, value) => setField name value sorted) [])

mutual

/-- The value with the fields of all objects in order, the last one of each name. -/
def normal : Json → Json
  | .array items => .array (normalItems items)
  | .object fields => ofFields (normalFields fields)
  | other => other

/-- Some values, each with its fields in order. -/
def normalItems : List Json → List Json
  | [] => []
  | item :: rest => normal item :: normalItems rest

/-- Some fields, the value of each with its fields in order. -/
def normalFields : List (String × Json) → List (String × Json)
  | [] => []
  | (name, value) :: rest => (name, normal value) :: normalFields rest

end

/-- The value of a field of an object. -/
def field? (json : Json) (name : String) : Option Json :=
  match json with
  | .object fields => (fields.find? (·.1 == name)).map (·.2)
  | _ => none

/-- The text of a string. -/
def string? : Json → Option String
  | .string s => some s
  | _ => none

/-- The items of an array. -/
def array? : Json → Option (List Json)
  | .array items => some items
  | _ => none

/-- The fields of an object. -/
def object? : Json → Option (List (String × Json))
  | .object fields => some fields
  | _ => none

/-- A truth value. -/
def bool? : Json → Option Bool
  | .bool b => some b
  | _ => none

/-- A whole number that is not negative. -/
def nat? : Json → Option Nat
  | .number (.int n) => if 0 ≤ n then some n.toNat else none
  | _ => none

/-- A number as a double. -/
def float? : Json → Option Float
  | .number (.int n) => some (Float.ofInt n)
  | .number (.double bits) => some (Float.ofBits bits)
  | _ => none

mutual

/-- The number of arrays and objects inside each other, the value itself included. -/
def depth : Json → Nat
  | .array items => depthItems items + 1
  | .object fields => depthFields fields + 1
  | _ => 0

/-- The largest depth of some values. -/
def depthItems : List Json → Nat
  | [] => 0
  | item :: rest => max item.depth (depthItems rest)

/-- The largest depth of the values of some fields. -/
def depthFields : List (String × Json) → Nat
  | [] => 0
  | (_, value) :: rest => max value.depth (depthFields rest)

end

/-!
## Records and variants as JSON

How records and variants of an enumeration are written as JSON values, and read from
them.  A record is an object with one field for each of its parts, or an array of the parts
in order; fields that the record does not know are passed over, and those that it knows stand
there once.  A variant is the string
of its name, or an object whose only field has that name and no value.
-/

/-- The value of each of the fields `names` of a record; a field that is not given has none.  No
field of a record may be given twice. -/
def parts? (names : List String) : Json → Option (List (Option Json))
  | .object fields =>
    if names.all fun name => fields.countP (·.1 == name) ≤ 1 then
      some (names.map fun name => (fields.find? (·.1 == name)).map (·.2))
    else none
  | .array items =>
    if items.length ≤ names.length then
      some (items.map some ++ List.replicate (names.length - items.length) none)
    else none
  | _ => none

/-- The name of a variant. -/
def variant? : Json → Option String
  | .string name => some name
  | .object [(name, .null)] => some name
  | _ => none

/-- A whole number that is not negative and has at most `bits` bits. -/
def unsigned? (bits : Nat) (json : Json) : Option Nat :=
  json.nat?.filter (· < Nat.pow 2 bits)

/-- A part that may be left out or be null. -/
def optional? {α : Type} (read : Json → Option α) : Option Json → Option (Option α)
  | none | some .null => some none
  | some json => (read json).map some

/-- A double. -/
def ofFloat (x : Float) : Json := .number (.double x.toBits)

/-- A text, or null. -/
def ofText? : Option String → Json
  | some text => .string text
  | none => .null

/-- A whole number, or null. -/
def ofNat? : Option Nat → Json
  | some n => nat n
  | none => .null

end Json

end Scrutiny
