import Mathlib.Tactic.Common
import Scrutiny.Json.Value

/-!
# Values as trees

Induction over JSON values, the numbers that occur in a value, and the value with other values
in place of its numbers.
-/

namespace Scrutiny.Json

theorem sizeOf_lt_of_mem_fields {field : String × Json} {fields : List (String × Json)}
    (h : field ∈ fields) :
  sizeOf field.2 < sizeOf fields
  := by
  have := List.sizeOf_lt_of_mem h
  obtain ⟨name, value⟩ := field
  simp only [Prod.mk.sizeOf_spec] at this
  dsimp only
  omega

/-- A property of all values follows if arrays and objects have it as soon as all values in them
do. -/
theorem inductionOn {P : Json → Prop} (null : P .null) (bool : ∀ b, P (.bool b))
    (number : ∀ n, P (.number n)) (string : ∀ s, P (.string s))
    (array : ∀ items, (∀ item ∈ items, P item) → P (.array items))
    (object : ∀ fields, (∀ field ∈ fields, P field.2) → P (.object fields)) (value : Json) :
  P value
  := by
  cases value with
  | null => apply null
  | bool b => apply bool
  | number n => apply number
  | string s => apply string
  | array items =>
      apply array
      intro item hitem
      apply inductionOn null bool number string array object item
  | object fields =>
      apply object
      intro field hfield
      apply inductionOn null bool number string array object field.2
termination_by sizeOf value
decreasing_by
  · have := List.sizeOf_lt_of_mem hitem
    simp only [Json.array.sizeOf_spec]
    omega
  · have := sizeOf_lt_of_mem_fields hfield
    simp only [Json.object.sizeOf_spec]
    omega

mutual

/-- The numbers that occur in a value. -/
def numbers : Json → List Number
  | .number n => [n]
  | .array items => numbersOfItems items
  | .object fields => numbersOfFields fields
  | _ => []

/-- The numbers that occur in some values. -/
def numbersOfItems : List Json → List Number
  | [] => []
  | item :: rest => numbers item ++ numbersOfItems rest

/-- The numbers that occur in the values of some fields. -/
def numbersOfFields : List (String × Json) → List Number
  | [] => []
  | (_, value) :: rest => numbers value ++ numbersOfFields rest

end

mutual

/-- The value with `f n` in place of each number `n`. -/
def mapNumbers (f : Number → Json) : Json → Json
  | .number n => f n
  | .array items => .array (mapNumbersOfItems f items)
  | .object fields => .object (mapNumbersOfFields f fields)
  | other => other

/-- Some values with `f n` in place of each number `n`. -/
def mapNumbersOfItems (f : Number → Json) : List Json → List Json
  | [] => []
  | item :: rest => mapNumbers f item :: mapNumbersOfItems f rest

/-- Some fields with `f n` in place of each number `n`. -/
def mapNumbersOfFields (f : Number → Json) : List (String × Json) → List (String × Json)
  | [] => []
  | (name, value) :: rest => (name, mapNumbers f value) :: mapNumbersOfFields f rest

end

/-! ### Values in values -/

theorem mem_numbers_array {n : Number} {items : List Json} {item : Json} (hitem : item ∈ items)
    (hn : n ∈ item.numbers) :
  n ∈ (array items).numbers
  := by
  change n ∈ numbersOfItems items
  induction items with
  | nil => cases hitem
  | cons first rest ih =>
      apply List.mem_append.mpr
      rcases List.mem_cons.mp hitem with rfl | hitem
      · left
        apply hn
      · right
        apply ih hitem

theorem mem_numbers_object {n : Number} {fields : List (String × Json)} {field : String × Json}
    (hfield : field ∈ fields) (hn : n ∈ field.2.numbers) :
  n ∈ (object fields).numbers
  := by
  change n ∈ numbersOfFields fields
  induction fields with
  | nil => cases hfield
  | cons first rest ih =>
      obtain ⟨name, value⟩ := first
      apply List.mem_append.mpr
      rcases List.mem_cons.mp hfield with rfl | hfield
      · left
        apply hn
      · right
        apply ih hfield

theorem depth_array_pos (items : List Json) :
  0 < (array items).depth
  := by
  apply Nat.succ_pos

theorem depth_object_pos (fields : List (String × Json)) :
  0 < (object fields).depth
  := by
  apply Nat.succ_pos

theorem depth_lt_of_mem_array {items : List Json} {item : Json} (hitem : item ∈ items) :
  item.depth < (array items).depth
  := by
  apply Nat.lt_succ_iff.mpr
  induction items with
  | nil => cases hitem
  | cons first rest ih =>
      rcases List.mem_cons.mp hitem with rfl | hitem
      · apply Nat.le_max_left
      · apply Nat.le_trans (ih hitem) (Nat.le_max_right _ _)

theorem depth_lt_of_mem_object {fields : List (String × Json)} {field : String × Json}
    (hfield : field ∈ fields) :
  field.2.depth < (object fields).depth
  := by
  apply Nat.lt_succ_iff.mpr
  induction fields with
  | nil => cases hfield
  | cons first rest ih =>
      obtain ⟨name, value⟩ := first
      rcases List.mem_cons.mp hfield with rfl | hfield
      · apply Nat.le_max_left
      · apply Nat.le_trans (ih hfield) (Nat.le_max_right _ _)

theorem mapNumbers_array (f : Number → Json) (items : List Json) :
  mapNumbers f (.array items) = .array (items.map (mapNumbers f))
  := by
  apply congrArg array
  induction items with
  | nil => rfl
  | cons item rest ih => apply congrArg (mapNumbers f item :: ·) ih

theorem mapNumbers_object (f : Number → Json) (fields : List (String × Json)) :
  mapNumbers f (.object fields)
    = .object (fields.map fun field => (field.1, mapNumbers f field.2))
  := by
  apply congrArg object
  induction fields with
  | nil => rfl
  | cons field rest ih =>
      obtain ⟨name, value⟩ := field
      apply congrArg ((name, mapNumbers f value) :: ·) ih

/-- Putting each number in its own place changes nothing. -/
theorem mapNumbers_eq_self {f : Number → Json} {value : Json}
    (h : ∀ n ∈ value.numbers, f n = .number n) :
  value.mapNumbers f = value
  := by
  induction value using inductionOn with
  | null => rfl
  | bool b => rfl
  | number n => apply h n (List.mem_singleton_self n)
  | string s => rfl
  | array items ih =>
      have hitems : items.map (mapNumbers f) = items.map id := by
        apply List.map_congr_left
        intro item hitem
        apply ih item hitem
        intro n hn
        apply h n (mem_numbers_array hitem hn)
      rw [mapNumbers_array, hitems, List.map_id]
  | object fields ih =>
      have hfields : fields.map (fun field => (field.1, mapNumbers f field.2)) = fields.map id := by
        apply List.map_congr_left
        intro field hfield
        rw [ih field hfield fun n hn => h n (mem_numbers_object hfield hn)]
        rfl
      rw [mapNumbers_object, hfields, List.map_id]

end Scrutiny.Json
