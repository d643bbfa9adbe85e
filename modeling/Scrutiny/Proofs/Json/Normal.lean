import Mathlib.Data.String.Basic
import Scrutiny.Proofs.Json.Value

/-!
# Values with their fields in order

Putting the fields of all objects in order gives a value in which they are in order, and changes
nothing if they already are.
-/

namespace Scrutiny.Json

/-- The fields of an object are in the order of their names, and no name occurs twice. -/
def Sorted (fields : List (String × Json)) : Prop :=
  fields.Pairwise fun a b => a.1 < b.1

/-- The fields of all objects are in order. -/
inductive IsNormal : Json → Prop where
  | null : IsNormal .null
  | bool (b : Bool) : IsNormal (.bool b)
  | number (n : Number) : IsNormal (.number n)
  | string (s : String) : IsNormal (.string s)
  | array (items : List Json) (h : ∀ item ∈ items, IsNormal item) : IsNormal (.array items)
  | object (fields : List (String × Json)) (hsorted : Sorted fields)
    (h : ∀ field ∈ fields, IsNormal field.2) : IsNormal (.object fields)

/-! ### Setting a field -/

variable {name : String} {value : Json} {fields : List (String × Json)}

/-- The fields afterwards are the new one and some of those that were there. -/
theorem mem_setField {field : String × Json} (h : field ∈ setField name value fields) :
  field = (name, value) ∨ field ∈ fields
  := by
  induction fields with
  | nil =>
      left
      apply List.mem_singleton.mp h
  | cons first rest ih =>
      rw [setField] at h
      split at h
      · rename_i heq
        rw [← eq_of_beq heq] at h
        rcases List.mem_cons.mp h with rfl | h
        · left
          rfl
        · right
          apply List.mem_cons_of_mem _ h
      · split at h
        · apply List.mem_cons.mp h
        · rcases List.mem_cons.mp h with rfl | h
          · right
            apply List.mem_cons_self
          · rcases ih h with heq | hmem
            · left
              apply heq
            · right
              apply List.mem_cons_of_mem _ hmem

theorem sorted_setField (name : String) (value : Json) (h : Sorted fields) :
  Sorted (setField name value fields)
  := by
  induction fields with
  | nil => apply List.pairwise_singleton
  | cons first rest ih =>
      obtain ⟨hfirst, hrest⟩ := List.pairwise_cons.mp h
      rw [setField]
      split
      · apply List.pairwise_cons.mpr
        use hfirst, hrest
      · split
        · rename_i hlt
          apply List.pairwise_cons.mpr
          constructor
          · intro other hother
            rcases List.mem_cons.mp hother with rfl | hother
            · apply hlt
            · apply lt_trans hlt (hfirst other hother)
          · apply h
        · rename_i hne hge
          apply List.pairwise_cons.mpr
          constructor
          · intro other hother
            rcases mem_setField hother with rfl | hother
            · -- The name is neither that of the first field nor before it.
              rcases lt_trichotomy name first.1 with hlt | heq | hgt
              · cases hge hlt
              · cases hne (beq_iff_eq.mpr heq)
              · apply hgt
            · apply hfirst other hother
          · apply ih hrest

/-- A field whose name comes after all others is set at the end. -/
theorem setField_of_lt (value : Json) (h : ∀ field ∈ fields, field.1 < name) :
  setField name value fields = fields ++ [(name, value)]
  := by
  induction fields with
  | nil => rfl
  | cons first rest ih =>
      have hfirst := h first List.mem_cons_self
      rw [setField, if_neg, if_neg, ih, List.cons_append]
      · intro field hfield
        apply h field (List.mem_cons_of_mem _ hfield)
      · apply lt_asymm hfirst
      · intro heq
        apply ne_of_gt hfirst (eq_of_beq heq)

/-! ### The fields of an object -/

/-- The fields of `start` with those of a list set, one after the other. -/
def setFields (start fields : List (String × Json)) : List (String × Json) :=
  fields.foldl (fun sorted (name, value) => setField name value sorted) start

theorem ofFields_eq (fields : List (String × Json)) :
  ofFields fields = .object (setFields [] fields)
  := rfl

theorem setFields_cons (start : List (String × Json)) (field : String × Json)
    (fields : List (String × Json)) :
  setFields start (field :: fields) = setFields (setField field.1 field.2 start) fields
  := rfl

theorem mem_setFields {start : List (String × Json)} {field : String × Json}
    (h : field ∈ setFields start fields) :
  field ∈ start ∨ field ∈ fields
  := by
  induction fields generalizing start with
  | nil =>
      left
      apply h
  | cons first rest ih =>
      rw [setFields_cons] at h
      rcases ih h with hstart | hrest
      · rcases mem_setField hstart with rfl | hstart
        · right
          apply List.mem_cons_self
        · left
          apply hstart
      · right
        apply List.mem_cons_of_mem _ hrest

theorem sorted_setFields {start : List (String × Json)} (h : Sorted start) :
  Sorted (setFields start fields)
  := by
  induction fields generalizing start with
  | nil => apply h
  | cons first rest ih =>
      rw [setFields_cons]
      apply ih
      apply sorted_setField _ _ h

/-- Fields that are in order are set one behind the other. -/
theorem setFields_of_sorted {start : List (String × Json)} (h : Sorted (start ++ fields)) :
  setFields start fields = start ++ fields
  := by
  induction fields generalizing start with
  | nil => rw [List.append_nil, setFields, List.foldl_nil]
  | cons first rest ih =>
      have hlast : ∀ field ∈ start, field.1 < first.1 := by
        intro field hfield
        apply (List.pairwise_append.mp h).2.2 field hfield first List.mem_cons_self
      rw [setFields_cons, setField_of_lt _ hlast, ih]
      · rw [List.append_assoc]
        rfl
      · rw [List.append_assoc]
        apply h

/-! ### The value of a field -/

theorem field?_cons (name : String) (field : String × Json) (rest : List (String × Json)) :
  (object (field :: rest)).field? name
    = if field.1 = name then some field.2 else (object rest).field? name
  := by
  by_cases h : field.1 = name <;> simp [field?, h]

theorem field?_eq_none (h : name ∉ fields.map Prod.fst) :
  (object fields).field? name = none
  := by
  rw [field?, Option.map_eq_none_iff, List.find?_eq_none]
  intro field hfield heq
  apply h (List.mem_map.mpr ⟨field, hfield, eq_of_beq heq⟩)

/-- What was set is found, and all else as it was. -/
theorem field?_setField (other : String) :
  (object (setField name value fields)).field? other
    = if name = other then some value else (object fields).field? other
  := by
  induction fields with
  | nil => rw [setField, field?_cons]
  | cons field rest ih =>
      rw [setField]
      split
      · rename_i heq
        rw [field?_cons, field?_cons, ← eq_of_beq heq]
        split <;> rfl
      · rename_i hne
        split
        · rw [field?_cons]
        · rw [field?_cons, field?_cons, ih]
          split
          · rename_i heq
            rw [if_neg]
            rintro rfl
            apply hne (beq_iff_eq.mpr heq.symm)
          · rfl

/-- Of fields with different names each is found, and of the others those that do not have its
name. -/
theorem field?_setFields {start : List (String × Json)} (h : (fields.map Prod.fst).Nodup)
    (name : String) :
  (object (setFields start fields)).field? name
    = ((object fields).field? name).or ((object start).field? name)
  := by
  induction fields generalizing start with
  | nil => rfl
  | cons field rest ih =>
      obtain ⟨hfield, hrest⟩ := List.nodup_cons.mp h
      rw [setFields_cons, ih hrest, field?_setField, field?_cons]
      split
      · rename_i heq
        rw [field?_eq_none (heq ▸ hfield)]
        rfl
      · rfl

/-! ### Values -/

theorem normal_array (items : List Json) :
  normal (.array items) = .array (items.map normal)
  := by
  rw [normal]
  congr 1
  induction items with
  | nil => rfl
  | cons item rest ih => rw [normalItems, ih, List.map_cons]

theorem normal_object (fields : List (String × Json)) :
  normal (.object fields) = .object (setFields [] (fields.map fun field => (field.1, normal field.2)))
  := by
  rw [normal, ofFields_eq]
  congr 2
  induction fields with
  | nil => rfl
  | cons field rest ih =>
      obtain ⟨name, value⟩ := field
      rw [normalFields, ih, List.map_cons]

/-- Putting the fields of an object in order leaves the value of each as it is, but for the order of
its own fields. -/
theorem field?_normal (h : (fields.map Prod.fst).Nodup) (name : String) :
  (object fields).normal.field? name = ((object fields).field? name).map normal
  := by
  have hnodup : ((fields.map fun field => (field.1, normal field.2)).map Prod.fst).Nodup := by
    rw [List.map_map]
    apply h
  have hnil : (object []).field? name = none := rfl
  rw [normal_object, field?_setFields hnodup, hnil, Option.or_none, field?, field?, List.find?_map,
    Option.map_map, Option.map_map]
  rfl

/-- A field of a value that was put in order comes from a field of the value. -/
theorem exists_of_mem_setFields_normal {field : String × Json}
    (h : field ∈ setFields [] (fields.map fun field => (field.1, normal field.2))) :
  ∃ original ∈ fields, field = (original.1, normal original.2)
  := by
  rcases mem_setFields h with hnil | hmem
  · cases hnil
  · obtain ⟨original, horiginal, rfl⟩ := List.mem_map.mp hmem
    use original, horiginal

theorem isNormal_normal (value : Json) :
  value.normal.IsNormal
  := by
  induction value using inductionOn with
  | null => apply IsNormal.null
  | bool b => apply IsNormal.bool
  | number n => apply IsNormal.number
  | string s => apply IsNormal.string
  | array items ih =>
      rw [normal_array]
      apply IsNormal.array
      intro item hitem
      obtain ⟨original, horiginal, rfl⟩ := List.mem_map.mp hitem
      apply ih original horiginal
  | object fields ih =>
      rw [normal_object]
      apply IsNormal.object
      · apply sorted_setFields List.Pairwise.nil
      · intro field hfield
        obtain ⟨original, horiginal, rfl⟩ := exists_of_mem_setFields_normal hfield
        apply ih original horiginal

theorem IsNormal.normal_eq {value : Json} (h : value.IsNormal) :
  value.normal = value
  := by
  induction h with
  | null => rfl
  | bool b => rfl
  | number n => rfl
  | string s => rfl
  | array items h ih =>
      have hitems : items.map normal = items.map id := List.map_congr_left ih
      rw [normal_array, hitems, List.map_id]
  | object fields hsorted h ih =>
      have hfields : fields.map (fun field => (field.1, normal field.2)) = fields.map id := by
        apply List.map_congr_left
        intro field hfield
        rw [ih field hfield]
        rfl
      rw [normal_object, hfields, List.map_id, setFields_of_sorted (by apply hsorted)]
      rfl

/-- Fields stay in order if numbers are replaced by values whose fields are in order. -/
theorem IsNormal.mapNumbers {f : Number → Json} (hf : ∀ n, (f n).IsNormal) {value : Json}
    (h : value.IsNormal) :
  (value.mapNumbers f).IsNormal
  := by
  induction h with
  | null => apply IsNormal.null
  | bool b => apply IsNormal.bool
  | number n => apply hf
  | string s => apply IsNormal.string
  | array items h ih =>
      rw [mapNumbers_array]
      apply IsNormal.array
      intro item hitem
      obtain ⟨original, horiginal, rfl⟩ := List.mem_map.mp hitem
      apply ih original horiginal
  | object fields hsorted h ih =>
      rw [mapNumbers_object]
      apply IsNormal.object
      · rw [Sorted, List.pairwise_map]
        apply hsorted
      · intro field hfield
        obtain ⟨original, horiginal, rfl⟩ := List.mem_map.mp hfield
        apply ih original horiginal

/-! ### Numbers -/

theorem exists_of_mem_numbers_array {n : Number} {items : List Json} (h : n ∈ (array items).numbers) :
  ∃ item ∈ items, n ∈ item.numbers
  := by
  rw [numbers] at h
  induction items with
  | nil => cases h
  | cons first rest ih =>
      rw [numbersOfItems, List.mem_append] at h
      rcases h with h | h
      · use first, List.mem_cons_self
      · obtain ⟨item, hitem, hn⟩ := ih h
        use item, List.mem_cons_of_mem _ hitem

theorem exists_of_mem_numbers_object {n : Number} (h : n ∈ (object fields).numbers) :
  ∃ field ∈ fields, n ∈ field.2.numbers
  := by
  rw [numbers] at h
  induction fields with
  | nil => cases h
  | cons first rest ih =>
      obtain ⟨name, value⟩ := first
      rw [numbersOfFields, List.mem_append] at h
      rcases h with h | h
      · use (name, value), List.mem_cons_self
      · obtain ⟨field, hfield, hn⟩ := ih h
        use field, List.mem_cons_of_mem _ hfield

/-- Putting fields in order gives no new numbers. -/
theorem mem_numbers_of_normal {n : Number} {value : Json} (h : n ∈ value.normal.numbers) :
  n ∈ value.numbers
  := by
  induction value using inductionOn with
  | null => apply h
  | bool b => apply h
  | number m => apply h
  | string s => apply h
  | array items ih =>
      rw [normal_array] at h
      obtain ⟨item, hitem, hn⟩ := exists_of_mem_numbers_array h
      obtain ⟨original, horiginal, rfl⟩ := List.mem_map.mp hitem
      apply mem_numbers_array horiginal (ih original horiginal hn)
  | object fields ih =>
      rw [normal_object] at h
      obtain ⟨field, hfield, hn⟩ := exists_of_mem_numbers_object h
      obtain ⟨original, horiginal, rfl⟩ := exists_of_mem_setFields_normal hfield
      apply mem_numbers_object horiginal (ih original horiginal hn)

end Scrutiny.Json
