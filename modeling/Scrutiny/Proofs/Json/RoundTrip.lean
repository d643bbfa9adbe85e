import Mathlib.Algebra.Ring.Int.Defs
import Mathlib.Algebra.Ring.Nat
import Scrutiny.Proofs.Json.Scalars
import Scrutiny.Proofs.Json.Value

/-!
# Written values read back

The text of a value, with one item a line, is read as that value if it is nested at most 127
levels deep.  This holds of whole numbers as they are; a double is read as whatever its text is
read as, so the general statement is about the value with the numbers that were read.
-/

namespace Scrutiny.Json

/-! ### Blanks between values -/

theorem skipGaps_newLine (level : Nat) (text : List Char) :
  skipGaps (newLine level ++ text) = skipGaps text
  := by
  have hblanks (count : Nat) : skipGaps (List.replicate count ' ' ++ text) = skipGaps text := by
    induction count with
    | zero => rfl
    | succ count ih =>
        rw [List.replicate_succ, List.cons_append, skipGaps, List.dropWhile_cons_of_pos (by decide)]
        apply ih
  rw [newLine, List.cons_append, skipGaps, List.dropWhile_cons_of_pos (by decide)]
  apply hblanks

theorem skipGaps_cons {c : Char} (hc : isGap c = false) (rest : List Char) :
  skipGaps (c :: rest) = c :: rest
  := by
  rw [skipGaps, List.dropWhile_cons_of_neg (by simp [hc])]

/-- A text starts like a value: with no blank and not with the end of an array. -/
def StartsValue (text : List Char) : Prop :=
  ∃ c rest, text = c :: rest ∧ isGap c = false ∧ c ≠ ']'

theorem StartsValue.append {text : List Char} (h : StartsValue text) (rest : List Char) :
  StartsValue (text ++ rest)
  := by
  obtain ⟨c, later, rfl, hc⟩ := h
  use c, later ++ rest, rfl

theorem StartsValue.skipGaps_eq {text : List Char} (h : StartsValue text) :
  skipGaps text = text
  := by
  obtain ⟨c, later, rfl, hc, -⟩ := h
  apply skipGaps_cons hc

theorem readValue_gap (depth : Nat) (text : List Char) :
  readValue (depth + 1) (' ' :: text) = readValue (depth + 1) text
  := by
  have hskip : skipGaps (' ' :: text) = skipGaps text := by
    rw [skipGaps, List.dropWhile_cons_of_pos (by decide)]
    rfl
  rw [readValue, hskip, readValue]

theorem endsNumber_newLine (level : Nat) (text : List Char) :
  EndsNumber (newLine level ++ text)
  := by
  intro c hc
  obtain rfl : '\n' = c := by simpa [newLine] using hc
  decide

theorem endsNumber_comma (text : List Char) :
  EndsNumber (',' :: text)
  := by
  intro c hc
  obtain rfl : ',' = c := by simpa using hc
  decide

/-! ### Numbers -/

/-- The text of a number is read as a value. -/
structure ReadsAs (number : Number) (value : Json) : Prop where
  /-- The text starts like a value. -/
  starts : StartsValue (numberText number)
  /-- The value is read, unless what follows would make the number longer. -/
  reads : ∀ depth rest, EndsNumber rest →
    readValue (depth + 1) (numberText number ++ rest) = .ok (value, rest)

theorem isGap_of_isDigit {c : Char} (h : c.isDigit) :
  isGap c = false
  := by
  by_contra hgap
  simp only [isGap, Bool.not_eq_false, Bool.or_eq_true, beq_iff_eq] at hgap
  rcases hgap with ((rfl | rfl) | rfl) | rfl <;> simp at h

theorem readValue_of_isDigit {c : Char} (h : c.isDigit) (depth : Nat) (rest : List Char) :
  readValue (depth + 1) (c :: rest)
    = (readNumber false (c :: rest)).map fun (n, later) => (.number n, later)
  := by
  rw [readValue, skipGaps_cons (isGap_of_isDigit h)]
  dsimp only
  split
  case h_8 => rw [if_pos h]
  all_goals simp at h

theorem toDigits_cons (n : Nat) :
  ∃ c rest, Nat.toDigits 10 n = c :: rest ∧ c.isDigit
  := by
  obtain ⟨c, rest, heq⟩ := List.exists_cons_of_ne_nil (Nat.toDigits_ne_nil (n := n) (b := 10))
  use c, rest, heq
  apply Nat.isDigit_of_mem_toDigits (n := n) (b := 10) (by omega) (by omega)
  rw [heq]
  apply List.mem_cons_self

/-- A whole number that can be held reads back. -/
theorem readsAs_int {n : Int} (hlow : -2 ^ 63 ≤ n) (hhigh : n < 2 ^ 64) :
  ReadsAs (.int n) (.number (.int n))
  := by
  have htext : numberText (.int n) = n.repr.toList := rfl
  rw [Int.repr_eq_if] at htext
  split at htext
  · rename_i hpos
    obtain ⟨c, rest, heq, hc⟩ := toDigits_cons n.toNat
    rw [Nat.toList_repr] at htext
    constructor
    · rw [htext, heq]
      use c, rest, rfl, isGap_of_isDigit hc
      rintro rfl
      simp at hc
    · intro depth later hlater
      have hread := readNumber_toDigits false (n := n.toNat) (by simp only [maxWhole, Nat.pow_eq]; omega)
        hlater.endsDigits
      rw [heq] at hread
      rw [htext, heq, List.cons_append, readValue_of_isDigit hc, ← List.cons_append, hread,
        readNumberTail_of_endsNumber _ _ hlater]
      have : ((n.toNat : Nat) : Int) = n := Int.toNat_of_nonneg hpos
      simp [Except.map, this]
  · rename_i hneg
    rw [String.toList_append, Nat.toList_repr] at htext
    constructor
    · rw [htext]
      use '-', Nat.toDigits 10 (-n).toNat, rfl
      decide
    · intro depth later hlater
      have hmax : (-n).toNat ≤ maxWhole := by
        simp only [maxWhole, Nat.pow_eq]
        omega
      have hread := readNumber_toDigits true hmax hlater.endsDigits
      have hcond : ((-n).toNat == 0 || decide (Nat.pow 2 63 < (-n).toNat)) = false := by
        simp only [Nat.pow_eq, Bool.or_eq_false_iff, beq_eq_false_iff_ne, decide_eq_false_iff_not]
        omega
      have hvalue : -(((-n).toNat : Nat) : Int) = n := by omega
      rw [readNumberTail_of_endsNumber _ _ hlater, hcond] at hread
      rw [htext, List.append_assoc]
      change readValue (depth + 1) ('-' :: (Nat.toDigits 10 (-n).toNat ++ later)) = _
      rw [readValue, skipGaps_cons (by decide)]
      dsimp only
      rw [hread, hvalue]
      rfl

/-! ### Arrays -/

/-- The first item of an array, and those after it. -/
theorem readItems_first {value : List Char → Reading Json} {fuel : Nat}
    {text body later after : List Char} {v : Json} {vs : List Json} (hskip : skipGaps text = body)
    (hbody : StartsValue body) (hvalue : value body = .ok (v, later))
    (hlater : readItems value false fuel later = .ok (vs, after)) :
  readItems value true (fuel + 1) text = .ok (v :: vs, after)
  := by
  obtain ⟨c, rest, rfl, -, hc⟩ := hbody
  rw [readItems, hskip]
  split
  · contradiction
  · rename_i heq
    cases hc (List.cons.inj heq).1
  · rename_i heq
    obtain ⟨rfl, rfl⟩ := List.cons.inj heq
    rw [if_pos rfl]
    dsimp only
    rw [hvalue]
    dsimp only
    rw [hlater]

/-- An item of an array after a comma, and those after it. -/
theorem readItems_comma {value : List Char → Reading Json} {fuel : Nat}
    {text body later after : List Char} {v : Json} {vs : List Json} (hskip : skipGaps text = body)
    (hbody : StartsValue body) (hvalue : value body = .ok (v, later))
    (hlater : readItems value false fuel later = .ok (vs, after)) :
  readItems value false (fuel + 1) (',' :: text) = .ok (v :: vs, after)
  := by
  obtain ⟨c, rest, rfl, -, hc⟩ := hbody
  rw [readItems, skipGaps_cons (by decide)]
  split
  · contradiction
  · rename_i heq
    simp at heq
  · rename_i heq
    obtain ⟨rfl, rfl⟩ := List.cons.inj heq
    rw [if_neg (by decide), if_pos (by decide), hskip]
    split
    · contradiction
    · rename_i heq
      cases hc (List.cons.inj heq).1
    · dsimp only
      rw [hvalue]
      dsimp only
      rw [hlater]

/-- The texts of the items of an array after the first one, each after a comma. -/
def laterItems (level : Nat) : List Json → List Char
  | [] => []
  | item :: rest => ',' :: (newLine level ++ (prettyAt level item ++ laterItems level rest))

theorem prettyItems_cons (level : Nat) (item : Json) (rest : List Json) :
  prettyItems level (item :: rest)
    = newLine level ++ (prettyAt level item ++ laterItems level rest)
  := by
  induction rest generalizing item with
  | nil => rw [prettyItems, laterItems, List.append_nil]
  | cons next rest ih =>
      rw [prettyItems, ih, laterItems, List.append_assoc]
      simp

theorem length_le_length_laterItems (level : Nat) (items : List Json) :
  items.length ≤ (laterItems level items).length
  := by
  induction items with
  | nil => apply Nat.le_refl
  | cons item rest ih =>
      simp only [laterItems, List.length_cons, List.length_append]
      omega

theorem endsNumber_laterItems (level outer : Nat) (items : List Json) (rest : List Char) :
  EndsNumber (laterItems level items ++ (newLine outer ++ rest))
  := by
  cases items with
  | nil => apply endsNumber_newLine
  | cons item items =>
      rw [laterItems, List.cons_append]
      apply endsNumber_comma

/-- Items that are read one by one are read up to the end of their array. -/
theorem readItems_laterItems {value : List Char → Reading Json} {g : Json → Json} {level : Nat}
    (outer : Nat) {items : List Json} (hstarts : ∀ item ∈ items, StartsValue (prettyAt level item))
    (hvalue : ∀ item ∈ items, ∀ rest, EndsNumber rest →
      value (prettyAt level item ++ rest) = .ok (g item, rest))
    (rest : List Char) {fuel : Nat} (hfuel : items.length < fuel) :
  readItems value false fuel (laterItems level items ++ (newLine outer ++ ']' :: rest))
    = .ok (items.map g, rest)
  := by
  induction items generalizing fuel with
  | nil =>
      obtain ⟨fuel, rfl⟩ := Nat.exists_eq_succ_of_ne_zero (Nat.ne_of_gt hfuel)
      rw [laterItems, List.nil_append, readItems, skipGaps_newLine, skipGaps_cons (by decide)]
      rfl
  | cons item items ih =>
      obtain ⟨fuel, rfl⟩ := Nat.exists_eq_succ_of_ne_zero (Nat.ne_of_gt (Nat.lt_of_le_of_lt
        (Nat.zero_le _) hfuel))
      obtain ⟨hitem, hstarts⟩ := List.forall_mem_cons.mp hstarts
      obtain ⟨hread, hvalue⟩ := List.forall_mem_cons.mp hvalue
      have hbody := hitem.append (laterItems level items ++ (newLine outer ++ ']' :: rest))
      rw [laterItems, List.cons_append, List.append_assoc, List.append_assoc, List.map_cons]
      apply readItems_comma _ hbody
      · apply hread
        apply endsNumber_laterItems
      · apply ih hstarts hvalue (Nat.lt_of_succ_lt_succ hfuel)
      · rw [skipGaps_newLine, hbody.skipGaps_eq]

/-- The items of an array are read up to its end. -/
theorem readItems_prettyItems {value : List Char → Reading Json} {g : Json → Json} {level : Nat}
    (outer : Nat) {item : Json} {items : List Json}
    (hstarts : ∀ v ∈ item :: items, StartsValue (prettyAt level v))
    (hvalue : ∀ v ∈ item :: items, ∀ rest, EndsNumber rest →
      value (prettyAt level v ++ rest) = .ok (g v, rest)) (rest : List Char) :
  readItems value true
      ((prettyItems level (item :: items) ++ (newLine outer ++ ']' :: rest)).length + 1)
      (prettyItems level (item :: items) ++ (newLine outer ++ ']' :: rest))
    = .ok ((item :: items).map g, rest)
  := by
  obtain ⟨hitem, hstarts⟩ := List.forall_mem_cons.mp hstarts
  obtain ⟨hread, hvalue⟩ := List.forall_mem_cons.mp hvalue
  have hbody := hitem.append (laterItems level items ++ (newLine outer ++ ']' :: rest))
  have hlength := length_le_length_laterItems level items
  rw [prettyItems_cons, List.append_assoc, List.append_assoc, List.map_cons]
  apply readItems_first _ hbody
  · apply hread
    apply endsNumber_laterItems
  · apply readItems_laterItems outer hstarts hvalue
    simp only [newLine, List.length_append, List.length_cons]
    omega
  · rw [skipGaps_newLine, hbody.skipGaps_eq]

/-! ### Objects -/

/-- The text of a field. -/
def fieldText (level : Nat) (field : String × Json) : List Char :=
  stringText field.1 ++ ':' :: ' ' :: prettyAt level field.2

/-- The texts of the fields of an object after the first one, each after a comma. -/
def laterFields (level : Nat) : List (String × Json) → List Char
  | [] => []
  | field :: rest => ',' :: (newLine level ++ (fieldText level field ++ laterFields level rest))

theorem prettyFields_cons (level : Nat) (field : String × Json) (rest : List (String × Json)) :
  prettyFields level (field :: rest)
    = newLine level ++ (fieldText level field ++ laterFields level rest)
  := by
  induction rest generalizing field with
  | nil =>
      rw [prettyFields, laterFields, fieldText, List.append_nil, List.append_assoc]
  | cons next rest ih =>
      rw [prettyFields, ih, laterFields]
      · simp [fieldText]
      · simp

theorem length_le_length_laterFields (level : Nat) (fields : List (String × Json)) :
  fields.length ≤ (laterFields level fields).length
  := by
  induction fields with
  | nil => apply Nat.le_refl
  | cons field rest ih =>
      simp only [laterFields, List.length_cons, List.length_append]
      omega

theorem endsNumber_laterFields (level outer : Nat) (fields : List (String × Json))
    (rest : List Char) :
  EndsNumber (laterFields level fields ++ (newLine outer ++ rest))
  := by
  cases fields with
  | nil => apply endsNumber_newLine
  | cons field fields =>
      rw [laterFields, List.cons_append]
      apply endsNumber_comma

/-- The characters of a field after its first quotation mark. -/
theorem fieldText_append (level : Nat) (field : String × Json) (rest : List Char) :
  fieldText level field ++ rest
    = '"' :: (field.1.toList.flatMap escapeChar
      ++ '"' :: ':' :: ' ' :: (prettyAt level field.2 ++ rest))
  := by
  simp [fieldText, stringText]

/-- The first field of an object, and those after it. -/
theorem readFields_first {value : List Char → Reading Json} {fuel level : Nat}
    {field : String × Json} {text rest later after : List Char} {v : Json}
    {fields : List (String × Json)} (hskip : skipGaps text = fieldText level field ++ rest)
    (hvalue : value (' ' :: (prettyAt level field.2 ++ rest)) = .ok (v, later))
    (hlater : readFields value false fuel later = .ok (fields, after)) :
  readFields value true (fuel + 1) text = .ok ((field.1, v) :: fields, after)
  := by
  rw [fieldText_append] at hskip
  rw [readFields, hskip]
  split
  · contradiction
  · rename_i heq
    simp at heq
  · rename_i heq
    obtain ⟨rfl, rfl⟩ := List.cons.inj heq
    rw [if_pos rfl, if_pos (by decide)]
    dsimp only
    rw [readString_stringText]
    dsimp only
    rw [skipGaps_cons (by decide)]
    split
    · contradiction
    · rename_i heq
      obtain ⟨-, rfl⟩ := List.cons.inj heq
      rw [hvalue]
      dsimp only
      rw [hlater]
    · rename_i hcolon
      cases hcolon _ rfl

/-- A field of an object after a comma, and those after it. -/
theorem readFields_comma {value : List Char → Reading Json} {fuel level : Nat}
    {field : String × Json} {text rest later after : List Char} {v : Json}
    {fields : List (String × Json)} (hskip : skipGaps text = fieldText level field ++ rest)
    (hvalue : value (' ' :: (prettyAt level field.2 ++ rest)) = .ok (v, later))
    (hlater : readFields value false fuel later = .ok (fields, after)) :
  readFields value false (fuel + 1) (',' :: text) = .ok ((field.1, v) :: fields, after)
  := by
  rw [fieldText_append] at hskip
  rw [readFields, skipGaps_cons (by decide)]
  split
  · contradiction
  · rename_i heq
    simp at heq
  · rename_i heq
    obtain ⟨rfl, rfl⟩ := List.cons.inj heq
    rw [if_neg (by decide), if_pos (by decide), hskip]
    split
    · contradiction
    · rename_i heq
      obtain ⟨-, rfl⟩ := List.cons.inj heq
      dsimp only
      rw [readString_stringText]
      dsimp only
      rw [skipGaps_cons (by decide)]
      split
      · contradiction
      · rename_i heq
        obtain ⟨-, rfl⟩ := List.cons.inj heq
        rw [hvalue]
        dsimp only
        rw [hlater]
      · rename_i hcolon
        cases hcolon _ rfl
    · rename_i heq
      simp at heq
    · rename_i hquote _
      cases hquote _ rfl

theorem skipGaps_fieldText (level outer : Nat) (field : String × Json) (rest : List Char) :
  skipGaps (newLine outer ++ (fieldText level field ++ rest)) = fieldText level field ++ rest
  := by
  rw [skipGaps_newLine, fieldText_append, skipGaps_cons (by decide)]

/-- Fields whose values are read one by one are read up to the end of their object. -/
theorem readFields_laterFields {value : List Char → Reading Json} {g : Json → Json} {level : Nat}
    (outer : Nat) {fields : List (String × Json)}
    (hvalue : ∀ field ∈ fields, ∀ rest, EndsNumber rest →
      value (' ' :: (prettyAt level field.2 ++ rest)) = .ok (g field.2, rest))
    (rest : List Char) {fuel : Nat} (hfuel : fields.length < fuel) :
  readFields value false fuel (laterFields level fields ++ (newLine outer ++ '\x7d' :: rest))
    = .ok (fields.map fun field => (field.1, g field.2), rest)
  := by
  induction fields generalizing fuel with
  | nil =>
      obtain ⟨fuel, rfl⟩ := Nat.exists_eq_succ_of_ne_zero (Nat.ne_of_gt hfuel)
      rw [laterFields, List.nil_append, readFields, skipGaps_newLine, skipGaps_cons (by decide)]
      rfl
  | cons field fields ih =>
      obtain ⟨fuel, rfl⟩ := Nat.exists_eq_succ_of_ne_zero (Nat.ne_of_gt (Nat.lt_of_le_of_lt
        (Nat.zero_le _) hfuel))
      obtain ⟨hread, hvalue⟩ := List.forall_mem_cons.mp hvalue
      rw [laterFields, List.cons_append, List.append_assoc, List.append_assoc, List.map_cons]
      apply readFields_comma (skipGaps_fieldText _ _ _ _)
      · apply hread
        apply endsNumber_laterFields
      · apply ih hvalue (Nat.lt_of_succ_lt_succ hfuel)

/-- The fields of an object are read up to its end. -/
theorem readFields_prettyFields {value : List Char → Reading Json} {g : Json → Json} {level : Nat}
    (outer : Nat) {field : String × Json} {fields : List (String × Json)}
    (hvalue : ∀ f ∈ field :: fields, ∀ rest, EndsNumber rest →
      value (' ' :: (prettyAt level f.2 ++ rest)) = .ok (g f.2, rest)) (rest : List Char) :
  readFields value true
      ((prettyFields level (field :: fields) ++ (newLine outer ++ '\x7d' :: rest)).length + 1)
      (prettyFields level (field :: fields) ++ (newLine outer ++ '\x7d' :: rest))
    = .ok ((field :: fields).map fun f => (f.1, g f.2), rest)
  := by
  obtain ⟨hread, hvalue⟩ := List.forall_mem_cons.mp hvalue
  have hlength := length_le_length_laterFields level fields
  rw [prettyFields_cons, List.append_assoc, List.append_assoc, List.map_cons]
  apply readFields_first (skipGaps_fieldText _ _ _ _)
  · apply hread
    apply endsNumber_laterFields
  · apply readFields_laterFields outer hvalue
    simp only [newLine, List.length_append, List.length_cons]
    omega

/-! ### Values -/

theorem prettyAt_array_append (level : Nat) (item : Json) (items : List Json) (rest : List Char) :
  prettyAt level (.array (item :: items)) ++ rest
    = '[' :: (prettyItems (level + 1) (item :: items) ++ (newLine level ++ ']' :: rest))
  := by
  simp [prettyAt]

theorem prettyAt_object_append (level : Nat) (field : String × Json)
    (fields : List (String × Json)) (rest : List Char) :
  prettyAt level (.object (field :: fields)) ++ rest
    = '\x7b' :: (prettyFields (level + 1) (field :: fields) ++ (newLine level ++ '\x7d' :: rest))
  := by
  simp [prettyAt]

theorem startsValue_prettyAt {f : Number → Json} (level : Nat) {value : Json}
    (hnumbers : ∀ n ∈ value.numbers, ReadsAs n (f n)) :
  StartsValue (prettyAt level value)
  := by
  cases value with
  | null => use 'n', "ull".toList, rfl, by decide, by decide
  | bool b =>
      cases b with
      | false => use 'f', "alse".toList, rfl, by decide, by decide
      | true => use 't', "rue".toList, rfl, by decide, by decide
  | number n =>
      rw [prettyAt]
      apply (hnumbers n (List.mem_singleton_self n)).starts
  | string s => use '"', s.toList.flatMap escapeChar ++ ['"'], rfl, by decide, by decide
  | array items =>
      cases items with
      | nil => use '[', [']'], rfl, by decide, by decide
      | cons item items =>
          have h := prettyAt_array_append level item items []
          rw [List.append_nil] at h
          rw [h]
          use '[', prettyItems (level + 1) (item :: items) ++ (newLine level ++ [']']), rfl
          decide
  | object fields =>
      cases fields with
      | nil => use '\x7b', ['\x7d'], rfl, by decide, by decide
      | cons field fields =>
          have h := prettyAt_object_append level field fields []
          rw [List.append_nil] at h
          rw [h]
          use '\x7b', prettyFields (level + 1) (field :: fields) ++ (newLine level ++ ['\x7d']), rfl
          decide

/-- The text of a value is read as the value with the numbers that are read. -/
theorem readValue_prettyAt {f : Number → Json} (level : Nat) {depth : Nat} {value : Json}
    (hnumbers : ∀ n ∈ value.numbers, ReadsAs n (f n)) (hdepth : value.depth < depth)
    {rest : List Char} (hrest : EndsNumber rest) :
  readValue depth (prettyAt level value ++ rest) = .ok (value.mapNumbers f, rest)
  := by
  obtain ⟨depth, rfl⟩ := Nat.exists_eq_succ_of_ne_zero (Nat.ne_of_gt (Nat.lt_of_le_of_lt
    (Nat.zero_le _) hdepth))
  induction value using inductionOn generalizing level depth rest with
  | null => rfl
  | bool b => cases b <;> rfl
  | number n =>
      rw [prettyAt]
      apply (hnumbers n (List.mem_singleton_self n)).reads depth rest hrest
  | string s =>
      have htext : prettyAt level (.string s) ++ rest
          = '"' :: (s.toList.flatMap escapeChar ++ '"' :: rest) := by
        simp [prettyAt, stringText]
      rw [htext, readValue, skipGaps_cons (by decide)]
      dsimp only
      rw [readString_stringText]
      rfl
  | array items ih =>
      obtain ⟨depth, rfl⟩ := Nat.exists_eq_succ_of_ne_zero
        (Nat.ne_of_gt (Nat.lt_of_lt_of_le (depth_array_pos items) (Nat.le_of_lt_succ hdepth)))
      cases items with
      | nil => rfl
      | cons item items =>
          have hitems : ∀ v ∈ item :: items, ∀ n ∈ v.numbers, ReadsAs n (f n) :=
            fun v hv n hn => hnumbers n (mem_numbers_array hv hn)
          have hread := readItems_prettyItems level
            (fun v hv => startsValue_prettyAt (level + 1) (hitems v hv))
            (fun v hv rest hrest => ih v hv (level + 1) (hitems v hv) hrest depth
              (Nat.lt_of_lt_of_le (depth_lt_of_mem_array hv) (Nat.le_of_lt_succ hdepth))) rest
          rw [prettyAt_array_append, readValue, skipGaps_cons (by decide), mapNumbers_array]
          dsimp only
          rw [if_neg (by simp), hread]
          rfl
  | object fields ih =>
      obtain ⟨depth, rfl⟩ := Nat.exists_eq_succ_of_ne_zero
        (Nat.ne_of_gt (Nat.lt_of_lt_of_le (depth_object_pos fields) (Nat.le_of_lt_succ hdepth)))
      cases fields with
      | nil => rfl
      | cons field fields =>
          have hfields : ∀ v ∈ field :: fields, ∀ n ∈ v.2.numbers, ReadsAs n (f n) :=
            fun v hv n hn => hnumbers n (mem_numbers_object hv hn)
          have hvalue : ∀ v ∈ field :: fields, ∀ rest, EndsNumber rest →
              readValue (depth + 1) (' ' :: (prettyAt (level + 1) v.2 ++ rest))
                = .ok (v.2.mapNumbers f, rest) := by
            intro v hv rest hrest
            rw [readValue_gap]
            apply ih v hv (level + 1) (hfields v hv) hrest depth
            apply Nat.lt_of_lt_of_le (depth_lt_of_mem_object hv) (Nat.le_of_lt_succ hdepth)
          have hread := readFields_prettyFields level hvalue rest
          rw [prettyAt_object_append, readValue, skipGaps_cons (by decide), mapNumbers_object]
          dsimp only
          rw [if_neg (by simp), hread]
          rfl

/-- The text of a value that is not nested too deeply is read as the value with the numbers that
are read. -/
theorem readFaithfully_pretty {f : Number → Json} {value : Json}
    (hnumbers : ∀ n ∈ value.numbers, ReadsAs n (f n)) (hdepth : value.depth < levels) :
  readFaithfully value.pretty.toList = .ok (value.mapNumbers f)
  := by
  have hends : EndsNumber [] := fun c hc => by cases hc
  have hread := readValue_prettyAt 0 hnumbers hdepth hends
  rw [List.append_nil] at hread
  rw [readFaithfully, pretty, String.toList_ofList, hread]
  rfl

end Scrutiny.Json
