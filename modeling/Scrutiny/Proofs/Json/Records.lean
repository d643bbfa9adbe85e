import Mathlib.Data.List.Nodup
import Scrutiny.Chunk.Record
import Scrutiny.Proofs.Cache.Entry
import Scrutiny.Proofs.Json.Normal
import Scrutiny.Review.Issue

/-!
# Records read back

A chunk and an issue are read from their JSON values as they were, in whatever order the fields
stand, and from the texts of these values.
-/

namespace Scrutiny

namespace Json

variable {fields : List (String × Json)}

/-! ### Parts of records -/

theorem unsigned?_nat {n bits : Nat} (h : n < 2 ^ bits) :
  unsigned? bits (.nat n) = some n
  := by
  rw [unsigned?, nat, nat?, if_pos (Int.natCast_nonneg n), Int.toNat_natCast, Option.filter_some, if_pos]
  apply decide_eq_true h

theorem optional?_map_string (text? : Option String) :
  optional? string? (text?.map .string) = some text?
  := by
  cases text? <;> rfl

theorem optional?_map_nat {n? : Option Nat} {bits : Nat} (h : ∀ n, n? = some n → n < 2 ^ bits) :
  optional? (unsigned? bits) (n?.map .nat) = some n?
  := by
  cases n? with
  | none => rfl
  | some n => exact congrArg (Option.map some) (unsigned?_nat (h n rfl))

/-- The parts of a record whose fields have different names. -/
theorem parts?_object (h : (fields.map Prod.fst).Nodup) (names : List String) :
  parts? names (.object fields) = some (names.map (field? (.object fields)))
  := by
  rw [parts?, if_pos]
  · rfl
  · apply List.all_eq_true.mpr
    intro name _
    apply decide_eq_true
    have hcount : fields.countP (·.1 == name) = (fields.map Prod.fst).count name := by
      rw [List.count, List.countP_map]
      rfl
    rw [hcount]
    apply List.nodup_iff_count_le_one.mp h

theorem Sorted.nodup (h : Sorted fields) :
  (fields.map Prod.fst).Nodup
  := List.pairwise_map.mpr (h.imp fun hlt => ne_of_lt hlt)

/-- A record is read from the same parts if its fields are put in order. -/
theorem parts?_normal (h : (fields.map Prod.fst).Nodup)
    (hvalues : ∀ field ∈ fields, field.2.normal = field.2) (names : List String) :
  parts? names (object fields).normal = parts? names (.object fields)
  := by
  rw [parts?_object h, normal_object, parts?_object (sorted_setFields List.Pairwise.nil).nodup,
    ← normal_object]
  congr 2
  funext name
  rw [field?_normal h]
  cases hfield : (object fields).field? name with
  | none => rfl
  | some value =>
      rw [field?] at hfield
      obtain ⟨field, hfound, rfl⟩ := Option.map_eq_some_iff.mp hfield
      rw [Option.map_some, hvalues field (List.mem_of_find?_eq_some hfound)]

/-- A value whose numbers are whole, not negative and have 64 bits is read from its text. -/
theorem ofBytes?_pretty_self {value : Json}
    (hnumbers : ∀ n ∈ value.numbers, ∃ k : Nat, n = .int k ∧ k < 2 ^ 64)
    (hdepth : value.depth < levels) :
  ofBytes? (Text.bytesOf value.pretty) = some value
  := by
  have hreads : ∀ n ∈ value.numbers, ReadsAs n (.number n) := by
    intro n hn
    obtain ⟨k, rfl, hk⟩ := hnumbers n hn
    apply readsAs_int <;> omega
  have hself : value.mapNumbers .number = value := mapNumbers_eq_self fun _ _ => rfl
  rw [ofBytes?_pretty hreads hdepth, hself]

/-- A record is read from its value, from this value with its fields in order, and from the bytes of
its text. -/
structure IsReadAs {α : Type} (read : Json → Option α) (value : Json) (record : α) : Prop where
  value_eq : read value = some record
  normal_eq : read value.normal = some record
  bytes_eq : (ofBytes? (Text.bytesOf value.pretty)).bind read = some record

theorem isReadAs_of_value {α : Type} {read : Json → Option α} {value : Json} {record : α}
    (hself : read value = some record) (hnormal : read value.normal = read value)
    (hnumbers : ∀ n ∈ value.numbers, ∃ k : Nat, n = .int k ∧ k < 2 ^ 64)
    (hdepth : value.depth < levels) :
  IsReadAs read value record
  := by
  use hself
  · rw [hnormal, hself]
  · rw [ofBytes?_pretty_self hnumbers hdepth, Option.bind_some, hself]

end Json

open Json

/-! ### Chunks -/

theorem ChunkKind.ofJson?_toJson (kind : ChunkKind) :
  ofJson? kind.toJson = some kind
  := by
  cases kind <;> decide

namespace Chunk

theorem ofJson?_toJson {chunk : Chunk} (h : chunk.startLine < 2 ^ 64) :
  ofJson? chunk.toJson = some chunk
  := by
  simp [toJson, ofJson?, parts?, string?, unsigned?_nat h, ChunkKind.ofJson?_toJson]

theorem ofJson?_normal (chunk : Chunk) :
  ofJson? chunk.toJson.normal = ofJson? chunk.toJson
  := by
  rw [ofJson?, ofJson?, toJson, parts?_normal]
  · simp
  · simp [normal, nat, ChunkKind.toJson]

theorem numbers_toJson (chunk : Chunk) :
  chunk.toJson.numbers = [.int chunk.startLine]
  := by
  simp [toJson, numbers, numbersOfFields, nat, ChunkKind.toJson]

theorem depth_toJson (chunk : Chunk) :
  chunk.toJson.depth = 1
  := by
  simp [toJson, depth, depthFields, nat, ChunkKind.toJson]

/-- A chunk is read as it was written. -/
theorem isReadAs_toJson {chunk : Chunk} (h : chunk.startLine < 2 ^ 64) :
  IsReadAs ofJson? chunk.toJson chunk
  := by
  apply isReadAs_of_value (ofJson?_toJson h) chunk.ofJson?_normal
  · intro n hn
    rw [numbers_toJson] at hn
    use chunk.startLine, List.mem_singleton.mp hn
  · rw [depth_toJson]
    decide

end Chunk

/-! ### Issues -/

theorem Severity.ofJson?_toJson (severity : Severity) :
  ofJson? severity.toJson = some severity
  := by
  cases severity <;> decide

namespace Issue

/-- The fields of an issue. -/
theorem exists_toJson_eq_object (issue : Issue) :
  ∃ fields, issue.toJson = .object fields ∧ (fields.map Prod.fst).Nodup
    ∧ ∀ field ∈ fields, field.2.normal = field.2
  := by
  obtain ⟨type, severity, description, suggestion, offset, line⟩ := issue
  refine ⟨_, rfl, ?_, ?_⟩
  · cases suggestion <;> cases line <;> simp
  · cases suggestion <;> cases line <;> simp [normal, nat, Severity.toJson]

theorem parts?_toJson (issue : Issue) :
  issue.toJson.parts? partNames
    = some [some (.string issue.type), some issue.severity.toJson, some (.string issue.description),
        issue.suggestion.map .string, some (.nat issue.lineOffset), issue.absoluteLine.map .nat]
  := by
  obtain ⟨type, severity, description, suggestion, offset, line⟩ := issue
  cases suggestion <;> cases line <;> simp [toJson, parts?, partNames]

theorem ofJson?_toJson {issue : Issue} (hoffset : issue.lineOffset < 2 ^ 64)
    (hline : ∀ line, issue.absoluteLine = some line → line < 2 ^ 64) :
  ofJson? issue.toJson = some issue
  := by
  rw [ofJson?, parts?_toJson]
  simp [string?, Severity.ofJson?_toJson, unsigned?_nat hoffset, optional?_map_string,
    optional?_map_nat hline]

theorem ofJson?_normal (issue : Issue) :
  ofJson? issue.toJson.normal = ofJson? issue.toJson
  := by
  obtain ⟨fields, heq, hnodup, hvalues⟩ := issue.exists_toJson_eq_object
  rw [ofJson?, ofJson?, heq, parts?_normal hnodup hvalues]

theorem mem_numbers_toJson {issue : Issue} {n : Number} (h : n ∈ issue.toJson.numbers) :
  n = .int issue.lineOffset ∨ ∃ line, issue.absoluteLine = some line ∧ n = .int line
  := by
  obtain ⟨type, severity, description, suggestion, offset, line⟩ := issue
  cases suggestion <;> cases line <;>
    simpa [toJson, numbers, numbersOfFields, nat, Severity.toJson] using h

theorem depth_toJson (issue : Issue) :
  issue.toJson.depth = 1
  := by
  obtain ⟨type, severity, description, suggestion, offset, line⟩ := issue
  cases suggestion <;> cases line <;> simp [toJson, depth, depthFields, nat, Severity.toJson]

/-- An issue is read as it was written, with or without a suggestion and a line in the file. -/
theorem isReadAs_toJson {issue : Issue} (hoffset : issue.lineOffset < 2 ^ 64)
    (hline : ∀ line, issue.absoluteLine = some line → line < 2 ^ 64) :
  IsReadAs ofJson? issue.toJson issue
  := by
  apply isReadAs_of_value (ofJson?_toJson hoffset hline) issue.ofJson?_normal
  · intro n hn
    rcases mem_numbers_toJson hn with rfl | ⟨line, hsome, rfl⟩
    · use issue.lineOffset, rfl
    · use line, rfl
      apply hline line hsome
  · rw [depth_toJson]
    decide

end Issue

end Scrutiny
