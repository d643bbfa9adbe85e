import Scrutiny.Cache.Entry
import Scrutiny.Proofs.Json.RoundTrip
import Scrutiny.Proofs.Text.Utf8

/-!
# Entries and lists in files

An entry of the cache is read from the bytes of its text as it was, up to what becomes of the
doubles in its result, and a list of fingerprints is read as it was.
-/

namespace Scrutiny

open Json

/-- The value in the bytes of the text of a value. -/
theorem Json.ofBytes?_pretty {f : Number → Json} {value : Json}
    (hnumbers : ∀ n ∈ value.numbers, ReadsAs n (f n)) (hdepth : value.depth < levels) :
  ofBytes? (Text.bytesOf value.pretty) = some (value.mapNumbers f)
  := by
  rw [ofBytes?, Text.text?_bytesOf, Option.bind_eq_bind, Option.bind_some,
    readFaithfully_pretty hnumbers hdepth]
  rfl

/-- The value is read back as it was: it is not nested too deeply, has no doubles, and is as all
values are, with whole numbers of 64 bits and the fields of its objects in order. -/
structure Json.IsStorable (value : Json) : Prop where
  depth_le : value.depth ≤ 126
  numbers : ∀ n ∈ value.numbers, ∃ i : Int, n = .int i ∧ -2 ^ 63 ≤ i ∧ i < 2 ^ 64
  normal_eq : value.normal = value

namespace CacheEntry

/-- The bytes of the file of an entry. -/
def bytes (entry : CacheEntry) : List UInt8 :=
  Text.bytesOf entry.toJson.pretty

/-- The entry in the bytes of a file. -/
def ofBytes? (bytes : List UInt8) : Option CacheEntry :=
  (Json.ofBytes? bytes).bind ofJson?

theorem depth_toJson (entry : CacheEntry) :
  entry.toJson.depth = entry.result.depth + 1
  := by
  simp [toJson, depth, depthFields, Json.nat]

theorem mem_numbers_toJson {entry : CacheEntry} {n : Number} (h : n ∈ entry.toJson.numbers) :
  n ∈ entry.result.numbers ∨ n = .int entry.createdAt
  := by
  simpa [toJson, numbers, numbersOfFields, Json.nat] using h

theorem ofJson?_mapNumbers {f : Number → Json} {entry : CacheEntry}
    (hcreated : entry.createdAt < 2 ^ 64)
    (hint : f (.int entry.createdAt) = .number (.int entry.createdAt)) :
  ofJson? (entry.toJson.mapNumbers f) = some { entry with result := (entry.result.mapNumbers f).normal }
  := by
  have hunsigned : unsigned? 64 (.number (.int entry.createdAt)) = some entry.createdAt := by
    rw [unsigned?, nat?, if_pos (Int.natCast_nonneg _), Int.toNat_natCast, Option.filter_some, if_pos]
    apply decide_eq_true hcreated
  simp [toJson, mapNumbers, mapNumbersOfFields, Json.nat, hint, ofJson?, parts?, string?, hunsigned]

/-- An entry is read as it was, up to what its numbers are read as. -/
theorem ofBytes?_bytes {f : Number → Json} {entry : CacheEntry}
    (hdepth : entry.result.depth + 1 < levels) (hcreated : entry.createdAt < 2 ^ 64)
    (hint : f (.int entry.createdAt) = .number (.int entry.createdAt))
    (hnumbers : ∀ n ∈ entry.result.numbers, ReadsAs n (f n)) :
  ofBytes? entry.bytes = some { entry with result := (entry.result.mapNumbers f).normal }
  := by
  rw [ofBytes?, bytes, ofBytes?_pretty (f := f), Option.bind_some, ofJson?_mapNumbers hcreated hint]
  · intro n hn
    rcases mem_numbers_toJson hn with hn | rfl
    · apply hnumbers n hn
    · rw [hint]
      apply readsAs_int <;> omega
  · rw [depth_toJson]
    apply hdepth

theorem ofBytes?_bytes_of_isStorable {entry : CacheEntry} (hresult : entry.result.IsStorable)
    (hcreated : entry.createdAt < 2 ^ 64) :
  ofBytes? entry.bytes = some entry
  := by
  have hnumbers : ∀ n ∈ entry.result.numbers, ReadsAs n (.number n) := by
    intro n hn
    obtain ⟨i, rfl, hlow, hhigh⟩ := hresult.numbers n hn
    apply readsAs_int hlow hhigh
  have hself : entry.result.mapNumbers .number = entry.result := mapNumbers_eq_self fun _ _ => rfl
  rw [ofBytes?_bytes (Nat.lt_of_le_of_lt (Nat.succ_le_succ hresult.depth_le) (by decide)) hcreated rfl
    hnumbers, hself, hresult.normal_eq]

end CacheEntry

namespace ChunkIndex

/-- The bytes of the file of a list. -/
def bytes (index : ChunkIndex) : List UInt8 :=
  Text.bytesOf index.toJson.pretty

/-- The list in the bytes of a file. -/
def ofBytes? (bytes : List UInt8) : Option ChunkIndex :=
  (Json.ofBytes? bytes).bind ofJson?

theorem numbers_toJson (index : ChunkIndex) :
  index.toJson.numbers = []
  := by
  have hitems (texts : List String) : numbersOfItems (texts.map Json.string) = [] := by
    induction texts with
    | nil => rfl
    | cons text rest ih => simp [numbersOfItems, numbers, ih]
  simp [toJson, numbers, numbersOfFields, hitems]

theorem depth_toJson (index : ChunkIndex) :
  index.toJson.depth = 2
  := by
  have hitems (texts : List String) : depthItems (texts.map Json.string) = 0 := by
    induction texts with
    | nil => rfl
    | cons text rest ih => simp [depthItems, depth, ih]
  simp [toJson, depth, depthFields, hitems]

theorem ofJson?_toJson (index : ChunkIndex) :
  ofJson? index.toJson = some index
  := by
  have hitems (texts : List String) : (texts.map Json.string).mapM string? = some texts := by
    induction texts with
    | nil => rfl
    | cons text rest ih => simp [string?, ih]
  simp [toJson, ofJson?, parts?, string?, array?, hitems]

/-- A list is read as it was. -/
theorem ofBytes?_bytes (index : ChunkIndex) :
  ofBytes? index.bytes = some index
  := by
  have hnumbers : ∀ n ∈ index.toJson.numbers, ReadsAs n (.number n) := by
    rw [numbers_toJson]
    intro n hn
    cases hn
  have hself : index.toJson.mapNumbers .number = index.toJson := mapNumbers_eq_self fun _ _ => rfl
  rw [ofBytes?, bytes, ofBytes?_pretty hnumbers, hself, Option.bind_some, ofJson?_toJson]
  rw [depth_toJson]
  decide

end ChunkIndex

end Scrutiny
