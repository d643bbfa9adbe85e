import Scrutiny.Proofs.Cache.Store
import Scrutiny.Proofs.Json.Depth
import Scrutiny.Proofs.Json.Doubles

/-!
# Results that are read again

What becomes of a value that is written to a file and read again, and of a result that is stored and
looked up.
-/

/-!
## What becomes of a value in a file

A value that is written to a file and read again has its whole numbers as they were.  A double is
read as whatever its text is read as: another double, or null.
-/

namespace Scrutiny.Json

/-- What the text of a number is read as. -/
def Number.reread (n : Number) : Json :=
  match readValue 1 (numberText n) with
  | .ok (value, _) => value
  | .error _ => .null

/-- What the text of a value is read as. -/
def reread (value : Json) : Json :=
  value.mapNumbers Number.reread

/-! ### Numbers -/

theorem ReadsAs.reread_eq {n : Number} {value : Json} (h : ReadsAs n value) :
  n.reread = value
  := by
  have hread := h.reads 0 [] fun c hc => by cases hc
  rw [List.append_nil] at hread
  rw [Number.reread, hread]

theorem reread_int {n : Int} (h : (Number.int n).Fits) :
  (Number.int n).reread = .number (.int n)
  := (readsAs_int h.1 h.2).reread_eq

theorem reread_double (bits : UInt64) :
  (Number.double bits).reread = .null
    ∨ ∃ bits', (Number.double bits).reread = .number (.double bits')
  := by
  obtain ⟨value, hreads, hvalue⟩ := exists_readsAs_double bits
  rw [hreads.reread_eq]
  apply hvalue

theorem readsAs_reread {n : Number} (h : n.Fits) :
  ReadsAs n n.reread
  := by
  cases n with
  | int n =>
      rw [reread_int h]
      apply readsAs_int h.1 h.2
  | double bits =>
      obtain ⟨value, hreads, -⟩ := exists_readsAs_double bits
      rw [hreads.reread_eq]
      apply hreads

theorem depth_number_reread (n : Number) :
  n.reread.depth = 0
  := by
  rw [Number.reread]
  split
  · rename_i value rest hread
    apply Nat.lt_one_iff.mp (gives_depth_readValue 1 _ _ _ hread)
  · rfl

theorem isNormal_of_depth_eq {value : Json} (h : value.depth = 0) :
  value.IsNormal
  := by
  cases value with
  | null => apply IsNormal.null
  | bool b => apply IsNormal.bool
  | number n => apply IsNormal.number
  | string s => apply IsNormal.string
  | array items => cases Nat.ne_of_gt (depth_array_pos items) h
  | object fields => cases Nat.ne_of_gt (depth_object_pos fields) h

/-! ### Values -/

theorem depth_reread (value : Json) :
  value.reread.depth = value.depth
  := depth_mapNumbers depth_number_reread value

theorem IsNormal.reread {value : Json} (h : value.IsNormal) :
  value.reread.IsNormal
  := h.mapNumbers fun n => isNormal_of_depth_eq (depth_number_reread n)

/-- All numbers in a value are whole. -/
def IsWhole (value : Json) : Prop :=
  ∀ n ∈ value.numbers, ∃ i, n = .int i

/-- A value without doubles is read as it was. -/
theorem IsWhole.reread_eq {value : Json} (h : value.IsWhole) (hfits : value.Fits) :
  value.reread = value
  := by
  apply mapNumbers_eq_self
  intro n hn
  obtain ⟨i, rfl⟩ := h n hn
  apply reread_int (hfits _ hn)

/-- The text of a value is read unless the value is nested too deeply. -/
theorem toOption_readFaithfully_pretty_reread {value : Json} (hfits : value.Fits) :
  (readFaithfully value.pretty.toList).toOption
    = if value.depth < levels then some value.reread else none
  := toOption_readFaithfully_pretty depth_number_reread fun n hn => readsAs_reread (hfits n hn)

end Scrutiny.Json

/-!
## Results that are found again

The entry of a result is nested one level deeper than the result.  A result that is nested at most
126 levels deep is found after it was stored, up to what becomes of its doubles; one that is nested
more deeply is not.
-/

namespace Scrutiny

open Json FileAction

namespace CacheEntry

/-- An entry is read up to what becomes of the numbers in its result, unless it is nested too
deeply. -/
theorem ofBytes?_bytes_eq {entry : CacheEntry} (hnormal : entry.result.IsNormal)
    (hfits : entry.result.Fits) (hcreated : entry.createdAt < 2 ^ 64) :
  ofBytes? entry.bytes
    = if entry.result.depth ≤ 126 then some { entry with result := entry.result.reread } else none
  := by
  have hint : (Number.int entry.createdAt).Fits := ⟨by omega, by omega⟩
  have hjson : entry.toJson.Fits := by
    intro n hn
    rcases mem_numbers_toJson hn with hn | rfl
    · apply hfits n hn
    · apply hint
  have hlevels : levels = 128 := rfl
  rw [ofBytes?, bytes, Json.ofBytes?, Text.text?_bytesOf, Option.bind_eq_bind, Option.bind_some,
    toOption_readFaithfully_pretty_reread hjson, depth_toJson]
  by_cases hdepth : entry.result.depth ≤ 126
  · rw [if_pos hdepth, if_pos (by omega), Option.bind_some, Json.reread,
      ofJson?_mapNumbers hcreated (reread_int hint)]
    rw [← Json.reread, hnormal.reread.normal_eq]
  · rw [if_neg hdepth, if_neg (by omega), Option.bind_none]

theorem ofBytes?_bytes_ofKey (key : CacheKey) {result : Json} (hnormal : result.IsNormal)
    (hfits : result.Fits) {now : Nat} (hnow : now < 2 ^ 64) :
  ofBytes? (ofKey key result now).bytes
    = if result.depth ≤ 126 then some (ofKey key result.reread now) else none
  := ofBytes?_bytes_eq hnormal hfits hnow

end CacheEntry

namespace Cache

variable {cache : Cache} {tree next : FileTree}

/-- The list of a chunk is no part of a result: no file of a result changes with it. -/
theorem read_entryPath_of_addToIndex (hsound : tree.Sound) {chunkId : String}
    {fingerprint other : Fingerprint} (hvalid : other.IsValid)
    (h : cache.addToIndex chunkId fingerprint tree = (.ok (), next)) {bytes : List UInt8}
    (hread : tree.read (cache.entryPath other) = .ok bytes) :
  next.read (cache.entryPath other) = .ok bytes
  := by
  rcases of_addToIndex_eq_ok hsound rfl h with ⟨-, rfl⟩ | ⟨-, hindex⟩
  · apply hread
  · apply FileTree.read_of_keeps hindex.toKeeps hsound _ hread
    apply hindex.file?_eq
    · rw [namesOf_entryPath cache tree hvalid, namesOf_indexPath]
      intro heq
      apply entryNames_ne_indexNames other chunkId (List.append_cancel_left heq)
    · rw [namesOf_entryPath cache tree hvalid]
      intro heq
      apply not_isTemporary_entryNames (tree.base cache.root) other
      rw [heq]
      apply isTemporary_indexPath

theorem lookup_of_read {fingerprint : Fingerprint} {bytes : List UInt8}
    (h : tree.read (cache.entryPath fingerprint) = .ok bytes) :
  cache.lookup tree fingerprint
    = (CacheEntry.ofBytes? bytes).filter (·.fingerprint == fingerprint.text)
  := by
  rw [lookup, h]
  change (CacheEntry.ofBytes? bytes).bind _ = _
  cases CacheEntry.ofBytes? bytes with
  | none => rfl
  | some entry =>
      rw [Option.bind_some, Option.filter_some]

/-- What is found after a result was stored. -/
theorem lookup_of_store (hsound : tree.Sound) {key : CacheKey} (hkey : key.fingerprint.IsValid)
    {result : Json} (hnormal : result.IsNormal) (hfits : result.Fits) {now : Nat}
    (hnow : now < 2 ^ 64) {entry : CacheEntry}
    (h : cache.store key result now tree = (.ok entry, next)) :
  cache.lookup next key.fingerprint
    = if result.depth ≤ 126 then some (CacheEntry.ofKey key result.reread now) else none
  := by
  obtain ⟨rfl, middle, hreplaces, hadd⟩ := of_store_eq_ok hsound h
  have hread := read_entryPath_of_addToIndex hreplaces.sound hkey hadd hreplaces.read_eq
  rw [lookup_of_read hread, CacheEntry.ofBytes?_bytes_ofKey key hnormal hfits hnow]
  split
  · rw [Option.filter_some, if_pos]
    apply beq_self_eq_true
  · rfl

end Cache

end Scrutiny
