import Scrutiny.Cache.Store
import Scrutiny.Proofs.Files.Below

/-!
# Where the cache keeps its files

The digits of a digest make a name.  Each fingerprint has a file of its own, and so has each
digest of a chunk id; no file of the one kind is one of the other kind, and none of them is the
temporary file of another.
-/

namespace Scrutiny

open Scrutiny.Path

namespace Fingerprint

/-- The text has no characters but digits of fingerprints. -/
def IsHex (text : String) : Prop :=
  ∀ c ∈ text.toList, isDigit c

/-- A fingerprint as it is made from a text: 64 digits. -/
structure IsValid (fingerprint : Fingerprint) : Prop where
  length_eq : fingerprint.text.length = 64
  isHex : IsHex fingerprint.text

theorem toNat_of_isDigit {c : Char} (h : isDigit c) :
  48 ≤ c.toNat ∧ c.toNat ≤ 102
  := by
  simp only [isDigit, Char.isDigit, Bool.or_eq_true, Bool.and_eq_true, decide_eq_true_eq,
    ge_iff_le, Char.le_def, UInt32.le_iff_toNat_le] at h
  have hzero : '0'.val.toNat = 48 := rfl
  have hnine : '9'.val.toNat = 57 := rfl
  have ha : 'a'.val.toNat = 97 := rfl
  have hf : 'f'.val.toNat = 102 := rfl
  rw [Char.toNat]
  omega

theorem IsHex.isName {text : String} (h : IsHex text) (hne : text ≠ "") :
  IsName text
  := by
  -- Dots and slashes come before all digits.
  have hmem {c : Char} (hc : c.toNat < 48) : c ∉ text.toList := by
    intro hmem
    apply Nat.not_le.mpr hc (toNat_of_isDigit (h c hmem)).1
  have hdot : text ≠ "." := by
    rintro rfl
    apply hmem (by decide : '.'.toNat < 48) (by decide)
  have hdots : text ≠ ".." := by
    rintro rfl
    apply hmem (by decide : '.'.toNat < 48) (by decide)
  constructor
  · rw [component?, beq_eq_false_iff_ne.mpr hne, beq_eq_false_iff_ne.mpr hdot,
      beq_eq_false_iff_ne.mpr hdots]
    rfl
  · apply hmem (by decide)

theorem utf8ByteSize_ofList {chars : List Char} (h : ∀ c ∈ chars, isDigit c) :
  (String.ofList chars).utf8ByteSize = chars.length
  := by
  induction chars using List.reverseRecOn with
  | nil => rfl
  | append_singleton chars c ih =>
      have hsize : c.utf8Size = 1 := by
        apply Char.utf8Size_eq_one_iff.mpr
        apply UInt32.le_iff_toNat_le.mpr
        apply le_trans (toNat_of_isDigit (h c (by simp))).2 (by decide)
      have hlast : String.ofList [c] = String.singleton c := String.singleton_eq_ofList.symm
      rw [String.ofList_append, String.utf8ByteSize_append, hlast, String.utf8ByteSize_singleton,
        hsize, ih fun d hd => h d (List.mem_append_left _ hd), List.length_append]
      rfl

theorem IsHex.utf8ByteSize_eq {text : String} (h : IsHex text) :
  text.utf8ByteSize = text.length
  := by
  rw [← String.ofList_toList (s := text), utf8ByteSize_ofList h, String.length_ofList]

theorem ofText?_text {fingerprint : Fingerprint} (h : fingerprint.IsValid) :
  ofText? fingerprint.text = some fingerprint
  := by
  rw [ofText?, if_pos]
  rw [Bool.and_eq_true, beq_iff_eq, List.all_eq_true]
  use h.length_eq, h.isHex

theorem of_ofText?_eq_some {text : String} {fingerprint : Fingerprint}
    (h : ofText? text = some fingerprint) :
  fingerprint.text = text ∧ fingerprint.IsValid
  := by
  rw [ofText?] at h
  split at h
  · rename_i hdigits
    rw [Bool.and_eq_true, beq_iff_eq, List.all_eq_true] at hdigits
    obtain rfl := Option.some.inj h
    use rfl, hdigits.1, hdigits.2
  · cases h

end Fingerprint

namespace Sha256

open Fingerprint

theorem isDigit_digitChar {n : Nat} (h : n < 16) :
  isDigit n.digitChar
  := by
  revert n
  decide

theorem isHex_hex (bytes : List UInt8) :
  IsHex (hex bytes)
  := by
  intro c hc
  rw [hex, String.toList_ofList] at hc
  obtain ⟨byte, -, hc⟩ := List.mem_flatMap.mp hc
  have hbyte := byte.toNat_lt
  simp only [hexByte, List.mem_cons, List.not_mem_nil, or_false] at hc
  rcases hc with rfl | rfl
  · apply isDigit_digitChar (by omega)
  · apply isDigit_digitChar (by omega)

theorem length_hex (bytes : List UInt8) :
  (hex bytes).length = 2 * bytes.length
  := by
  rw [hex, String.length_ofList, List.length_flatMap]
  simp [hexByte, mul_comm]

theorem length_digest (bytes : List UInt8) :
  (digest bytes).length = 32
  := by
  simp [digest, highFirst]

/-- The digest of a text has the form of a fingerprint. -/
theorem isValid_hex_digest (bytes : List UInt8) :
  IsValid ⟨hex (digest bytes)⟩
  := by
  constructor
  · rw [length_hex, length_digest]
  · apply isHex_hex

end Sha256

namespace Fingerprint

theorem isValid_compute (source reviewer model : String) (maxTokens : Option Nat) :
  (compute source reviewer model maxTokens).IsValid
  := Sha256.isValid_hex_digest _

theorem isValid_digest (text : String) :
  IsValid ⟨Sha256.ofText text⟩
  := Sha256.isValid_hex_digest _

end Fingerprint

namespace Cache

open Fingerprint

/-- The name of the file for some digits. -/
def fileName (digits : String) : String :=
  digits ++ ".json"

/-- The names that lead to the file of a result, from the folder of the cache on. -/
def entryNames (fingerprint : Fingerprint) : List String :=
  ["entries", fingerprint.shards.1, fingerprint.shards.2, fileName fingerprint.text]

/-- The names that lead to the list of a chunk, from the folder of the cache on. -/
def indexNames (chunkId : String) : List String :=
  ["chunks", String.ofList ((Sha256.ofText chunkId).toList.take 2), fileName (Sha256.ofText chunkId)]

theorem entryPath_eq (cache : Cache) (fingerprint : Fingerprint) :
  cache.entryPath fingerprint = (entryNames fingerprint).foldl join cache.root
  := rfl

theorem indexPath_eq (cache : Cache) (chunkId : String) :
  cache.indexPath chunkId = (indexNames chunkId).foldl join cache.root
  := rfl

/-- A name that can be followed: not too long. -/
structure IsShortName (name : String) : Prop extends IsName name where
  utf8ByteSize_le : name.utf8ByteSize ≤ FileTree.maxName

theorem isShortName_entries :
  IsShortName "entries"
  := ⟨⟨by decide, by decide⟩, by decide⟩

theorem isShortName_chunks :
  IsShortName "chunks"
  := ⟨⟨by decide, by decide⟩, by decide⟩

theorem isShortName_fileName {fingerprint : Fingerprint} (h : fingerprint.IsValid) :
  IsShortName (fileName fingerprint.text)
  := by
  have hne : fingerprint.text ≠ "" := by
    intro hempty
    have hlength := h.length_eq
    rw [hempty] at hlength
    cases hlength
  constructor
  · apply (h.isHex.isName hne).append <;> decide
  · have hending : ".json".utf8ByteSize = 5 := by decide
    rw [fileName, String.utf8ByteSize_append, h.isHex.utf8ByteSize_eq, h.length_eq, hending]
    decide

/-- Two of the digits make a name. -/
theorem isShortName_shard {fingerprint : Fingerprint} (h : fingerprint.IsValid) {n : Nat}
    (hn : n < 64) :
  IsShortName (String.ofList ((fingerprint.text.toList.drop n).take 2))
  := by
  have hdigits : ∀ c ∈ (fingerprint.text.toList.drop n).take 2, isDigit c := by
    intro c hc
    apply h.isHex c (List.mem_of_mem_drop (List.mem_of_mem_take hc))
  have hlength : fingerprint.text.toList.length = 64 := by
    rw [String.length_toList, h.length_eq]
  constructor
  · apply IsHex.isName
    · rw [IsHex, String.toList_ofList]
      apply hdigits
    · intro hempty
      have hnil := congrArg (fun text : String => text.toList.length) hempty
      simp only [String.toList_ofList, List.length_take, List.length_drop, hlength] at hnil
      have hzero : "".toList.length = 0 := rfl
      omega
  · rw [utf8ByteSize_ofList hdigits]
    apply le_trans (List.length_take_le _ _) (by decide)

theorem isShortName_of_mem_entryNames {fingerprint : Fingerprint} (h : fingerprint.IsValid)
    {name : String} (hname : name ∈ entryNames fingerprint) :
  IsShortName name
  := by
  simp only [entryNames, List.mem_cons, List.not_mem_nil, or_false] at hname
  rcases hname with rfl | rfl | rfl | rfl
  · apply isShortName_entries
  · apply isShortName_shard h (n := 0) (by decide)
  · apply isShortName_shard h (by decide)
  · apply isShortName_fileName h

theorem isShortName_of_mem_indexNames {chunkId name : String} (hname : name ∈ indexNames chunkId) :
  IsShortName name
  := by
  have h := isValid_digest chunkId
  simp only [indexNames, List.mem_cons, List.not_mem_nil, or_false] at hname
  rcases hname with rfl | rfl | rfl
  · apply isShortName_chunks
  · apply isShortName_shard h (n := 0) (by decide)
  · apply isShortName_fileName h

/-! ### Different files -/

/-- The last of the names is that of a temporary file. -/
def IsTemporary (names : List String) : Prop :=
  ∃ front name, names = front ++ [name ++ temporaryEnding]

theorem fileName_injective {first second : String} (h : fileName first = fileName second) :
  first = second
  := by
  have hlist := congrArg String.toList h
  rw [fileName, fileName, String.toList_append, String.toList_append] at hlist
  apply String.toList_inj.mp (List.append_cancel_right hlist)

theorem fileName_ne_temporary (digits name : String) :
  fileName digits ≠ name ++ temporaryEnding
  := by
  intro h
  have hlast := congrArg (fun text : String => text.toList.getLast?) h
  simp [fileName, temporaryEnding] at hlast

theorem not_isTemporary_concat_fileName (front : List String) (digits : String) :
  ¬ IsTemporary (front ++ [fileName digits])
  := by
  rintro ⟨front', name, h⟩
  apply fileName_ne_temporary digits name
  apply List.singleton_inj.mp (List.append_inj_right' h rfl)

theorem not_isTemporary_entryNames (names : List String) (fingerprint : Fingerprint) :
  ¬ IsTemporary (names ++ entryNames fingerprint)
  := by
  have hnames : names ++ entryNames fingerprint
      = (names ++ ["entries", fingerprint.shards.1, fingerprint.shards.2])
        ++ [fileName fingerprint.text] := by
    simp [entryNames]
  rw [hnames]
  apply not_isTemporary_concat_fileName

theorem not_isTemporary_indexNames (names : List String) (chunkId : String) :
  ¬ IsTemporary (names ++ indexNames chunkId)
  := by
  have hnames : names ++ indexNames chunkId
      = (names ++ ["chunks", String.ofList ((Sha256.ofText chunkId).toList.take 2)])
        ++ [fileName (Sha256.ofText chunkId)] := by
    simp [indexNames]
  rw [hnames]
  apply not_isTemporary_concat_fileName

theorem entryNames_injective {first second : Fingerprint}
    (h : entryNames first = entryNames second) :
  first = second
  := by
  simp only [entryNames, List.cons.injEq] at h
  have htext := fileName_injective h.2.2.2.1
  cases first
  cases second
  rw [Fingerprint.mk.injEq]
  apply htext

/-- Lists of chunks stand under the digests of their ids. -/
theorem ofText_eq_of_indexNames_eq {first second : String}
    (h : indexNames first = indexNames second) :
  Sha256.ofText first = Sha256.ofText second
  := by
  simp only [indexNames, List.cons.injEq] at h
  apply fileName_injective h.2.2.1

theorem entryNames_ne_indexNames (fingerprint : Fingerprint) (chunkId : String) :
  entryNames fingerprint ≠ indexNames chunkId
  := by
  intro h
  have hlength : 4 = 3 := congrArg List.length h
  omega

/-! ### Where the paths lead -/

section

variable (cache : Cache) (tree : FileTree)

theorem namesOf_entryPath {fingerprint : Fingerprint} (h : fingerprint.IsValid) :
  tree.namesOf (cache.entryPath fingerprint) = tree.base cache.root ++ entryNames fingerprint
  := by
  rw [entryPath_eq]
  apply FileTree.namesOf_foldl_join (List.cons_ne_nil _ _)
  intro name hname
  apply (isShortName_of_mem_entryNames h hname).toIsName

theorem namesOf_indexPath (chunkId : String) :
  tree.namesOf (cache.indexPath chunkId) = tree.base cache.root ++ indexNames chunkId
  := by
  rw [indexPath_eq]
  apply FileTree.namesOf_foldl_join (List.cons_ne_nil _ _)
  intro name hname
  apply (isShortName_of_mem_indexNames hname).toIsName

theorem isTemporary_of_foldl_join {front names : List String} {folder name : String}
    (hnames : names = front ++ [folder, name]) (h : ∀ other ∈ names, IsName other) :
  IsTemporary (tree.namesOf (temporary (names.foldl join cache.root)))
  := by
  subst hnames
  rw [FileTree.namesOf_temporary_foldl_join h]
  use tree.base cache.root ++ (front ++ [folder]), name
  simp

theorem isTemporary_entryPath {fingerprint : Fingerprint} (h : fingerprint.IsValid) :
  IsTemporary (tree.namesOf (temporary (cache.entryPath fingerprint)))
  := by
  have hnames : entryNames fingerprint
      = ["entries", fingerprint.shards.1] ++ [fingerprint.shards.2, fileName fingerprint.text] := rfl
  rw [entryPath_eq]
  apply isTemporary_of_foldl_join cache tree hnames
  intro name hname
  apply (isShortName_of_mem_entryNames h hname).toIsName

theorem isTemporary_indexPath (chunkId : String) :
  IsTemporary (tree.namesOf (temporary (cache.indexPath chunkId)))
  := by
  have hnames : indexNames chunkId = ["chunks"]
      ++ [String.ofList ((Sha256.ofText chunkId).toList.take 2), fileName (Sha256.ofText chunkId)] :=
    rfl
  rw [indexPath_eq]
  apply isTemporary_of_foldl_join cache tree hnames
  intro name hname
  apply (isShortName_of_mem_indexNames hname).toIsName

variable {tree}

theorem toOption_read_entryPath (hsound : tree.Sound) (hreaches : tree.Reaches cache.root)
    {fingerprint : Fingerprint} (h : fingerprint.IsValid) :
  (tree.read (cache.entryPath fingerprint)).toOption
    = tree.file? (tree.base cache.root ++ entryNames fingerprint)
  := by
  apply FileTree.toOption_read_foldl_join hsound hreaches (List.cons_ne_nil _ _)
  · intro name hname
    apply (isShortName_of_mem_entryNames h hname).toIsName
  · intro name hname
    apply (isShortName_of_mem_entryNames h hname).utf8ByteSize_le

theorem toOption_read_indexPath (hsound : tree.Sound) (hreaches : tree.Reaches cache.root)
    (chunkId : String) :
  (tree.read (cache.indexPath chunkId)).toOption
    = tree.file? (tree.base cache.root ++ indexNames chunkId)
  := by
  apply FileTree.toOption_read_foldl_join hsound hreaches (List.cons_ne_nil _ _)
  · intro name hname
    apply (isShortName_of_mem_indexNames hname).toIsName
  · intro name hname
    apply (isShortName_of_mem_indexNames hname).utf8ByteSize_le

end

end Cache

end Scrutiny
