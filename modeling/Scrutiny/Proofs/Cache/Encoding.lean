import Scrutiny.Proofs.Cache.Names
import Scrutiny.Proofs.Chunk.Ids
import Scrutiny.Proofs.Text.Utf8

/-!
# What a fingerprint tells apart

Each part of the bytes that a fingerprint is the digest of has its length in front of it, so the parts
can be told from the bytes, whatever they hold.  Two different lists of parts have the same fingerprint
only if the digests of two different texts are the same.
-/

namespace Scrutiny

/-! ### Numbers and digits -/

namespace Sha256

theorem digitChar_injective :
  ∀ m < 16, ∀ n < 16, m.digitChar = n.digitChar → m = n
  := by
  decide

theorem hexByte_injective {a b : UInt8} (h : hexByte a = hexByte b) :
  a = b
  := by
  have ha := a.toNat_lt
  have hb := b.toNat_lt
  rw [hexByte, hexByte] at h
  obtain ⟨hhigh, hlow⟩ := List.cons.inj h
  have hquotient := digitChar_injective _ (by omega) _ (by omega) hhigh
  have hremainder := digitChar_injective _ (by omega) _ (by omega) (List.cons.inj hlow).1
  apply UInt8.toNat_inj.mp
  omega

/-- The digits of some bytes tell the bytes. -/
theorem hex_injective :
  Function.Injective hex
  := by
  intro bytes others h
  have hchars := String.ofList_injective h
  induction bytes generalizing others with
  | nil =>
      cases others with
      | nil => rfl
      | cons b others => cases hchars
  | cons a bytes ih =>
      cases others with
      | nil => cases hchars
      | cons b others =>
          rw [List.flatMap_cons, List.flatMap_cons] at hchars
          obtain ⟨hfirst, hrest⟩ := List.append_inj hchars rfl
          rw [hexByte_injective hfirst, ih (congrArg String.ofList hrest) hrest]

end Sha256

namespace Fingerprint

open Text

theorem length_lowFirst (count n : Nat) :
  (lowFirst count n).length = count
  := by
  induction count generalizing n with
  | zero => rfl
  | succ count ih => rw [lowFirst, List.length_cons, ih]

/-- The bytes of a number tell the number, if it has no more bytes than that. -/
theorem lowFirst_injective {count m n : Nat} (hm : m < 256 ^ count) (hn : n < 256 ^ count)
    (h : lowFirst count m = lowFirst count n) :
  m = n
  := by
  induction count generalizing m n with
  | zero => omega
  | succ count ih =>
      rw [pow_succ] at hm hn
      rw [lowFirst, lowFirst] at h
      obtain ⟨hfirst, hrest⟩ := List.cons.inj h
      have hremainder := congrArg UInt8.toNat hfirst
      rw [toNat_ofNat_uint8 (by omega), toNat_ofNat_uint8 (by omega)] at hremainder
      have hquotient := ih (by omega) (by omega) hrest
      omega

/-! ### Parts -/

theorem bytesOf_injective :
  Function.Injective bytesOf
  := by
  intro text other h
  have hread := text?_bytesOf text
  rw [h, text?_bytesOf] at hread
  exact (Option.some.inj hread).symm

theorem length_bytesOf (text : String) :
  (bytesOf text).length = text.utf8ByteSize
  := by
  rw [bytesOf, String.toUTF8_eq_toByteArray, ByteArray.toList, toList_loop]
  simp

/-- The length in front of a part tells where it ends. -/
theorem part_append_inj {text other : String} (htext : text.utf8ByteSize < 2 ^ 64)
    (hother : other.utf8ByteSize < 2 ^ 64) {rest later : List UInt8}
    (h : part text ++ rest = part other ++ later) :
  text = other ∧ rest = later
  := by
  rw [part, part, List.append_assoc, List.append_assoc] at h
  obtain ⟨hlength, hbytes⟩ := List.append_inj h (by rw [length_lowFirst, length_lowFirst])
  rw [length_bytesOf, length_bytesOf] at hlength
  have hsize := lowFirst_injective (by omega) (by omega) hlength
  obtain ⟨htexts, hrest⟩ := List.append_inj hbytes (by rw [length_bytesOf, length_bytesOf, hsize])
  use bytesOf_injective htexts, hrest

/-- A part that nothing follows may be of any length. -/
theorem part_injective :
  Function.Injective part
  := by
  intro text other h
  obtain ⟨-, hbytes⟩ := List.append_inj h (by rw [length_lowFirst, length_lowFirst])
  apply bytesOf_injective hbytes

/-- No bound on the length of a reply is written like a missing one. -/
theorem boundText_injective :
  Function.Injective boundText
  := by
  have hnone (n : Nat) : boundText none ≠ boundText (some n) := by
    intro h
    have hdigit := isDigit_of_mem_toString (n := n) 'n'
    rw [← show boundText (some n) = toString n from rfl, ← h] at hdigit
    exact absurd (hdigit (by decide)) (by decide)
  intro bound other h
  cases bound with
  | none =>
      cases other with
      | none => rfl
      | some n => exact absurd h (hnone n)
  | some m =>
      cases other with
      | none => exact absurd h.symm (hnone m)
      | some n => rw [toString_injective (congrArg String.toList h)]

/-- What a fingerprint is made from, with texts of a size that a machine can count. -/
structure Parts where
  /-- The text that is reviewed. -/
  source : String
  /-- The reviewer. -/
  reviewer : String
  /-- The model that the reviewer asks. -/
  model : String
  /-- The bound on the length of the reply. -/
  maxTokens : Option Nat
  /-- The bytes of each text can be counted with 64 bits. -/
  isCountable : ∀ text ∈ [source, reviewer, model], text.utf8ByteSize < 2 ^ 64

namespace Parts

/-- The bytes that the fingerprint is the digest of. -/
def bytes (parts : Parts) : List UInt8 :=
  input parts.source parts.reviewer parts.model parts.maxTokens

/-- The fingerprint of a review. -/
def fingerprint (parts : Parts) : Fingerprint :=
  compute parts.source parts.reviewer parts.model parts.maxTokens

theorem bytes_eq (parts : Parts) :
  parts.bytes = part parts.source ++ (part parts.reviewer ++ (part parts.model
    ++ part (boundText parts.maxTokens)))
  := by
  rw [bytes, input]
  simp only [List.flatMap_cons, List.flatMap_nil, List.append_nil]

theorem bytes_injective :
  Function.Injective bytes
  := by
  rintro ⟨source, reviewer, model, bound, hparts⟩ ⟨source', reviewer', model', bound', hparts'⟩ h
  rw [bytes_eq, bytes_eq] at h
  simp only [List.forall_mem_cons] at hparts hparts'
  obtain ⟨rfl, h⟩ := part_append_inj hparts.1 hparts'.1 h
  obtain ⟨rfl, h⟩ := part_append_inj hparts.2.1 hparts'.2.1 h
  obtain ⟨rfl, h⟩ := part_append_inj hparts.2.2.1 hparts'.2.2.1 h
  obtain rfl := boundText_injective (part_injective h)
  rfl

/-- The bytes of a fingerprint tell all its parts.  If two different lists of parts have one
fingerprint, then two different lists of bytes have one digest. -/
theorem bytes_eq_iff (parts other : Parts) :
  (parts.bytes = other.bytes ↔ parts = other)
    ∧ (parts.fingerprint = other.fingerprint →
      parts = other
        ∨ parts.bytes ≠ other.bytes ∧ Sha256.digest parts.bytes = Sha256.digest other.bytes)
  := by
  use bytes_injective.eq_iff
  intro h
  by_cases heq : parts = other
  · left
    exact heq
  · right
    use fun hbytes => heq (bytes_injective hbytes)
    apply Sha256.hex_injective (congrArg Fingerprint.text h)

end Parts

end Fingerprint

end Scrutiny
