import Scrutiny.Inference.Reply
import Scrutiny.Proofs.Json.Extension
import Scrutiny.Proofs.Text.Lines

/-!
# Objects with text around them

A reply is often an object with prose or a fence around it.  The object is found whatever its strings
hold and whatever the text around it looks like, as long as no brace opens before it and none closes
after it.
-/

namespace Scrutiny.Reply

open Text

theorem object?_eq_some_iff {text : List Char} {value : Json} :
  object? text = some value ↔ Json.read text = .ok value ∧ ∃ fields, value = .object fields
  := by
  rw [object?]
  split
  · rename_i fields hread
    rw [hread]
    constructor
    · intro h
      obtain rfl := Option.some.inj h
      exact ⟨rfl, fields, rfl⟩
    · rintro ⟨h, -⟩
      rw [Except.ok.inj h]
  · rename_i hother
    constructor
    · intro h
      cases h
    · rintro ⟨h, fields, rfl⟩
      exact absurd h (hother fields)

/-- Only a text whose first character other than blanks is a brace is an object. -/
theorem object?_eq_none_of_ne {c : Char} {rest : List Char} (hblank : isBlank c = false)
    (hbrace : c ≠ '\x7b') :
  object? (c :: rest) = none
  := by
  rw [Option.eq_none_iff_forall_ne_some]
  intro value hvalue
  obtain ⟨hread, fields, rfl⟩ := object?_eq_some_iff.mp hvalue
  obtain ⟨later, hskip⟩ := Json.exists_of_read_eq_object hread
  have hgap : Json.isGap c = false := by
    by_contra hgap
    have hcases : c = ' ' ∨ c = '\n' ∨ c = '\t' ∨ c = '\r' := by
      simpa only [Json.isGap, Bool.not_eq_false, Bool.or_eq_true, beq_iff_eq, or_assoc] using hgap
    rcases hcases with rfl | rfl | rfl | rfl <;> cases hblank
  rw [Json.skipGaps, List.dropWhile_cons_of_neg (by simp [hgap])] at hskip
  exact hbrace (List.cons.inj hskip).1

/-- An object with blanks after it is the object; with anything else after it it is none. -/
theorem object?_append {rest : List Char} {value : Json} (h : object? ('\x7b' :: rest) = some value)
    (back : List Char) :
  object? ('\x7b' :: (rest ++ back)) = some value ∨ object? ('\x7b' :: (rest ++ back)) = none
  := by
  obtain ⟨hread, hfields⟩ := object?_eq_some_iff.mp h
  have hlonger := Json.toOption_read_brace_append hread back
  cases hfound : object? ('\x7b' :: (rest ++ back)) with
  | none => right; rfl
  | some other =>
      left
      rw [(object?_eq_some_iff.mp hfound).1] at hlonger
      split at hlonger
      · exact congrArg some (Option.some.inj hlonger)
      · cases hlonger

section

variable {front text back : List Char}

/-- The braces at the ends of a text are found if no brace opens before it and none closes after
it. -/
theorem braced?_wrapped (hstart : text.head? = some '\x7b') (hend : text.getLast? = some '\x7d')
    (hfront : '\x7b' ∉ front) (hback : '\x7d' ∉ back) :
  braced? (front ++ text ++ back) = some text
  := by
  have hfrom : (front ++ text ++ back).dropWhile (· != '\x7b') = text ++ back := by
    obtain ⟨rest, rfl⟩ := List.head?_eq_some_iff.mp hstart
    rw [List.append_assoc, List.dropWhile_append_of_pos]
    · rfl
    · intro c hc
      rw [bne_iff_ne]
      rintro rfl
      exact hfront hc
  have hto : ((text ++ back).reverse.dropWhile (· != '\x7d')).reverse = text := by
    obtain ⟨rest, rfl⟩ := List.getLast?_eq_some_iff.mp hend
    rw [List.reverse_append, List.dropWhile_append_of_pos]
    · rw [List.reverse_append, List.reverse_singleton, List.singleton_append,
        List.dropWhile_cons_of_neg (by simp)]
      simp
    · intro c hc
      rw [bne_iff_ne]
      rintro rfl
      exact hback (List.mem_reverse.mp hc)
  have hne : text.isEmpty = false := by
    rw [List.isEmpty_eq_false_iff]
    rintro rfl
    cases hstart
  rw [braced?, hfrom, hto, hne, if_neg Bool.false_ne_true]

theorem infix_of_braced?_eq_some {part : List Char} (h : braced? text = some part) :
  part <:+: text
  := by
  rw [braced?] at h
  split at h
  · cases h
  · obtain rfl := Option.some.inj h
    apply List.IsInfix.trans (List.rdropWhile_prefix (· != '\x7d') _).isInfix
    apply (List.dropWhile_suffix _).isInfix

/-- The whole of a text around an object is no object, unless it is that object. -/
theorem object?_trim_wrapped {value : Json} (hstart : text.head? = some '\x7b')
    (hend : text.getLast? = some '\x7d') (hvalue : object? text = some value)
    (hfront : '\x7b' ∉ front) :
  object? (trim (front ++ text ++ back)) = some value ∨ object? (trim (front ++ text ++ back)) = none
  := by
  rw [List.append_assoc]
  cases hrest : trimStart front with
  | nil =>
      -- The text around the object starts with it, and the end of it decides.
      have hblank : ∀ c ∈ front, isBlank c := List.dropWhile_eq_nil_iff.mp hrest
      obtain ⟨rest, rfl⟩ := List.head?_eq_some_iff.mp hstart
      have htrimmed : trim (front ++ ('\x7b' :: rest ++ back)) = '\x7b' :: (rest ++ trimEnd back) := by
        rw [trim, trimStart_append_of_forall hblank, trimStart, List.cons_append,
          List.dropWhile_cons_of_neg (by decide), ← List.cons_append, trimEnd_append hend (by decide)]
        rfl
      rw [htrimmed]
      apply object?_append hvalue
  | cons c rest =>
      have hmem : c ∈ front := by
        apply (List.dropWhile_suffix isBlank).mem
        rw [← trimStart, hrest]
        apply List.mem_cons_self
      have hwhole : trimStart (front ++ (text ++ back)) = c :: (rest ++ (text ++ back)) := by
        rw [trimStart, List.dropWhile_append, ← trimStart, hrest]
        rfl
      obtain ⟨hblank, later, htrim⟩ := exists_trim_eq_cons hwhole
      right
      rw [htrim]
      apply object?_eq_none_of_ne hblank
      rintro rfl
      exact hfront hmem

end

/-- An object with text around it is found, if no brace opens before it and none closes after it.
Whatever is found in a reply is an object that some part of the reply is read as. -/
theorem objectIn?_wrapped :
  (∀ (front text back : List Char) (fields : List (String × Json)), text.head? = some '\x7b' →
      text.getLast? = some '\x7d' → Json.read text = .ok (.object fields) → '\x7b' ∉ front →
      '\x7d' ∉ back → objectIn? (front ++ text ++ back) = some (.object fields))
    ∧ ∀ (reply : List Char) (value : Json), objectIn? reply = some value →
      (∃ fields, value = .object fields) ∧ ∃ part, part <:+: reply ∧ Json.read part = .ok value
  := by
  constructor
  · intro front text back fields hstart hend hread hfront hback
    have hvalue : object? text = some (.object fields) :=
      object?_eq_some_iff.mpr ⟨hread, fields, rfl⟩
    rw [objectIn?, braced?_wrapped hstart hend hfront hback, Option.bind_some, hvalue]
    have hwhole : object? (trim (front ++ text ++ back)) = some (.object fields)
        ∨ object? (trim (front ++ text ++ back)) = none :=
      object?_trim_wrapped hstart hend hvalue hfront
    rcases hwhole with hwhole | hwhole
    · rw [hwhole]
      rfl
    · rw [hwhole]
      rfl
  · intro reply value h
    rcases Option.or_eq_some_iff.mp h with hwhole | ⟨-, hpart⟩
    · obtain ⟨hread, hfields⟩ := object?_eq_some_iff.mp hwhole
      use hfields, trim reply, trim_infix reply
    · obtain ⟨part, hbraced, hobject⟩ := Option.bind_eq_some_iff.mp hpart
      obtain ⟨hread, hfields⟩ := object?_eq_some_iff.mp hobject
      use hfields, part, infix_of_braced?_eq_some hbraced

/-- An object with braces and a quotation mark in a string, in a fence with a list before it and a brace
that opens after it. -/
theorem objectIn?_wrapped_fenced :
  Json.read "\x7b\"a\": \"\x7d\\\"\x7b\"\x7d".toList = .ok (.object [("a", .string "\x7d\"\x7b")])
    ∧ objectIn? ("[1]:\n```json\n".toList ++ "\x7b\"a\": \"\x7d\\\"\x7b\"\x7d".toList ++ "\n```\x7b".toList)
      = some (.object [("a", .string "\x7d\"\x7b")])
  := by
  have hread : Json.read "\x7b\"a\": \"\x7d\\\"\x7b\"\x7d".toList
      = .ok (.object [("a", .string "\x7d\"\x7b")]) := by
    cbv
  use hread
  apply objectIn?_wrapped.1 _ _ _ _ rfl rfl hread (by decide) (by decide)

end Scrutiny.Reply
