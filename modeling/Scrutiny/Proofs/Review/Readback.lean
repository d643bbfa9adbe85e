import Scrutiny.Proofs.Cache.Reread
import Scrutiny.Review.Issue

/-!
# Replies that are read back

Issues have no doubles in them: where a reply has one, it counts for nothing, and so does null, which
may stand in its place after the reply was written to a file.  So a reply gives the same issues when
it is read back.
-/

namespace Scrutiny

namespace Json

/-- What stands in the place of a number after it was read back. -/
theorem number_reread_cases {n : Number} (h : n.Fits) :
  n.reread = .null ∨ ∃ m, n.reread = .number m
  := by
  cases n with
  | int n =>
      right
      use .int n, reread_int h
  | double bits =>
      rcases reread_double bits with hnull | ⟨bits', hdouble⟩
      · left
        apply hnull
      · right
        use .double bits', hdouble

/-- What a number has not, the value in its place has not either. -/
theorem look_reread_number {β : Type} (look : Json → Option β) {n : Number} (h : n.Fits)
    (hnull : look .null = none) (hnumber : ∀ m, look (.number m) = none) :
  look (number n).reread = look (number n)
  := by
  rw [reread, mapNumbers, hnumber]
  rcases number_reread_cases h with hn | ⟨m, hn⟩
  · rw [hn, hnull]
  · rw [hn, hnumber]

theorem Fits.of_mem_array {items : List Json} {item : Json} (h : (array items).Fits)
    (hitem : item ∈ items) :
  item.Fits
  := fun n hn => h n (mem_numbers_array hitem hn)

theorem Fits.of_field? {value part : Json} {name : String} (h : value.Fits)
    (hpart : value.field? name = some part) :
  part.Fits
  := by
  cases value with
  | object fields =>
      obtain ⟨field, hfield, rfl⟩ := Option.map_eq_some_iff.mp hpart
      intro n hn
      apply h n (mem_numbers_object (List.mem_of_find?_eq_some hfield) hn)
  | _ => cases hpart

variable {value : Json}

theorem field?_reread (h : value.Fits) (name : String) :
  value.reread.field? name = (value.field? name).map reread
  := by
  cases value with
  | number n =>
      exact look_reread_number (field? · name) (h n (List.mem_singleton_self n)) rfl
        fun _ => rfl
  | object fields =>
      rw [reread, mapNumbers_object, field?, field?, List.find?_map]
      change Option.map _ (Option.map _ (fields.find? (·.1 == name))) = _
      rw [Option.map_map, Option.map_map]
      rfl
  | _ => rfl

theorem array?_reread (h : value.Fits) :
  value.reread.array? = value.array?.map (·.map reread)
  := by
  cases value with
  | number n =>
      exact look_reread_number array? (h n (List.mem_singleton_self n)) rfl fun _ => rfl
  | array items =>
      rw [reread, mapNumbers_array]
      rfl
  | _ => rfl

theorem string?_reread (h : value.Fits) :
  value.reread.string? = value.string?
  := by
  cases value with
  | number n =>
      exact look_reread_number string? (h n (List.mem_singleton_self n)) rfl fun _ => rfl
  | array items =>
      rw [reread, mapNumbers_array]
      rfl
  | object fields =>
      rw [reread, mapNumbers_object]
      rfl
  | _ => rfl

/-- A part that is looked at in a way that reading back does not change. -/
theorem bind_field?_reread {β : Type} (h : value.Fits) (name : String) {look : Json → Option β}
    (hlook : ∀ part : Json, part.Fits → look part.reread = look part) :
  (value.reread.field? name).bind look = (value.field? name).bind look
  := by
  rw [field?_reread h]
  cases hpart : value.field? name with
  | none => rfl
  | some part => exact hlook part (h.of_field? hpart)

end Json

namespace Issue

open Json

variable {entry reply : Json}

theorem textUnder?_reread (h : entry.Fits) (names : List String) :
  textUnder? entry.reread names = textUnder? entry names
  := by
  rw [textUnder?, textUnder?]
  congr 1
  funext name
  rw [bind_field?_reread h name fun part hpart => string?_reread hpart]

theorem lineOf?_reread (h : entry.Fits) :
  lineOf? entry.reread = lineOf? entry
  := by
  cases entry with
  | number n =>
      have hfits := h n (List.mem_singleton_self n)
      cases n with
      | int n => rw [reread, mapNumbers, reread_int hfits]
      | double bits =>
          rcases reread_double bits with hdouble | ⟨bits', hdouble⟩
          · rw [reread, mapNumbers, hdouble]
            rfl
          · rw [reread, mapNumbers, hdouble]
            rfl
  | array items =>
      rw [reread, mapNumbers_array]
      rfl
  | object fields =>
      rw [reread, mapNumbers_object]
      rfl
  | _ => rfl

theorem ofItem?_reread (h : entry.Fits) (type : String) :
  ofItem? type entry.reread = ofItem? type entry
  := by
  have hlines : ["line_number_offset", "line_offset", "line_number", "line"].findSome?
        (fun name => (entry.reread.field? name).bind lineOf?)
      = ["line_number_offset", "line_offset", "line_number", "line"].findSome?
        (fun name => (entry.field? name).bind lineOf?) := by
    congr 1
    funext name
    apply bind_field?_reread h name fun part hpart => lineOf?_reread hpart
  have hobject : entry.reread.object?.isSome = entry.object?.isSome := by
    cases entry with
    | number n =>
        rw [look_reread_number object? (h n (List.mem_singleton_self n)) rfl fun _ => rfl]
    | array items =>
        rw [reread, mapNumbers_array]
        rfl
    | object fields =>
        rw [reread, mapNumbers_object]
        rfl
    | _ => rfl
  rw [ofItem?, ofItem?, hlines, textUnder?_reread h, textUnder?_reread h,
    bind_field?_reread h "severity" fun part hpart => string?_reread hpart]
  cases hold : entry.object? with
  | none =>
      rw [hold, Option.isSome_none, Option.isSome_eq_false_iff, Option.isNone_iff_eq_none] at hobject
      rw [hobject]
  | some fields =>
      rw [hold, Option.isSome_some, Option.isSome_iff_exists] at hobject
      obtain ⟨fields', hnew⟩ := hobject
      rw [hnew]
      rfl

/-- A reply that is read back gives the issues that it gave. -/
theorem ofReply?_reread (h : reply.Fits) (type : String) :
  ofReply? reply.reread type = ofReply? reply type
  := by
  rw [ofReply?, ofReply?, field?_reread h]
  cases hissues : reply.field? "issues" with
  | none => rfl
  | some issues =>
      have hfits := h.of_field? hissues
      rw [Option.map_some, Option.bind_some, Option.bind_some, array?_reread hfits]
      cases issues with
      | array items =>
          rw [array?, Option.map_some, Option.map_some, Option.map_some, List.filterMap_map]
          congr 1
          apply List.filterMap_congr
          intro item hitem
          apply ofItem?_reread (hfits.of_mem_array hitem)
      | _ => rfl

end Issue

end Scrutiny
