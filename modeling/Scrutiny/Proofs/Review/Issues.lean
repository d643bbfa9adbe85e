import Mathlib.Data.List.Forall2
import Mathlib.Tactic.Use
import Scrutiny.Proofs.InOrder
import Scrutiny.Proofs.Json.Normal
import Scrutiny.Proofs.Review.Readback
import Scrutiny.Proofs.Text.Lines
import Scrutiny.Review.Issue

/-!
# The issues in a reply

A reply has issues if it has a list of them, one for each item of the list that says what is wrong.
What is taken from an item is in a normal form: texts are trimmed and not blank, and each part has
one name.  So the issues, put together as a reply of their own, are the issues of that reply, and
writing the reply and reading it again does not change this.
-/

namespace Scrutiny

/-! ### Whole numbers -/

namespace Text

theorem lt_of_readDigits {bound n line : Nat} (h : n < bound) {digits : List Char}
    (hread : readDigits bound n digits = .ok line) :
  line < bound
  := by
  induction digits generalizing n with
  | nil =>
      obtain rfl := Except.ok.inj hread
      apply h
  | cons c rest ih =>
      rw [readDigits] at hread
      split at hread
      · cases hread
      · dsimp only at hread
        split at hread
        · rename_i hnext
          apply ih hnext hread
        · cases hread

theorem lt_of_readWhole {bits line : Nat} {digits : List Char}
    (h : readWhole bits digits = .ok line) :
  line < Nat.pow 2 bits
  := by
  have hzero : 0 < Nat.pow 2 bits := Nat.two_pow_pos bits
  unfold readWhole at h
  split at h
  · cases h
  · cases h
  · apply lt_of_readDigits hzero h
  · apply lt_of_readDigits hzero h

end Text

open Text

/-- The name of a severity is a label of it. -/
theorem Severity.ofLabel_name (severity : Severity) :
  ofLabel severity.name = severity
  := by
  cases severity <;> decide

namespace Issue

open Json

variable {entry reply : Json} {names : List String} {name text type : String} {issue : Issue}

/-! ### Texts and lines in an item -/

/-- No text that says something stands under the name. -/
def IsSilent (entry : Json) (name : String) : Prop :=
  ∀ raw, entry.field? name = some (.string raw) → isBlankText raw.toList = true

/-- The text is that under the first of the names which says something, trimmed. -/
def IsTextUnder (entry : Json) (names : List String) (text : String) : Prop :=
  ∃ before name after raw, names = before ++ name :: after
    ∧ (∀ other ∈ before, IsSilent entry other) ∧ entry.field? name = some (.string raw)
    ∧ isBlankText raw.toList = false ∧ text = String.ofList (trim raw.toList)

/-- The text of a part with a name, if it says something. -/
def saidUnder? (entry : Json) (name : String) : Option String :=
  ((entry.field? name).bind Json.string?).bind fun text =>
    let trimmed := trim text.toList
    if trimmed.isEmpty then none else some (String.ofList trimmed)

theorem saidUnder?_eq_some_iff :
  saidUnder? entry name = some text
    ↔ ∃ raw, entry.field? name = some (.string raw) ∧ isBlankText raw.toList = false
      ∧ text = String.ofList (trim raw.toList)
  := by
  have hblank (raw : String) :
      isBlankText raw.toList = false ↔ ¬ (trim raw.toList).isEmpty = true := by
    rw [Bool.eq_false_iff, ne_eq, isBlankText_iff, List.isEmpty_iff]
  rw [saidUnder?]
  constructor
  · intro h
    obtain ⟨raw, hraw, h⟩ := Option.bind_eq_some_iff.mp h
    obtain ⟨value, hvalue, hstring⟩ := Option.bind_eq_some_iff.mp hraw
    cases value with
    | string found =>
        obtain rfl := Option.some.inj hstring
        obtain ⟨hfull, heq⟩ := Option.ite_none_left_eq_some.mp h
        use found, hvalue, (hblank found).mpr hfull, (Option.some.inj heq).symm
    | _ => cases hstring
  · rintro ⟨raw, hvalue, hfull, rfl⟩
    rw [hvalue, Option.bind_some, string?, Option.bind_some, if_neg ((hblank raw).mp hfull)]

theorem saidUnder?_eq_none_iff :
  saidUnder? entry name = none ↔ IsSilent entry name
  := by
  rw [Option.eq_none_iff_forall_ne_some]
  constructor
  · intro h raw hraw
    apply Bool.not_eq_false _ |>.mp
    intro hfull
    apply h _ (saidUnder?_eq_some_iff.mpr ⟨raw, hraw, hfull, rfl⟩)
  · intro h text htext
    obtain ⟨raw, hraw, hfull, -⟩ := saidUnder?_eq_some_iff.mp htext
    rw [h raw hraw] at hfull
    cases hfull

theorem textUnder?_eq_some_iff :
  textUnder? entry names = some text ↔ IsTextUnder entry names text
  := by
  change names.findSome? (saidUnder? entry) = some text ↔ _
  rw [List.findSome?_eq_some_iff]
  constructor
  · rintro ⟨before, name, after, hnames, hsaid, hbefore⟩
    obtain ⟨raw, hraw⟩ := saidUnder?_eq_some_iff.mp hsaid
    use before, name, after, raw, hnames
    use fun other hother => saidUnder?_eq_none_iff.mp (hbefore other hother)
  · rintro ⟨before, name, after, raw, hnames, hbefore, hraw⟩
    use before, name, after, hnames, saidUnder?_eq_some_iff.mpr ⟨raw, hraw⟩
    intro other hother
    apply saidUnder?_eq_none_iff.mpr (hbefore other hother)

theorem textUnder?_eq_none_iff :
  textUnder? entry names = none ↔ ∀ name ∈ names, IsSilent entry name
  := by
  change names.findSome? (saidUnder? entry) = none ↔ _
  rw [List.findSome?_eq_none_iff]
  simp only [saidUnder?_eq_none_iff]

/-- A text that was trimmed and is not blank. -/
def IsTrimmed (text : String) : Prop :=
  trim text.toList = text.toList ∧ isBlankText text.toList = false

theorem IsTextUnder.isTrimmed (h : IsTextUnder entry names text) :
  IsTrimmed text
  := by
  obtain ⟨before, name, after, raw, -, -, -, hfull, rfl⟩ := h
  rw [IsTrimmed, String.toList_ofList]
  use trim_trim raw.toList
  rw [isBlankText_trim, hfull]

/-- What was trimmed is said as it is. -/
theorem IsTrimmed.textUnder? (h : IsTrimmed text) (hfield : entry.field? name = some (.string text))
    (names : List String) :
  textUnder? entry (name :: names) = some text
  := by
  apply textUnder?_eq_some_iff.mpr
  use [], name, names, text, rfl, by simp, hfield, h.2
  rw [h.1, String.ofList_toList]

/-- A line is the one that the first of the names gives, or the first line of the chunk. -/
def IsLineUnder (entry : Json) (names : List String) (line : Nat) : Prop :=
  (∃ before name after value, names = before ++ name :: after
      ∧ (∀ other ∈ before, ∀ value, entry.field? other = some value → lineOf? value = none)
      ∧ entry.field? name = some value ∧ lineOf? value = some line)
    ∨ (line = 0 ∧ ∀ name ∈ names, ∀ value, entry.field? name = some value → lineOf? value = none)

theorem isLineUnder_getD (entry : Json) (names : List String) :
  IsLineUnder entry names
    ((names.findSome? fun name => (entry.field? name).bind lineOf?).getD 0)
  := by
  cases hfound : names.findSome? fun name => (entry.field? name).bind lineOf? with
  | none =>
      right
      use rfl
      intro name hname value hvalue
      have hnone := List.findSome?_eq_none_iff.mp hfound name hname
      rwa [hvalue] at hnone
  | some line =>
      left
      obtain ⟨before, name, after, hnames, hline, hbefore⟩ := List.findSome?_eq_some_iff.mp hfound
      obtain ⟨value, hvalue, hline⟩ := Option.bind_eq_some_iff.mp hline
      use before, name, after, value, hnames
      use (fun other hother value hvalue => by
        have hnone := hbefore other hother
        rwa [hvalue] at hnone), hvalue, hline

/-! ### The issue of an item -/

/-- The names under which an item may say what is wrong. -/
def descriptionNames : List String := ["description", "message", "issue", "problem"]

/-- The names under which an item may say how it could be mended. -/
def suggestionNames : List String := ["suggestion", "fix", "recommendation"]

/-- The names under which an item may tell the line. -/
def lineNames : List String := ["line_number_offset", "line_offset", "line_number", "line"]

/-- Whether an item is an object that says what is wrong. -/
def isDescribed (entry : Json) : Bool :=
  descriptionNames.any fun name =>
    match entry.field? name with
    | some (.string raw) => !isBlankText raw.toList
    | _ => false

/-- The issue is what an item says. -/
structure IsToldBy (type : String) (entry : Json) (issue : Issue) : Prop where
  /-- The type is the one that was asked for. -/
  type_eq : issue.type = type
  /-- What is wrong. -/
  description : IsTextUnder entry descriptionNames issue.description
  /-- How it could be mended, if the item says so. -/
  suggestion : ∀ text, issue.suggestion = some text ↔ IsTextUnder entry suggestionNames text
  /-- A known label tells how serious the issue is. -/
  severity : ∀ label, entry.field? "severity" = some (.string label) →
    issue.severity = .ofLabel label
  /-- Without a label the issue is mild. -/
  severity_eq_low : (∀ label, entry.field? "severity" ≠ some (.string label)) →
    issue.severity = .low
  /-- The line within the chunk. -/
  line : IsLineUnder entry lineNames issue.lineOffset
  /-- The line within the file is not known. -/
  absoluteLine_eq : issue.absoluteLine = none

theorem isDescribed_iff :
  isDescribed entry ↔ ∃ text, textUnder? entry descriptionNames = some text
  := by
  rw [← Option.isSome_iff_exists, ← not_iff_not, Bool.not_eq_true, Bool.not_eq_true,
    Option.isSome_eq_false_iff, Option.isNone_iff_eq_none, textUnder?_eq_none_iff, isDescribed,
    List.any_eq_false]
  apply forall₂_congr
  intro name hname
  rw [IsSilent]
  cases entry.field? name with
  | none => simp
  | some value => cases value <;> simp

/-- Only an object says something. -/
theorem exists_object?_of_textUnder? (h : textUnder? entry names = some text) :
  ∃ fields, entry.object? = some fields
  := by
  obtain ⟨before, name, after, raw, -, -, hraw, -⟩ := textUnder?_eq_some_iff.mp h
  cases entry with
  | object fields => exact ⟨fields, rfl⟩
  | _ => cases hraw

/-- The label of an item. -/
def severityOf (entry : Json) : Severity :=
  match (entry.field? "severity").bind Json.string? with
  | some label => .ofLabel label
  | none => .low

theorem ofItem?_eq_some_iff :
  ofItem? type entry = some issue
    ↔ ∃ description, textUnder? entry descriptionNames = some description
      ∧ issue = { type, severity := severityOf entry, description,
                  suggestion := textUnder? entry suggestionNames,
                  lineOffset := (lineNames.findSome? fun name =>
                    (entry.field? name).bind lineOf?).getD 0,
                  absoluteLine := none }
  := by
  rw [ofItem?]
  constructor
  · intro h
    obtain ⟨fields, -, h⟩ := Option.bind_eq_some_iff.mp h
    obtain ⟨description, hdescription, h⟩ := Option.bind_eq_some_iff.mp h
    exact ⟨description, hdescription, (Option.some.inj h).symm⟩
  · rintro ⟨description, hdescription, rfl⟩
    obtain ⟨fields, hfields⟩ := exists_object?_of_textUnder? hdescription
    rw [hfields, Option.bind_eq_bind, Option.bind_some]
    change (textUnder? entry descriptionNames).bind _ = _
    rw [hdescription]
    rfl

theorem isSome_ofItem? (type : String) (entry : Json) :
  (ofItem? type entry).isSome = isDescribed entry
  := by
  rw [Bool.eq_iff_iff, isDescribed_iff, Option.isSome_iff_exists]
  constructor
  · rintro ⟨issue, h⟩
    obtain ⟨description, hdescription, -⟩ := ofItem?_eq_some_iff.mp h
    use description, hdescription
  · rintro ⟨description, hdescription⟩
    exact ⟨_, ofItem?_eq_some_iff.mpr ⟨description, hdescription, rfl⟩⟩

theorem isToldBy_of_ofItem? (h : ofItem? type entry = some issue) :
  IsToldBy type entry issue
  := by
  obtain ⟨description, hdescription, rfl⟩ := ofItem?_eq_some_iff.mp h
  constructor
  · rfl
  · apply textUnder?_eq_some_iff.mp hdescription
  · intro text
    apply textUnder?_eq_some_iff
  · intro label hlabel
    dsimp only
    rw [severityOf, hlabel]
    rfl
  · intro hnone
    dsimp only
    rw [severityOf]
    cases hfield : entry.field? "severity" with
    | none => rfl
    | some value =>
        cases value with
        | string label => cases hnone label hfield
        | _ => rfl
  · apply isLineUnder_getD
  · rfl

/-- The items of a list that say what is wrong give one issue each, in order. -/
theorem forall₂_isToldBy (type : String) (items : List Json) :
  List.Forall₂ (IsToldBy type) (items.filter isDescribed) (items.filterMap (ofItem? type))
  := by
  induction items with
  | nil => apply List.Forall₂.nil
  | cons entry rest ih =>
      have hsome := isSome_ofItem? type entry
      cases hissue : ofItem? type entry with
      | none =>
          rw [hissue] at hsome
          rwa [List.filterMap_cons_none hissue, List.filter_cons_of_neg (by simp [← hsome])]
      | some issue =>
          rw [hissue] at hsome
          rw [List.filterMap_cons_some hissue, List.filter_cons_of_pos hsome.symm]
          apply List.Forall₂.cons (isToldBy_of_ofItem? hissue) ih

/-! ### Issues as a reply -/

/-- The reply that has the given issues. -/
def toReply (issues : List Issue) : Json :=
  .object [("issues", .array (issues.map toJson))]

/-- What can be taken from an item: texts are trimmed, and the line in the file is not known. -/
structure IsPlain (issue : Issue) : Prop where
  /-- What is wrong is said. -/
  description : IsTrimmed issue.description
  /-- How it could be mended is said or left out. -/
  suggestion : ∀ text, issue.suggestion = some text → IsTrimmed text
  /-- The line within the file is not known. -/
  absoluteLine_eq : issue.absoluteLine = none

theorem IsToldBy.isPlain (h : IsToldBy type entry issue) :
  issue.IsPlain
  := by
  constructor
  · apply h.description.isTrimmed
  · intro text htext
    apply ((h.suggestion text).mp htext).isTrimmed
  · apply h.absoluteLine_eq

/-- A JSON value has the parts of an issue whose line in the file is not known. -/
structure Writes (issue : Issue) (value : Json) : Prop where
  /-- How serious it is. -/
  severity : value.field? "severity" = some (.string issue.severity.name)
  /-- What is wrong. -/
  description : value.field? "description" = some (.string issue.description)
  /-- How it could be mended. -/
  suggestion : value.field? "suggestion" = issue.suggestion.map .string
  /-- Nothing else could be taken for this. -/
  others : ∀ name ∈ ["fix", "recommendation"], value.field? name = none
  /-- The line within the chunk. -/
  line : value.field? "line_number_offset" = some (.nat issue.lineOffset)

theorem writes_toJson (h : issue.absoluteLine = none) :
  issue.Writes issue.toJson
  := by
  rw [toJson, h]
  constructor <;> cases issue.suggestion <;> simp [field?, Severity.toJson]

/-- The order of the fields of an object does not matter. -/
theorem Writes.normal {fields : List (String × Json)} (h : issue.Writes (.object fields))
    (hnodup : (fields.map Prod.fst).Nodup) :
  issue.Writes (normal (.object fields))
  := by
  constructor
  · rw [field?_normal hnodup, h.severity]
    rfl
  · rw [field?_normal hnodup, h.description]
    rfl
  · rw [field?_normal hnodup, h.suggestion]
    cases issue.suggestion <;> rfl
  · intro name hname
    rw [field?_normal hnodup, h.others name hname]
    rfl
  · rw [field?_normal hnodup, h.line]
    rfl

theorem writes_normal_toJson (h : issue.absoluteLine = none) :
  issue.Writes issue.toJson.normal
  := by
  apply Writes.normal (writes_toJson h)
  rw [h]
  cases issue.suggestion <;> simp

/-- What has the parts of an issue is read as the issue. -/
theorem IsPlain.ofItem?_of_writes (h : issue.IsPlain) {value : Json} (hvalue : issue.Writes value) :
  ofItem? issue.type value = some issue
  := by
  have hsuggestion : textUnder? value suggestionNames = issue.suggestion := by
    cases hsaid : issue.suggestion with
    | some text =>
        apply (h.suggestion text hsaid).textUnder?
        rw [hvalue.suggestion, hsaid]
        rfl
    | none =>
        apply textUnder?_eq_none_iff.mpr
        intro name hname raw hraw
        rcases List.mem_cons.mp hname with rfl | hname
        · rw [hvalue.suggestion, hsaid] at hraw
          cases hraw
        · rw [hvalue.others name hname] at hraw
          cases hraw
  have hline : (lineNames.findSome? fun name => (value.field? name).bind lineOf?)
      = some issue.lineOffset := by
    rw [lineNames, List.findSome?_cons, hvalue.line, Option.bind_some]
    simp [lineOf?, Json.nat, nat?]
  have hseverity : severityOf value = issue.severity := by
    rw [severityOf, hvalue.severity]
    apply Severity.ofLabel_name
  apply ofItem?_eq_some_iff.mpr
  use issue.description, h.description.textUnder? hvalue.description _
  rw [hseverity, hsuggestion, hline, Option.getD_some, ← h.absoluteLine_eq]

/-- Issues are read from a list of values that have their parts. -/
theorem filterMap_ofItem? {issues : List Issue} (write : Issue → Json)
    (h : ∀ issue ∈ issues, ofItem? type (write issue) = some issue) :
  (issues.map write).filterMap (ofItem? type) = issues
  := by
  rw [List.filterMap_map]
  apply (List.filterMap_congr h).trans List.filterMap_some

/-- The issues of a reply that is made of issues are these, whatever the order of its fields. -/
theorem ofReply?_toReply {issues : List Issue}
    (h : ∀ issue ∈ issues, issue.type = type ∧ issue.IsPlain) :
  ofReply? (toReply issues) type = some issues ∧ ofReply? (toReply issues).normal type = some issues
  := by
  have hread (write : Issue → Json) (hwrite : ∀ issue ∈ issues, issue.Writes (write issue)) :
      ofReply? (.object [("issues", .array (issues.map write))]) type = some issues := by
    change some ((issues.map write).filterMap (ofItem? type)) = some issues
    rw [filterMap_ofItem?]
    intro issue hissue
    obtain ⟨rfl, hplain⟩ := h issue hissue
    apply hplain.ofItem?_of_writes (hwrite issue hissue)
  constructor
  · apply hread
    intro issue hissue
    apply writes_toJson (h issue hissue).2.absoluteLine_eq
  · have hnormal : (toReply issues).normal
        = .object [("issues", .array (issues.map fun issue => issue.toJson.normal))] := by
      rw [toReply, normal_object, List.map_singleton, normal_array, List.map_map]
      rfl
    rw [hnormal]
    apply hread
    intro issue hissue
    apply writes_normal_toJson (h issue hissue).2.absoluteLine_eq

/-! ### The text of such a reply -/

/-- A line has at most 64 bits. -/
theorem lt_of_lineOf? {value : Json} (hfits : value.Fits) {line : Nat}
    (h : lineOf? value = some line) :
  line < 2 ^ 64
  := by
  cases value with
  | number n =>
      cases n with
      | int n =>
          obtain ⟨-, hlt⟩ := hfits _ (List.mem_singleton_self _)
          obtain ⟨hle, hn⟩ := Option.ite_none_right_eq_some.mp h
          obtain rfl := Option.some.inj hn
          omega
      | double bits => cases h
  | string text =>
      rw [lineOf?] at h
      cases hread : readWhole 64 (trim text.toList) with
      | error e =>
          rw [hread] at h
          cases h
      | ok found =>
          rw [hread] at h
          obtain rfl := Option.some.inj h
          apply lt_of_readWhole hread
  | _ => cases h

theorem IsLineUnder.lt {line : Nat} (h : IsLineUnder entry names line) (hfits : entry.Fits) :
  line < 2 ^ 64
  := by
  rcases h with ⟨before, name, after, value, -, -, hvalue, hline⟩ | ⟨rfl, -⟩
  · apply lt_of_lineOf? (hfits.of_field? hvalue) hline
  · decide

theorem mem_numbers_toReply {issues : List Issue} (h : ∀ issue ∈ issues, issue.absoluteLine = none)
    {n : Number} (hn : n ∈ (toReply issues).numbers) :
  ∃ issue ∈ issues, n = .int issue.lineOffset
  := by
  obtain ⟨field, hfield, hn⟩ := exists_of_mem_numbers_object hn
  rw [List.mem_singleton.mp hfield] at hn
  obtain ⟨item, hitem, hn⟩ := exists_of_mem_numbers_array hn
  obtain ⟨issue, hissue, rfl⟩ := List.mem_map.mp hitem
  use issue, hissue
  rw [toJson, h issue hissue] at hn
  cases hsuggestion : issue.suggestion <;>
    simpa [hsuggestion, numbers, numbersOfFields, Severity.toJson, Json.nat] using hn

theorem depth_toReply (issues : List Issue) :
  (toReply issues).depth ≤ 3
  := by
  apply depth_object_le
  intro field hfield
  rw [List.mem_singleton.mp hfield]
  apply depth_array_le
  intro item hitem
  obtain ⟨issue, -, rfl⟩ := List.mem_map.mp hitem
  rw [toJson]
  cases issue.suggestion <;> cases issue.absoluteLine <;>
    simp [depth, depthFields, Severity.toJson, Json.nat]

/-- The text of a reply made of issues is read as that reply. -/
theorem read_pretty_toReply {issues : List Issue}
    (h : ∀ issue ∈ issues, issue.absoluteLine = none ∧ issue.lineOffset < 2 ^ 64) :
  Json.read (toReply issues).pretty.toList = .ok (toReply issues).normal
  := by
  have hnumbers : ∀ n ∈ (toReply issues).numbers, ReadsAs n (.number n) := by
    intro n hn
    obtain ⟨issue, hissue, rfl⟩ := mem_numbers_toReply (fun issue hissue => (h issue hissue).1) hn
    have hlt := (h issue hissue).2
    apply readsAs_int <;> omega
  have hdepth : (toReply issues).depth < levels :=
    Nat.lt_of_le_of_lt (depth_toReply issues) (by decide)
  rw [Json.read, readFaithfully_pretty hnumbers hdepth, mapNumbers_eq_self fun _ _ => rfl]
  rfl

/-! ### Replies -/

theorem isSome_ofReply?_iff :
  (ofReply? reply type).isSome
    ↔ ∃ fields items, reply = .object fields ∧ reply.field? "issues" = some (.array items)
  := by
  rw [ofReply?, Option.isSome_map]
  constructor
  · intro h
    obtain ⟨items, hitems⟩ := Option.isSome_iff_exists.mp h
    obtain ⟨value, hvalue, hitems⟩ := Option.bind_eq_some_iff.mp hitems
    cases reply with
    | object fields =>
        cases value with
        | array found => use fields, found
        | _ => cases hitems
    | _ => cases hvalue
  · rintro ⟨fields, items, -, hitems⟩
    rw [hitems]
    rfl

/-- A reply has issues exactly if it is an object with a list of them.  There is one for each item
that says what is wrong, in order, and it is what the item says, with its texts trimmed.  A reply
that is made of these issues has the same ones, in whatever order the parts of an issue stand, and
if the numbers of the first reply can be held with 64 bits, the text of the second one is read as
that reply. -/
theorem ofReply?_normalises (reply : Json) (type : String) :
  ((ofReply? reply type).isSome
      ↔ ∃ fields items, reply = .object fields ∧ reply.field? "issues" = some (.array items))
    ∧ ∀ items, reply.field? "issues" = some (.array items) →
      ∃ issues, ofReply? reply type = some issues
        ∧ List.Forall₂ (IsToldBy type) (items.filter isDescribed) issues
        ∧ (∀ issue ∈ issues, issue.type = type ∧ issue.IsPlain)
        ∧ ofReply? (toReply issues) type = some issues
        ∧ ofReply? (toReply issues).normal type = some issues
        ∧ (reply.Fits → Json.read (toReply issues).pretty.toList = .ok (toReply issues).normal)
  := by
  use isSome_ofReply?_iff
  intro items hitems
  have htold := forall₂_isToldBy type items
  have hissues : ∀ issue ∈ items.filterMap (ofItem? type),
      ∃ item ∈ items, IsToldBy type item issue := by
    intro issue hissue
    obtain ⟨item, hitem, htells⟩ := exists_of_mem_right htold hissue
    use item, (List.mem_filter.mp hitem).1
  have hplain : ∀ issue ∈ items.filterMap (ofItem? type), issue.type = type ∧ issue.IsPlain := by
    intro issue hissue
    obtain ⟨item, -, htells⟩ := hissues issue hissue
    exact ⟨htells.type_eq, htells.isPlain⟩
  obtain ⟨hread, hnormal⟩ := ofReply?_toReply hplain
  refine ⟨items.filterMap (ofItem? type), ?_, htold, hplain, hread, hnormal, ?_⟩
  · rw [ofReply?, hitems]
    rfl
  · intro hfits
    apply read_pretty_toReply
    intro issue hissue
    obtain ⟨item, hitem, htells⟩ := hissues issue hissue
    use htells.absoluteLine_eq
    apply htells.line.lt
    apply (hfits.of_field? hitems).of_mem_array hitem

/-- A reply with an item that says what is wrong under its third name, one that says nothing, and
one that is no object. -/
def mixedReply : Json :=
  .object [("issues", .array [
    .object [("issue", .string " x\n"), ("line", .string " 7 "), ("message", .string " "),
      ("severity", .string " HIGH"), ("suggestion", .null)],
    .object [("severity", .string "low")],
    .string "y"])]

/-- The only issue of the reply. -/
def mixedIssue : Issue :=
  { type := "security", severity := .high, description := "x", suggestion := none, lineOffset := 7,
    absoluteLine := none }

theorem ofReply?_mixedReply :
  ofReply? mixedReply "security" = some [mixedIssue]
  := by decide +kernel

theorem ofReply?_normalises_mixedReply :
  mixedReply.Fits ∧ (ofReply? mixedReply "security").isSome
    ∧ ofReply? (toReply [mixedIssue]) "security" = some [mixedIssue]
    ∧ Json.read (toReply [mixedIssue]).pretty.toList = .ok (toReply [mixedIssue]).normal
  := by
  obtain ⟨hsome, hissues⟩ := ofReply?_normalises mixedReply "security"
  have hfits : mixedReply.Fits := by
    intro n hn
    cases hn
  obtain ⟨issues, hread, -, -, hagain, -, htext⟩ := hissues _ rfl
  rw [ofReply?_mixedReply] at hread
  obtain rfl := Option.some.inj hread
  exact ⟨hfits, hsome.mpr ⟨_, _, rfl, rfl⟩, hagain, htext hfits⟩

end Issue

end Scrutiny
