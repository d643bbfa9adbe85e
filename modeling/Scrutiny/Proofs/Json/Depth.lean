import Scrutiny.Proofs.Json.Fits
import Scrutiny.Proofs.Json.RoundTrip

/-!
# How deep values are nested

A value that was read is nested less deeply than the reader may go.  The text of a value that is
nested deeper than that is not read.
-/

namespace Scrutiny.Json

/-! ### The depth of a value -/

theorem depthItems_eq (items : List Json) :
  depthItems items = (items.map depth).foldr max 0
  := by
  induction items with
  | nil => rfl
  | cons item rest ih => rw [depthItems, ih, List.map_cons, List.foldr_cons]

theorem depthFields_eq (fields : List (String × Json)) :
  depthFields fields = (fields.map fun field => field.2.depth).foldr max 0
  := by
  induction fields with
  | nil => rfl
  | cons field rest ih =>
      obtain ⟨name, value⟩ := field
      rw [depthFields, ih, List.map_cons, List.foldr_cons]

theorem depth_array_le {items : List Json} {n : Nat} (h : ∀ item ∈ items, item.depth ≤ n) :
  (array items).depth ≤ n + 1
  := by
  rw [depth, Nat.add_le_add_iff_right]
  induction items with
  | nil => apply Nat.zero_le
  | cons item rest ih =>
      obtain ⟨hitem, hrest⟩ := List.forall_mem_cons.mp h
      apply Nat.max_le.mpr
      use hitem, ih hrest

theorem depth_object_le {fields : List (String × Json)} {n : Nat}
    (h : ∀ field ∈ fields, field.2.depth ≤ n) :
  (object fields).depth ≤ n + 1
  := by
  rw [depth, Nat.add_le_add_iff_right]
  induction fields with
  | nil => apply Nat.zero_le
  | cons field rest ih =>
      obtain ⟨hfield, hrest⟩ := List.forall_mem_cons.mp h
      apply Nat.max_le.mpr
      use hfield, ih hrest

/-- Other numbers change nothing about the depth. -/
theorem depth_mapNumbers {f : Number → Json} (hf : ∀ n, (f n).depth = 0) (value : Json) :
  (value.mapNumbers f).depth = value.depth
  := by
  induction value using inductionOn with
  | null => rfl
  | bool b => rfl
  | number n => apply hf
  | string s => rfl
  | array items ih =>
      rw [mapNumbers_array, depth, depth, depthItems_eq, depthItems_eq, List.map_map]
      congr 2
      apply List.map_congr_left ih
  | object fields ih =>
      rw [mapNumbers_object, depth, depth, depthFields_eq, depthFields_eq, List.map_map]
      congr 2
      apply List.map_congr_left ih

/-- Fields that are left out because of others with the same name may have been the deepest. -/
theorem depth_normal_le (value : Json) :
  value.normal.depth ≤ value.depth
  := by
  induction value using inductionOn with
  | null => apply Nat.le_refl
  | bool b => apply Nat.le_refl
  | number n => apply Nat.le_refl
  | string s => apply Nat.le_refl
  | array items ih =>
      rw [normal_array, depth.eq_1 items]
      apply depth_array_le
      intro item hitem
      obtain ⟨original, horiginal, rfl⟩ := List.mem_map.mp hitem
      apply Nat.le_trans (ih original horiginal)
      apply Nat.le_of_lt_succ (depth_lt_of_mem_array horiginal)
  | object fields ih =>
      rw [normal_object, depth.eq_2 fields]
      apply depth_object_le
      intro field hfield
      obtain ⟨original, horiginal, rfl⟩ := exists_of_mem_setFields_normal hfield
      apply Nat.le_trans (ih original horiginal)
      apply Nat.le_of_lt_succ (depth_lt_of_mem_object horiginal)

/-! ### What can be read -/

/-- A value that was read is nested less deeply than the reader may go. -/
theorem gives_depth_readValue (depth : Nat) (text : List Char) :
  Gives (readValue depth text) fun value => value.depth < depth
  := by
  have hnumber (depth : Nat) (reading : Reading Number) :
      Gives (reading.map fun read => (.number read.1, read.2)) fun value : Json =>
        value.depth < depth + 1 := by
    apply Gives.map
    intro n rest _
    apply Nat.succ_pos
  have hword (depth : Nat) (value : Json) (hvalue : value.depth = 0) (word text : List Char) :
      Gives (readWord value word text) fun value => value.depth < depth + 1 := by
    apply gives_readWord
    rw [hvalue]
    apply Nat.succ_pos
  induction depth generalizing text with
  | zero => apply gives_failNext
  | succ depth ih =>
      rw [readValue]
      split
      · apply gives_failNext
      · split
        · apply hword _ _ rfl
        · apply hword _ _ rfl
        · apply hword _ _ rfl
        · apply Gives.map
          intro s rest hs
          apply Nat.succ_pos
        · apply hnumber
        · split
          · apply gives_failNext
          · rename_i hdepth
            apply Gives.map
            intro items rest hitems
            have := depth_array_le (n := depth - 1) fun item hitem =>
              Nat.le_sub_one_of_lt (gives_readItems ih true _ _ items rest hitems item hitem)
            simp at hdepth
            omega
        · split
          · apply gives_failNext
          · rename_i hdepth
            apply Gives.map
            intro fields rest hfields
            have := depth_object_le (n := depth - 1) fun field hfield =>
              Nat.le_sub_one_of_lt (gives_readFields ih true _ _ fields rest hfields field hfield)
            simp at hdepth
            omega
        · split
          · apply hnumber
          · apply gives_failNext

/-! ### Readers that may go deeper -/

section

variable {value deeper : List Char → Reading Json}

theorem readItems_mono (h : ∀ text found, value text = .ok found → deeper text = .ok found)
    (first : Bool) (fuel : Nat) {text : List Char} {found : List Json × List Char}
    (hread : readItems value first fuel text = .ok found) :
  readItems deeper first fuel text = .ok found
  := by
  induction fuel generalizing first text found with
  | zero => cases hread
  | succ fuel ih =>
      have hitem {text : List Char} {found : List Json × List Char}
          (hread : readNextItem value fuel text = .ok found) :
          readNextItem deeper fuel text = .ok found := by
        rw [readNextItem] at hread ⊢
        split at hread
        · cases hread
        · rename_i v later hv
          split at hread
          · cases hread
          · rename_i vs after hvs
            rw [h text _ hv]
            dsimp only
            rw [ih false hvs]
            apply hread
      rw [readItems] at hread ⊢
      generalize skipGaps text = shown at hread ⊢
      split at hread
      · cases hread
      · apply hread
      · dsimp only at hread ⊢
        split at hread
        · rw [if_pos ‹_›]
          apply hitem hread
        · rw [if_neg ‹_›]
          split at hread
          · rw [if_pos ‹_›]
            generalize skipGaps _ = later at hread ⊢
            split at hread
            · cases hread
            · cases hread
            · apply hitem hread
          · cases hread

theorem readFields_mono (h : ∀ text found, value text = .ok found → deeper text = .ok found)
    (first : Bool) (fuel : Nat) {text : List Char} {found : List (String × Json) × List Char}
    (hread : readFields value first fuel text = .ok found) :
  readFields deeper first fuel text = .ok found
  := by
  induction fuel generalizing first text found with
  | zero => cases hread
  | succ fuel ih =>
      have hfield {text : List Char} {found : List (String × Json) × List Char}
          (hread : readNextField value fuel text = .ok found) :
          readNextField deeper fuel text = .ok found := by
        rw [readNextField] at hread ⊢
        generalize readString [] (text.length + 1) text = name at hread ⊢
        split at hread
        · cases hread
        · generalize skipGaps _ = shown at hread ⊢
          split at hread
          · cases hread
          · rename_i after
            split at hread
            · cases hread
            · rename_i v next hv
              split at hread
              · cases hread
              · rename_i others last hothers
                rw [h after _ hv]
                dsimp only
                rw [ih false hothers]
                apply hread
          · cases hread
      rw [readFields] at hread ⊢
      generalize skipGaps text = shown at hread ⊢
      split at hread
      · cases hread
      · apply hread
      · dsimp only at hread ⊢
        split at hread
        · rw [if_pos ‹_›]
          split at hread
          · rw [if_pos ‹_›]
            apply hfield hread
          · cases hread
        · rw [if_neg ‹_›]
          split at hread
          · rw [if_pos ‹_›]
            generalize skipGaps _ = later at hread ⊢
            split at hread
            · cases hread
            · apply hfield hread
            · cases hread
            · cases hread
          · cases hread

end

/-- What can be read can also be read by a reader that may go one level deeper. -/
theorem readValue_succ (depth : Nat) {text : List Char} {found : Json × List Char}
    (h : readValue depth text = .ok found) :
  readValue (depth + 1) text = .ok found
  := by
  induction depth generalizing text found with
  | zero => cases h
  | succ depth ih =>
      rw [readValue] at h ⊢
      generalize skipGaps text = shown at h ⊢
      split at h
      · cases h
      · dsimp only at h ⊢
        split at h
        · apply h
        · apply h
        · apply h
        · apply h
        · apply h
        · split at h
          · cases h
          · rw [if_neg (by simp)]
            cases hitems : readItems (readValue depth) true _ _ with
            | error e =>
                rw [hitems] at h
                cases h
            | ok items =>
                rw [hitems] at h
                rw [readItems_mono (fun _ _ => ih) true _ hitems]
                apply h
        · split at h
          · cases h
          · rw [if_neg (by simp)]
            cases hfields : readFields (readValue depth) true _ _ with
            | error e =>
                rw [hfields] at h
                cases h
            | ok fields =>
                rw [hfields] at h
                rw [readFields_mono (fun _ _ => ih) true _ hfields]
                apply h
        · apply h

theorem readValue_mono {depth deeper : Nat} (h : depth ≤ deeper) {text : List Char}
    {found : Json × List Char} (hread : readValue depth text = .ok found) :
  readValue deeper text = .ok found
  := by
  induction h with
  | refl => apply hread
  | step _ ih => apply readValue_succ _ ih

/-! ### The text of a value -/

/-- The text of a value is read only if it is not nested too deeply. -/
theorem depth_lt_of_readValue_prettyAt {f : Number → Json} (hf : ∀ n, (f n).depth = 0)
    {value : Json} (hnumbers : ∀ n ∈ value.numbers, ReadsAs n (f n)) {level depth : Nat}
    {found : Json × List Char} (hread : readValue depth (prettyAt level value) = .ok found) :
  value.depth < depth
  := by
  -- A reader that may go deep enough reads the value itself.
  have hends : EndsNumber [] := fun c hc => by cases hc
  have hdepth : value.depth < max depth (value.depth + 1) := Nat.le_max_right _ _
  have hself := readValue_prettyAt level hnumbers hdepth hends
  rw [List.append_nil, readValue_mono (Nat.le_max_left _ _) hread] at hself
  obtain rfl := Except.ok.inj hself
  rw [← depth_mapNumbers hf value]
  apply gives_depth_readValue depth _ _ _ hread

/-- The text of a value that is nested too deeply is not read. -/
theorem toOption_readFaithfully_pretty {f : Number → Json} (hf : ∀ n, (f n).depth = 0)
    {value : Json} (hnumbers : ∀ n ∈ value.numbers, ReadsAs n (f n)) :
  (readFaithfully value.pretty.toList).toOption
    = if value.depth < levels then some (value.mapNumbers f) else none
  := by
  by_cases hdepth : value.depth < levels
  · rw [if_pos hdepth, readFaithfully_pretty hnumbers hdepth]
    rfl
  · rw [if_neg hdepth, readFaithfully, pretty, String.toList_ofList]
    cases hread : readValue levels (prettyAt 0 value) with
    | error e => rfl
    | ok found => cases hdepth (depth_lt_of_readValue_prettyAt hf hnumbers hread)

/-- A text that is read as a whole gives a value that is not nested too deeply. -/
theorem depth_lt_of_read_eq_ok {text : List Char} {value : Json} (h : read text = .ok value) :
  value.depth < levels
  := by
  obtain ⟨original, rest, hvalue, rfl⟩ := exists_of_read_eq_ok h
  apply Nat.lt_of_le_of_lt (depth_normal_le original)
  apply gives_depth_readValue levels text original rest hvalue

end Scrutiny.Json
