import Mathlib.Data.List.Basic
import Scrutiny.Chunk.SizeGuard
import Scrutiny.Proofs.Text.Lines

/-!
# Parts of a chunk

The parts that a text is cut into tile it: put one after the other, with a line feed between
two parts where the second one starts on a new line, they are the text again.  No part is
larger than the ceiling.

The segmentation of lines into clusters is only relied on to cut a line into pieces that are
not empty.
-/

namespace Scrutiny.SizeGuard

open Text

/-- A way to cut lines into clusters: none of them is empty, and together they are the line. -/
structure IsSegmentation (clustersOf : List Char → List (List Char)) : Prop where
  /-- The clusters of a line are the line. -/
  flatten_eq : ∀ line, (clustersOf line).flatten = line
  /-- No cluster is empty. -/
  ne_nil : ∀ line, ∀ cluster ∈ clustersOf line, cluster ≠ []

/-! ### The clusters of a line -/

theorem flatten_grow (context : Cluster.Context) (current text : List Char) :
  (Cluster.grow context current text).flatten = current.reverse ++ text
  := by
  induction text generalizing context current with
  | nil => simp [Cluster.grow]
  | cons c rest ih =>
      rw [Cluster.grow]
      split
      · rw [ih, List.reverse_cons, List.append_assoc, List.singleton_append]
      · rw [List.flatten_cons, ih]
        rfl

theorem ne_nil_of_mem_grow {context : Cluster.Context} {current text cluster : List Char}
    (hcurrent : current ≠ []) (h : cluster ∈ Cluster.grow context current text) :
  cluster ≠ []
  := by
  induction text generalizing context current with
  | nil =>
      obtain rfl : cluster = current.reverse := by simpa [Cluster.grow] using h
      simpa using hcurrent
  | cons c rest ih =>
      rw [Cluster.grow] at h
      split at h
      · apply ih (List.cons_ne_nil _ _) h
      · rcases List.mem_cons.mp h with rfl | h
        · simpa using hcurrent
        · apply ih (List.cons_ne_nil _ _) h

theorem isSegmentation_clusters :
  IsSegmentation Cluster.clusters
  := by
  constructor
  · intro line
    cases line with
    | nil => rfl
    | cons c rest =>
        rw [Cluster.clusters, flatten_grow]
        rfl
  · intro line cluster h
    cases line with
    | nil => simp [Cluster.clusters] at h
    | cons c rest => apply ne_nil_of_mem_grow (List.cons_ne_nil _ _) h

variable {clustersOf : List Char → List (List Char)}

/-! ### Pieces of a line that is too long -/

theorem flatten_units (hsegments : IsSegmentation clustersOf) (ceiling : Nat) (line : List Char) :
  (units clustersOf ceiling line).flatten = line
  := by
  have hunit (cluster : List Char) :
      (if ceiling < cluster.length then cluster.map ([·]) else [cluster]).flatten = cluster := by
    split
    · rw [← List.flatMap_def, List.flatMap_singleton']
    · simp
  rw [units, List.flatMap_def, List.flatten_flatten, List.map_map]
  simp only [Function.comp_def, hunit, List.map_id']
  apply hsegments.flatten_eq

theorem of_mem_units (hsegments : IsSegmentation clustersOf) {ceiling : Nat} (hceiling : 1 ≤ ceiling)
    {line piece : List Char} (h : piece ∈ units clustersOf ceiling line) :
  piece ≠ [] ∧ piece.length ≤ ceiling
  := by
  obtain ⟨cluster, hcluster, h⟩ := List.mem_flatMap.mp h
  split at h
  · obtain ⟨c, -, rfl⟩ := List.mem_map.mp h
    simpa using hceiling
  · rename_i hfits
    obtain rfl : piece = cluster := by simpa using h
    use hsegments.ne_nil line piece hcluster
    omega

theorem flatten_pack (ceiling : Nat) (current : List Char) (pieces : List (List Char)) :
  (pack ceiling current pieces).flatten = current ++ pieces.flatten
  := by
  induction pieces generalizing current with
  | nil =>
      rw [pack]
      split
      · rename_i hempty
        simp [List.isEmpty_iff.mp hempty]
      · simp
  | cons piece rest ih =>
      rw [pack]
      split
      · rw [List.flatten_cons, ih, List.flatten_cons]
      · rw [ih, List.flatten_cons, List.append_assoc]

theorem of_mem_pack {ceiling : Nat} {current : List Char} {pieces : List (List Char)}
    (hcurrent : current.length ≤ ceiling)
    (hpieces : ∀ piece ∈ pieces, piece ≠ [] ∧ piece.length ≤ ceiling) {run : List Char}
    (h : run ∈ pack ceiling current pieces) :
  run ≠ [] ∧ run.length ≤ ceiling
  := by
  induction pieces generalizing current with
  | nil =>
      rw [pack] at h
      split at h
      · simp at h
      · rename_i hempty
        obtain rfl : run = current := by simpa using h
        use by simpa using hempty
  | cons piece rest ih =>
      obtain ⟨hpiece, hrest⟩ := List.forall_mem_cons.mp hpieces
      rw [pack] at h
      split at h
      · rename_i hfull
        rw [Bool.and_eq_true, Bool.not_eq_true', decide_eq_true_eq] at hfull
        rcases List.mem_cons.mp h with rfl | h
        · use by simpa using hfull.2
        · apply ih hpiece.2 hrest h
      · rename_i hroom
        -- The run has room for the piece, or it is empty and the piece fits by itself.
        apply ih _ hrest h
        rw [Bool.and_eq_true, Bool.not_eq_true', decide_eq_true_eq, not_and, Bool.not_eq_false,
          List.isEmpty_iff] at hroom
        rw [List.length_append]
        by_cases hfits : ceiling < current.length + piece.length
        · rw [hroom hfits, List.length_nil, Nat.zero_add]
          apply hpiece.2
        · omega

theorem flatten_splitLine (hsegments : IsSegmentation clustersOf) (ceiling : Nat)
    (line : List Char) :
  (splitLine clustersOf ceiling line).flatten = line
  := by
  rw [splitLine, flatten_pack, flatten_units hsegments]
  rfl

theorem of_mem_splitLine (hsegments : IsSegmentation clustersOf) {ceiling : Nat}
    (hceiling : 1 ≤ ceiling) {line piece : List Char}
    (h : piece ∈ splitLine clustersOf ceiling line) :
  piece ≠ [] ∧ piece.length ≤ ceiling
  := of_mem_pack (Nat.zero_le _) (fun _ hpiece => of_mem_units hsegments hceiling hpiece) h

/-! ### Lines that fit -/

/-- Two lines in front may be taken for one with a line feed in it. -/
theorem joinWith_merge (first second : List Char) (rest : List (List Char)) :
  joinWith ['\n'] (first :: second :: rest) = joinWith ['\n'] ((first ++ '\n' :: second) :: rest)
  := by
  simp only [joinWith_eq_intercalate, List.intercalate_cons_cons]
  cases rest with
  | nil => simp
  | cons third rest => simp

theorem length_joinWith_le {ceiling : Nat} {first : List Char} {rest : List (List Char)}
    (hfirst : first.length ≤ ceiling) {count : Nat}
    (hcount : count ≤ fitting ceiling first.length rest) :
  (joinWith ['\n'] (first :: rest.take count)).length ≤ ceiling
  := by
  induction rest generalizing first count with
  | nil => simpa [joinWith] using hfirst
  | cons second rest ih =>
      cases count with
      | zero => simpa [joinWith] using hfirst
      | succ count =>
          rw [fitting] at hcount
          split at hcount
          · rename_i hfits
            have hlength : (first ++ '\n' :: second).length = first.length + 1 + second.length := by
              simp only [List.length_append, List.length_cons]
              omega
            rw [List.take_succ_cons, joinWith_merge]
            apply ih
            · omega
            · rw [hlength]
              omega
          · omega

theorem lastBoundary?_lt {lines : List (List Char)} {count boundary : Nat}
    (h : lastBoundary? lines count = some boundary) :
  boundary < count
  := by
  have := List.mem_of_find?_eq_some h
  simpa using this

theorem partSize_le (ceiling : Nat) (first : List Char) (rest : List (List Char)) :
  partSize ceiling first rest ≤ 1 + fitting ceiling first.length rest
  := by
  unfold partSize
  dsimp only
  split
  · apply Nat.le_refl
  · split
    · rename_i hboundary
      have := lastBoundary?_lt hboundary
      split
      · apply this
      · apply Nat.le_refl
    · apply Nat.le_refl

/-- The lines of a part fit. -/
theorem length_joinWith_take_partSize {ceiling : Nat} {first : List Char}
    (hfirst : first.length ≤ ceiling) (rest : List (List Char)) :
  (joinWith ['\n'] ((first :: rest).take (partSize ceiling first rest))).length ≤ ceiling
  := by
  have hpos := partSize_pos ceiling first rest
  have hle := partSize_le ceiling first rest
  obtain ⟨count, hcount⟩ := Nat.exists_eq_succ_of_ne_zero (Nat.ne_of_gt hpos)
  rw [hcount, List.take_succ_cons]
  apply length_joinWith_le hfirst
  omega

/-! ### Tilings -/

/-- The parts tile a text whose first line has the number `line`: they follow one another, with
a line feed between two of them or with nothing, and each has the number of the line it starts
on. -/
inductive Tiles : (line : Nat) → (text : List Char) → (parts : List Part) → Prop
  /-- One part that is the whole text. -/
  | whole (line : Nat) (chars : List Char) : Tiles line chars [{ line, chars }]
  /-- A part in front of one that goes on with the same line.  Neither of them is empty. -/
  | sameLine {line : Nat} {chars text : List Char} {parts : List Part} (hchars : chars ≠ [])
      (hnext : ∀ next ∈ parts.head?, next.chars ≠ [])
      (hparts : Tiles (line + lineFeeds chars) text parts) :
      Tiles line (chars ++ text) ({ line, chars } :: parts)
  /-- A part in front of a line feed and the text after it. -/
  | nextLine {line : Nat} {chars text : List Char} {parts : List Part}
      (hparts : Tiles (line + lineFeeds chars + 1) text parts) :
      Tiles line (chars ++ '\n' :: text) ({ line, chars } :: parts)

namespace Tiles

theorem ne_nil {line : Nat} {text : List Char} {parts : List Part} (h : Tiles line text parts) :
  parts ≠ []
  := by
  cases h <;> simp

/-- A single part is the whole text. -/
theorem eq_of_singleton {line : Nat} {text : List Char} {part : Part} (h : Tiles line text [part]) :
  part.chars = text
  := by
  cases h with
  | whole => rfl
  | sameLine _ _ hparts => cases ne_nil hparts rfl
  | nextLine hparts => cases ne_nil hparts rfl

/-- What is tiled by parts, the first of which is not empty, is not empty. -/
theorem text_ne_nil {line : Nat} {text : List Char} {parts : List Part} (h : Tiles line text parts)
    (hfirst : ∀ first ∈ parts.head?, first.chars ≠ []) :
  text ≠ []
  := by
  cases h with
  | whole => apply hfirst _ rfl
  | sameLine hchars => simp [hchars]
  | nextLine => simp

/-- Tilings of two texts, the second of which starts on the line after the first, together tile
the texts with a line feed between them. -/
theorem append {line : Nat} {first second : List Char} {parts others : List Part}
    (h : Tiles line first parts) (hothers : Tiles (line + lineFeeds first + 1) second others) :
  Tiles line (first ++ '\n' :: second) (parts ++ others)
  := by
  induction h with
  | whole line chars => apply nextLine hothers
  | @sameLine line chars text parts hchars hnext hparts ih =>
      rw [List.append_assoc, List.cons_append]
      apply sameLine hchars
      · rwa [List.head?_append_of_ne_nil _ hparts.ne_nil]
      · apply ih
        rw [lineFeeds_append] at hothers
        rwa [Nat.add_assoc line]
  | @nextLine line chars text parts hparts ih =>
      rw [List.append_assoc, List.cons_append, List.cons_append]
      apply nextLine
      apply ih
      rw [lineFeeds_append, lineFeeds_cons, if_pos rfl] at hothers
      convert hothers using 1
      omega

/-- The first parts of a tiling tile the text up to their end. -/
theorem take {line : Nat} {text : List Char} {parts : List Part} (h : Tiles line text parts)
    {i : Nat} {part : Part} (hi : parts[i]? = some part) :
  ∃ before after, text = before ++ (part.chars ++ after) ∧ part.line = line + lineFeeds before
    ∧ Tiles line (before ++ part.chars) (parts.take (i + 1))
  := by
  induction h generalizing i with
  | whole line chars =>
      cases i with
      | zero =>
          obtain rfl : { line, chars } = part := by simpa using hi
          use [], []
          simp only [List.nil_append, List.append_nil, lineFeeds_nil, Nat.add_zero, true_and]
          apply whole
      | succ i => simp at hi
  | @sameLine line chars text parts hchars hnext hparts ih =>
      cases i with
      | zero =>
          obtain rfl : { line, chars } = part := by simpa using hi
          use [], text, rfl, rfl
          apply whole
      | succ i =>
          rw [List.getElem?_cons_succ] at hi
          obtain ⟨before, after, rfl, hline, htake⟩ := ih hi
          use chars ++ before, after, by simp
          constructor
          · rw [hline, lineFeeds_append, Nat.add_assoc]
          · rw [List.append_assoc, List.take_succ_cons]
            apply sameLine hchars _ htake
            rwa [List.head?_take, if_neg (Nat.succ_ne_zero i)]
  | @nextLine line chars text parts hparts ih =>
      cases i with
      | zero =>
          obtain rfl : { line, chars } = part := by simpa using hi
          use [], '\n' :: text, rfl, rfl
          apply whole
      | succ i =>
          rw [List.getElem?_cons_succ] at hi
          obtain ⟨before, after, rfl, hline, htake⟩ := ih hi
          use chars ++ '\n' :: before, after, by simp
          constructor
          · rw [hline, lineFeeds_append, lineFeeds_cons, if_pos rfl]
            omega
          · rw [List.append_assoc, List.take_succ_cons]
            apply nextLine htake

end Tiles

/-- The pieces of a line tile it. -/
theorem tiles_pieces (line : Nat) {pieces : List (List Char)} (hne : pieces ≠ [])
    (hpieces : ∀ piece ∈ pieces, piece ≠ [] ∧ '\n' ∉ piece) :
  Tiles line pieces.flatten (pieces.map fun chars => { line, chars })
  := by
  induction pieces with
  | nil => contradiction
  | cons piece rest ih =>
      obtain ⟨⟨hpiece, hfeeds⟩, hrest⟩ := List.forall_mem_cons.mp hpieces
      cases rest with
      | nil =>
          simp only [List.flatten_singleton, List.map_cons, List.map_nil]
          apply Tiles.whole
      | cons next rest =>
          rw [List.flatten_cons, List.map_cons]
          apply Tiles.sameLine hpiece
          · simpa using (hrest next (List.mem_cons_self ..)).1
          · rw [lineFeeds_eq_zero.mpr hfeeds, Nat.add_zero]
            apply ih (List.cons_ne_nil _ _) hrest

/-- Lines that are joined have one line feed less than there are lines. -/
theorem lineFeeds_joinWith {lines : List (List Char)} (hne : lines ≠ [])
    (hlines : ∀ line ∈ lines, '\n' ∉ line) :
  lineFeeds (joinWith ['\n'] lines) + 1 = lines.length
  := by
  have h := length_splitAt (joinWith ['\n'] lines)
  rw [joinWith_eq_intercalate] at h ⊢
  rw [← h, splitAt_eq_splitOn, List.splitOn_intercalate '\n' hlines hne]

/-- What the lines of a text are split into tiles the text. -/
theorem tiles_split (hsegments : IsSegmentation clustersOf) {ceiling : Nat}
    (hceiling : 1 ≤ ceiling) (line : Nat) {lines : List (List Char)} (hne : lines ≠ [])
    (hlines : ∀ line ∈ lines, '\n' ∉ line) :
  Tiles line (joinWith ['\n'] lines) (split clustersOf ceiling line lines)
  := by
  induction line, lines using split.induct ceiling with
  | case1 line => contradiction
  | case2 line first rest hlong ih =>
      obtain ⟨hfirst, hrest⟩ := List.forall_mem_cons.mp hlines
      have hflatten := flatten_splitLine hsegments ceiling first
      have hsome : splitLine clustersOf ceiling first ≠ [] := by
        intro hnil
        rw [hnil] at hflatten
        simp [← hflatten] at hlong
      have hunbroken : ∀ piece ∈ splitLine clustersOf ceiling first,
          piece ≠ [] ∧ '\n' ∉ piece := by
        intro piece hpiece
        use (of_mem_splitLine hsegments hceiling hpiece).1
        intro hfeed
        apply hfirst
        rw [← hflatten]
        apply List.mem_flatten_of_mem hpiece hfeed
      have hpieces := tiles_pieces line hsome hunbroken
      rw [hflatten] at hpieces
      rw [split, if_pos hlong]
      cases rest with
      | nil =>
          rw [split, List.append_nil]
          apply hpieces
      | cons next rest =>
          have hjoin : joinWith ['\n'] (first :: next :: rest)
              = first ++ '\n' :: joinWith ['\n'] (next :: rest) := by simp [joinWith]
          rw [hjoin]
          apply hpieces.append
          rw [lineFeeds_eq_zero.mpr hfirst]
          apply ih (List.cons_ne_nil _ _) hrest
  | case3 line first rest hfits size ih =>
      have hpos : 0 < size := partSize_pos ceiling first rest
      have htake : (first :: rest).take size ≠ [] := by
        simp [Nat.ne_of_gt hpos]
      rw [split, if_neg hfits]
      by_cases hdrop : (first :: rest).drop size = []
      · have hall : (first :: rest).take size = first :: rest := by
          apply List.take_of_length_le
          apply List.drop_eq_nil_iff.mp hdrop
        dsimp only
        rw [hdrop, hall, split]
        apply Tiles.whole
      · have hcount := lineFeeds_joinWith htake
          (fun l hl => hlines l (List.mem_of_mem_take hl))
        have hlength : ((first :: rest).take size).length = size := by
          apply List.length_take_of_le
          have := mt List.drop_eq_nil_iff.mpr hdrop
          omega
        have hjoin := joinWith_append ['\n'] htake hdrop
        rw [List.take_append_drop, List.append_assoc, List.singleton_append] at hjoin
        rw [hjoin]
        apply Tiles.nextLine
        have hline : line + lineFeeds (joinWith ['\n'] ((first :: rest).take size)) + 1
            = line + size := by omega
        rw [hline]
        apply ih hdrop
        intro l hl
        apply hlines l (List.mem_of_mem_drop hl)

/-- No part is larger than the ceiling. -/
theorem length_le_of_mem_split (hsegments : IsSegmentation clustersOf) {ceiling : Nat}
    (hceiling : 1 ≤ ceiling) {line : Nat} {lines : List (List Char)} {part : Part}
    (h : part ∈ split clustersOf ceiling line lines) :
  part.chars.length ≤ ceiling
  := by
  induction line, lines using split.induct ceiling with
  | case1 line => simp [split] at h
  | case2 line first rest hlong ih =>
      rw [split, if_pos hlong] at h
      rcases List.mem_append.mp h with h | h
      · obtain ⟨piece, hpiece, rfl⟩ := List.mem_map.mp h
        apply (of_mem_splitLine hsegments hceiling hpiece).2
      · apply ih h
  | case3 line first rest hfits size ih =>
      rw [split, if_neg hfits] at h
      rcases List.mem_cons.mp h with rfl | h
      · apply length_joinWith_take_partSize
        omega
      · apply ih h

end Scrutiny.SizeGuard
