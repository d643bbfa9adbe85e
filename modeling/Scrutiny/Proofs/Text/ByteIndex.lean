import Scrutiny.Proofs.Text.LineIndex
import Scrutiny.Proofs.Text.Utf8
import Scrutiny.Text.ByteIndex

/-!
# The index of lines by bytes

The index that counts bytes is a map of the lines of a text.  It agrees with the one that counts
characters: lines start and end with the bytes of the same characters, and every byte is on the
line of the character it belongs to.  So what is known of lines of characters holds of lines of
bytes.
-/

namespace Scrutiny.Text

/-! ### Line feeds among bytes -/

/-- A text has as many line feeds among its bytes as among its characters. -/
theorem count_flatMap_utf8EncodeChar (chars : List Char) :
  (chars.flatMap String.utf8EncodeChar).count 0x0a = lineFeeds chars
  := by
  induction chars with
  | nil => rfl
  | cons c rest ih =>
      rw [List.flatMap_cons, List.count_append, ih, lineFeeds_cons, Nat.add_comm]
      congr 1
      by_cases hc : c = '\n'
      · rw [if_pos hc, hc]
        rfl
      · rw [if_neg hc, List.count_eq_zero]
        exact fun hmem => hc ((mem_utf8EncodeChar_iff (d := '\n') (by decide)).mp hmem)

/-- A character that is cut off has no line feed among its bytes. -/
theorem count_take_utf8EncodeChar {c : Char} {n : Nat} (h : n < c.utf8Size) :
  ((String.utf8EncodeChar c).take n).count 0x0a = 0
  := by
  rw [List.count_eq_zero]
  intro hmem
  obtain rfl := (mem_utf8EncodeChar_iff (d := '\n') (by decide)).mp (List.mem_of_mem_take hmem)
  obtain rfl : n = 0 := Nat.lt_one_iff.mp h
  cases hmem

/-- As many line feeds stand in front of a byte as in front of its character. -/
theorem IsByteOf.count_take {chars : List Char} {i b : Nat} (h : IsByteOf chars i b) :
  ((chars.flatMap String.utf8EncodeChar).take b).count 0x0a = lineFeeds (chars.take i)
  := by
  obtain ⟨n, rfl⟩ := Nat.exists_eq_add_of_le h.le_byte
  rw [flatMap_utf8EncodeChar_eq chars i, ← length_flatMap_take, List.take_length_add_append,
    List.count_append, count_flatMap_utf8EncodeChar]
  rcases Nat.lt_or_eq_of_le h.le_length with hlt | rfl
  · have hbyte := h.byte_lt hlt
    rw [byteOffset_succ (List.getElem?_eq_getElem hlt)] at hbyte
    have hn : n < (chars[i]).utf8Size := by omega
    rw [List.drop_eq_getElem_cons hlt, List.flatMap_cons, List.take_append_of_le_length,
      count_take_utf8EncodeChar hn, Nat.add_zero]
    rw [String.length_utf8EncodeChar]
    apply Nat.le_of_lt hn
  · rw [List.drop_length, List.flatMap_nil, List.take_nil, List.count_nil, Nat.add_zero]

/-! ### Bisection -/

/-- The place is that of `n` among increasing numbers. -/
def Bisection.IsOf (numbers : Array Nat) (n : Nat) : Bisection → Prop
  | .found i => numbers[i]? = some n
  | .before i => i ≤ numbers.size ∧ ∀ j x, numbers[j]? = some x → if j < i then x < n else n < x

section Increasing

variable {numbers : Array Nat} {i j x y : Nat}

theorem lt_of_pairwise (h : numbers.toList.Pairwise (· < ·)) (hi : numbers[i]? = some x)
    (hj : numbers[j]? = some y) (hlt : i < j) :
  x < y
  := by
  rw [← Array.getElem?_toList] at hi hj
  obtain ⟨hi', rfl⟩ := List.getElem?_eq_some_iff.mp hi
  obtain ⟨hj', rfl⟩ := List.getElem?_eq_some_iff.mp hj
  apply List.pairwise_iff_getElem.mp h i j hi' hj' hlt

/-- Bisection finds the place of a number: what is left of the numbers to look at never leaves out
that place. -/
theorem isOf_bisect (h : numbers.toList.Pairwise (· < ·)) {n lo hi : Nat} (hle : lo ≤ hi)
    (hhi : hi ≤ numbers.size) (hlow : ∀ i x, numbers[i]? = some x → i < lo → x < n)
    (hhigh : ∀ i x, numbers[i]? = some x → hi ≤ i → n < x) :
  (bisect numbers n lo hi).IsOf numbers n
  := by
  fun_induction bisect numbers n lo hi with
  | case1 lo hi hlt mid hnone =>
      rw [Array.getElem?_eq_none_iff] at hnone
      omega
  | case2 lo hi hlt mid number hmid hsmall ih =>
      apply ih (by omega) hhi _ hhigh
      intro i x hi hlt
      rcases Nat.lt_or_eq_of_le (Nat.le_of_lt_succ hlt) with hlt | rfl
      · have := lt_of_pairwise h hi hmid hlt
        omega
      · rw [hmid] at hi
        cases hi
        apply hsmall
  | case3 lo hi hlt mid number hmid _ hlarge ih =>
      apply ih (by omega) (by omega) hlow
      intro i x hi hle
      rcases Nat.lt_or_eq_of_le hle with hlt | rfl
      · have := lt_of_pairwise h hmid hi hlt
        omega
      · rw [hmid] at hi
        cases hi
        apply hlarge
  | case4 lo hi hlt mid number hmid hsmall hlarge =>
      obtain rfl : number = n := by omega
      apply hmid
  | case5 lo hi hlt =>
      obtain rfl : lo = hi := by omega
      use hhi
      intro i x hi
      split
      · apply hlow i x hi ‹_›
      · apply hhigh i x hi (by omega)

/-- All of the numbers are looked at. -/
theorem isOf_bisect_size (h : numbers.toList.Pairwise (· < ·)) (n : Nat) :
  (bisect numbers n 0 numbers.size).IsOf numbers n
  := by
  apply isOf_bisect h (Nat.zero_le _) (Nat.le_refl _)
  · intro i x _ hlt
    cases hlt
  · intro i x hi hle
    rw [Array.getElem?_eq_none hle] at hi
    cases hi

end Increasing

namespace ByteIndex

/-! ### Where lines start -/

theorem startsFrom_append (i : Nat) (front back : List UInt8) :
  startsFrom i (front ++ back) = startsFrom i front ++ startsFrom (i + front.length) back
  := by
  simp [startsFrom, List.zipIdx_append]

theorem startsFrom_utf8EncodeChar (i : Nat) (c : Char) :
  startsFrom i (String.utf8EncodeChar c) = if c = '\n' then [i + 1] else []
  := by
  by_cases hc : c = '\n'
  · rw [if_pos hc, hc]
    rfl
  · rw [if_neg hc, startsFrom, List.map_eq_nil_iff, List.filter_eq_nil_iff]
    rintro ⟨byte, j⟩ hmem hbyte
    obtain rfl := eq_of_beq hbyte
    apply hc
    apply (mem_utf8EncodeChar_iff (d := '\n') (by decide)).mp (List.fst_mem_of_mem_zipIdx hmem)

/-- Lines start with the first bytes of the characters that they start with. -/
theorem startsFrom_flatMap (before after : List Char) :
  startsFrom (total Char.utf8Size before) (after.flatMap String.utf8EncodeChar)
    = (LineIndex.startsFrom before.length after).map (byteOffset (before ++ after))
  := by
  induction after generalizing before with
  | nil => rfl
  | cons c rest ih =>
      have ih := ih (before ++ [c])
      rw [total_append, List.length_append, List.append_assoc] at ih
      have hnext : byteOffset (before ++ c :: rest) (before.length + 1)
          = total Char.utf8Size before + c.utf8Size := by
        rw [byteOffset_succ (c := c) (by simp), byteOffset_append]
      rw [List.flatMap_cons, startsFrom_append, startsFrom_utf8EncodeChar,
        String.length_utf8EncodeChar, LineIndex.startsFrom]
      by_cases hc : c = '\n'
      · subst hc
        rw [if_pos rfl, if_pos (by rfl), List.map_cons, hnext]
        exact congrArg (_ :: ·) ih
      · rw [if_neg hc, if_neg (by simpa using hc)]
        exact ih

theorem toList_starts (text : String) :
  (ofText text).starts.toList
    = (LineIndex.ofText text.toList).starts.toList.map (byteOffset text.toList)
  := by
  have h := startsFrom_flatMap [] text.toList
  rw [← bytesOf_eq] at h
  rw [LineIndex.toList_starts, List.map_cons]
  exact congrArg (0 :: ·) h

theorem pairwise_starts (text : String) :
  (ofText text).starts.toList.Pairwise (· < ·)
  := by
  rw [toList_starts, List.pairwise_map]
  apply List.Pairwise.imp_of_mem _ (LineIndex.pairwise_starts text.toList)
  intro a b _ hb hlt
  apply byteOffset_lt hlt (LineIndex.le_length_of_mem_starts text.toList hb)

theorem lineCount_ofText (text : String) :
  (ofText text).lineCount = (LineIndex.ofText text.toList).lineCount
  := by
  have h := congrArg List.length (toList_starts text)
  rw [List.length_map] at h
  exact h

theorem lineStart?_ofText (text : String) (line : Nat) :
  (ofText text).lineStart? line
    = (LineIndex.ofText text.toList).starts[line]?.map (byteOffset text.toList)
  := by
  rw [lineStart?, ← Array.getElem?_toList, toList_starts, List.getElem?_map, Array.getElem?_toList]

variable {text : String} {line : Nat}

theorem lineStart?_of_lt (h : line < (LineIndex.ofText text.toList).lineCount) :
  (ofText text).lineStart? line
    = some (byteOffset text.toList ((LineIndex.ofText text.toList).lineStart line))
  := by
  rw [lineStart?_ofText, LineIndex.getElem?_starts h]
  rfl

theorem lineStart?_of_not_lt (h : ¬ line < (LineIndex.ofText text.toList).lineCount) :
  (ofText text).lineStart? line = none
  := by
  rw [lineStart?_ofText, Array.getElem?_eq_none (Nat.not_lt.mp h)]
  rfl

/-! ### The line of a byte -/

/-- The line of a byte is the last one that starts at or before it. -/
theorem exists_lineOf?_eq (text : String) (offset : Nat) :
  ∃ line < (ofText text).lineCount, (ofText text).lineOf? offset = some line
    ∧ ∀ i start, (ofText text).lineStart? i = some start → (start ≤ offset ↔ i ≤ line)
  := by
  have hsorted := pairwise_starts text
  have hplace := isOf_bisect_size hsorted offset
  rw [lineOf?]
  split
  · rename_i line hfound
    rw [hfound] at hplace
    obtain ⟨hlt, -⟩ := Array.getElem?_eq_some_iff.mp hplace
    refine ⟨line, hlt, rfl, ?_⟩
    intro i start hstart
    rcases Nat.lt_trichotomy i line with hi | rfl | hi
    · have := lt_of_pairwise hsorted hstart hplace hi
      omega
    · obtain rfl : start = offset := Option.some.inj (hstart.symm.trans hplace)
      omega
    · have := lt_of_pairwise hsorted hplace hstart hi
      omega
  · rename_i hbefore
    rw [hbefore] at hplace
    -- The first line starts at the offset `0`, so no offset comes before it.
    have hfirst := hplace.2 0 0 rfl
    simp at hfirst
  · rename_i line hbefore
    rw [hbefore] at hplace
    refine ⟨line, hplace.1, rfl, ?_⟩
    intro i start hstart
    have hi := hplace.2 i start hstart
    split at hi
    · omega
    · omega

theorem lineOf?_ofText {i b : Nat} (h : IsByteOf text.toList i b) :
  (ofText text).lineOf? b = some ((LineIndex.ofText text.toList).lineOf i)
  := by
  obtain ⟨line, hline, hlineOf, hlast⟩ := exists_lineOf?_eq text b
  have hlt := LineIndex.lineOf_lt_lineCount text.toList i
  rw [lineCount_ofText] at hline
  have hiff {other : Nat} (hother : other < (LineIndex.ofText text.toList).lineCount) :
      other ≤ (LineIndex.ofText text.toList).lineOf i ↔ other ≤ line := by
    have hstart := LineIndex.lineStart_le_length text.toList other
    rw [← hlast other _ (lineStart?_of_lt hother), h.byteOffset_le_iff hstart,
      LineIndex.lineStart_le_iff hother]
  have hle := (hiff hline).mpr (Nat.le_refl _)
  have hge := (hiff hlt).mp (Nat.le_refl _)
  rw [hlineOf]
  congr 1
  omega

/-! ### The end of a line -/

theorem stop_ofText (text : String) (line : Nat) :
  (match (ofText text).lineStart? (line + 1) with
    | some next => next - 1
    | none => text.utf8ByteSize)
    = byteOffset text.toList ((LineIndex.ofText text.toList).lineStop line)
  := by
  by_cases hnext : line + 1 < (LineIndex.ofText text.toList).lineCount
  · rw [lineStart?_of_lt hnext, ← LineIndex.lineStop_of_lt hnext,
      byteOffset_succ (LineIndex.getElem?_lineStop hnext)]
    apply Nat.add_sub_cancel
  · rw [lineStart?_of_not_lt hnext, LineIndex.lineStop_of_not_lt hnext]
    apply utf8ByteSize_eq

theorem lineEnd?_of_lt (h : line < (LineIndex.ofText text.toList).lineCount) :
  (ofText text).lineEnd? line
    = some (byteOffset text.toList ((LineIndex.ofText text.toList).lineEnd line))
  := by
  have hstart := LineIndex.lineStart_le_length text.toList line
  have hstop := LineIndex.lineStop_le_length text.toList line
  have heq : (ofText text).lineEnd? line = do
      let start ← (ofText text).lineStart? line
      let stop := byteOffset text.toList ((LineIndex.ofText text.toList).lineStop line)
      return if start < stop && (bytesOf text)[stop - 1]? == some 0x0d then stop - 1 else stop := by
    rw [← stop_ofText]
    rfl
  rw [heq, lineStart?_of_lt h, LineIndex.lineEnd_eq, bytesOf_eq]
  generalize (LineIndex.ofText text.toList).lineStart line = start at *
  generalize (LineIndex.ofText text.toList).lineStop line = stop at *
  simp only [Option.bind_eq_bind, Option.bind_some, Option.pure_def, Bool.and_eq_true,
    decide_eq_true_eq, beq_iff_eq, byteOffset_lt_iff hstart hstop]
  congr 1
  by_cases hlt : start < stop
  · have hpos : 0 < stop := Nat.zero_lt_of_lt hlt
    simp only [hlt, true_and, getElem?_byteOffset_sub_one hpos hstop]
    split
    · rename_i hreturn
      obtain ⟨stop, rfl⟩ := Nat.exists_eq_add_one_of_ne_zero (Nat.ne_of_gt hpos)
      rw [Nat.add_sub_cancel] at hreturn
      rw [byteOffset_succ hreturn]
      rfl
    · rfl
  · simp only [hlt, false_and, if_false]

/-! ### The text between two offsets -/

/-- The text between what stands in front and what stands behind is found. -/
theorem slice?_eq_some {index : ByteIndex} {front middle back : String}
    (h : index.text = front ++ (middle ++ back)) :
  index.slice? front.utf8ByteSize (front.utf8ByteSize + middle.utf8ByteSize) = some middle
  := by
  have hstart : String.Pos.Raw.IsValid index.text ⟨front.utf8ByteSize⟩ :=
    String.Pos.Raw.isValid_iff_exists_append.mpr ⟨front, middle ++ back, h, rfl⟩
  have hstop : String.Pos.Raw.IsValid index.text ⟨front.utf8ByteSize + middle.utf8ByteSize⟩ := by
    apply String.Pos.Raw.isValid_iff_exists_append.mpr
    use front ++ middle, back
    constructor
    · rw [h, String.append_assoc]
    · rw [String.Pos.Raw.ext_iff, String.byteIdx_rawEndPos, String.utf8ByteSize_append]
  rw [slice?, dif_pos ⟨Nat.le_add_right .., hstart, hstop⟩]
  congr 1
  have hsize : front.utf8ByteSize + middle.utf8ByteSize = (front ++ middle).toByteArray.size :=
    String.utf8ByteSize_append.symm
  rw [← String.toByteArray_inj, String.toByteArray_extract]
  calc index.text.toByteArray.extract front.utf8ByteSize
        (front.utf8ByteSize + middle.utf8ByteSize)
    _ = (front ++ middle).toByteArray.extract front.utf8ByteSize
          (front.utf8ByteSize + middle.utf8ByteSize) := by
        rw [h, ← String.append_assoc, String.toByteArray_append, hsize,
          ByteArray.extract_append_size_left]
    _ = middle.toByteArray := by
        rw [String.toByteArray_append]
        apply ByteArray.extract_append_eq_right rfl rfl

theorem slice?_ofText (text : String) {start stop : Nat} (hle : start ≤ stop) :
  (ofText text).slice? (byteOffset text.toList start) (byteOffset text.toList stop)
    = some (String.ofList ((LineIndex.ofText text.toList).slice start stop))
  := by
  have hfront : (text.toList.take stop).take start = text.toList.take start := by
    rw [List.take_take, Nat.min_eq_left hle]
  have htext : (ofText text).text = String.ofList (text.toList.take start)
      ++ (String.ofList ((text.toList.take stop).drop start)
        ++ String.ofList (text.toList.drop stop)) := by
    rw [← String.ofList_append, ← String.ofList_append, ← List.append_assoc, ← hfront,
      List.take_append_drop, List.take_append_drop, String.ofList_toList]
    rfl
  have hstop : byteOffset text.toList stop
      = byteOffset text.toList start + total Char.utf8Size ((text.toList.take stop).drop start) := by
    rw [byteOffset, byteOffset, ← hfront, ← total_append, List.take_append_drop]
  have h := slice?_eq_some htext
  rw [utf8ByteSize_ofList, utf8ByteSize_ofList] at h
  rw [hstop, LineIndex.slice_ofText]
  exact h

/-- From the start of a line to the end of a later one stand the lines from the one to the
other. -/
theorem exists_slice?_eq {first last : Nat} (h : first ≤ last)
    (hlast : last < (LineIndex.ofText text.toList).lineCount) :
  ∃ start stop, (ofText text).lineStart? first = some start
    ∧ (ofText text).lineEnd? last = some stop
    ∧ (ofText text).slice? start stop = some (String.ofList (dropReturn (joinWith ['\n']
      (((splitAt '\n' text.toList).drop first).take (last - first + 1)))))
  := by
  have hle := Nat.le_trans (LineIndex.lineStart_mono h hlast)
    (LineIndex.lineStart_le_lineEnd text.toList last)
  refine ⟨_, _, lineStart?_of_lt (Nat.lt_of_le_of_lt h hlast), lineEnd?_of_lt hlast, ?_⟩
  rw [slice?_ofText text hle, LineIndex.slice_lines h hlast]

/-! ### A map of the lines -/

/-- The index is a map of the lines of a text. -/
structure IsLineMap (text : String) (index : ByteIndex) : Prop where
  /-- There are as many lines as pieces of the text between line feeds. -/
  lineCount_eq : index.lineCount = (splitAt '\n' text.toList).length
  /-- The line of a byte is the number of line feeds in front of it, and starts at or before it. -/
  lineOf?_eq : ∀ offset, index.lineOf? offset = some (((bytesOf text).take offset).count 0x0a)
    ∧ ∃ start ≤ offset, index.lineStart? (((bytesOf text).take offset).count 0x0a) = some start
  /-- Lines start and end where the text may be cut, and do not end before they start. -/
  bounds : ∀ line < index.lineCount, ∃ start stop, start ≤ stop
    ∧ index.lineStart? line = some start ∧ index.lineEnd? line = some stop
    ∧ String.Pos.Raw.IsValid text ⟨start⟩ ∧ String.Pos.Raw.IsValid text ⟨stop⟩
  /-- A line is the piece with its number without a carriage return at the end. -/
  line?_eq : ∀ line piece, (splitAt '\n' text.toList)[line]? = some piece →
    index.line? line = some (String.ofList (dropReturn piece))
  /-- From the start of a line to the end of a later one stand the pieces from the one to the
  other with the line feeds between them, the last one without a carriage return at the end. -/
  slice?_eq : ∀ first last, first ≤ last → last < index.lineCount → ∃ start stop,
    index.lineStart? first = some start ∧ index.lineEnd? last = some stop
      ∧ index.slice? start stop = some (String.ofList (dropReturn (joinWith ['\n']
        (((splitAt '\n' text.toList).drop first).take (last - first + 1)))))

/-- The index counts in bytes what another one of the same text counts in characters. -/
structure AgreesWith (text : String) (index : ByteIndex) (chars : LineIndex) : Prop where
  /-- Both have the same number of lines. -/
  lineCount_eq : index.lineCount = chars.lineCount
  /-- A line starts with the first byte of its first character. -/
  lineStart?_eq : ∀ line < chars.lineCount,
    index.lineStart? line = some (byteOffset text.toList (chars.lineStart line))
  /-- A line ends with the last byte of its last character. -/
  lineEnd?_eq : ∀ line < chars.lineCount,
    index.lineEnd? line = some (byteOffset text.toList (chars.lineEnd line))
  /-- Every byte of a character is on the line of the character. -/
  lineOf?_eq : ∀ i b, IsByteOf text.toList i b → index.lineOf? b = some (chars.lineOf i)
  /-- The text between two characters is the same. -/
  slice?_eq : ∀ start stop, start ≤ stop →
    index.slice? (byteOffset text.toList start) (byteOffset text.toList stop)
      = some (String.ofList (chars.slice start stop))

theorem agreesWith_ofText (text : String) :
  (ofText text).AgreesWith text (LineIndex.ofText text.toList)
  := by
  constructor
  · apply lineCount_ofText
  · exact fun line h => lineStart?_of_lt h
  · exact fun line h => lineEnd?_of_lt h
  · exact fun i b h => lineOf?_ofText h
  · exact fun start stop h => slice?_ofText text h

/-- The index of a text is a map of its lines, and agrees with the one that counts characters. -/
theorem isLineMap_ofText (text : String) :
  (ofText text).IsLineMap text ∧ (ofText text).AgreesWith text (LineIndex.ofText text.toList)
  := by
  refine ⟨?_, agreesWith_ofText text⟩
  constructor
  case lineCount_eq => rw [lineCount_ofText, LineIndex.lineCount_eq, length_splitAt]
  case lineOf?_eq =>
    intro offset
    obtain ⟨i, hi⟩ := exists_isByteOf text.toList offset
    have hcount : ((bytesOf text).take offset).count 0x0a
        = (LineIndex.ofText text.toList).lineOf i := by
      rw [bytesOf_eq, hi.count_take, LineIndex.lineOf_eq]
    have hlt := LineIndex.lineOf_lt_lineCount text.toList i
    have hstart := (LineIndex.lineStart_le_iff hlt).mpr (Nat.le_refl _)
    rw [hcount]
    refine ⟨lineOf?_ofText hi, _, ?_, lineStart?_of_lt hlt⟩
    rwa [hi.byteOffset_le_iff (LineIndex.lineStart_le_length _ _)]
  case bounds =>
    intro line hline
    rw [lineCount_ofText] at hline
    refine ⟨_, _, ?_, lineStart?_of_lt hline, lineEnd?_of_lt hline, isValid_byteOffset text _,
      isValid_byteOffset text _⟩
    rw [byteOffset_le_iff (LineIndex.lineStart_le_length _ _) (LineIndex.lineEnd_le_length _ _)]
    apply LineIndex.lineStart_le_lineEnd
  case line?_eq =>
    intro line piece hpiece
    obtain ⟨hlt, rfl⟩ := List.getElem?_eq_some_iff.mp hpiece
    have hline := hlt
    rw [length_splitAt, ← LineIndex.lineCount_eq] at hline
    -- A line is what stands from its start to its own end.
    obtain ⟨start, stop, hstart, hstop, hslice⟩ := exists_slice?_eq (Nat.le_refl line) hline
    rw [Nat.sub_self, List.drop_eq_getElem_cons hlt, List.take_succ_cons, List.take_zero] at hslice
    rw [line?, hstart, hstop]
    exact hslice
  case slice?_eq =>
    intro first last h hlast
    rw [lineCount_ofText] at hlast
    apply exists_slice?_eq h hlast

-- The second line has a character of two bytes, the third one only a carriage return.
example :
  (List.range 4).map (ofText "a\r\nb\u00e9\n\r\nc\r").line?
    = [some "a", some "b\u00e9", some "", some "c"]
  := by
  cbv

end ByteIndex

end Scrutiny.Text
