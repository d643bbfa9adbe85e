import Mathlib.Data.List.DropRight
import Mathlib.Data.List.Nodup
import Mathlib.Tactic.Use
import Scrutiny.Chunk.Chunker
import Scrutiny.Proofs.Chunk.Spans
import Scrutiny.Proofs.Chunk.Units

/-!
# The ids of chunks

Numbers are put behind names twice: after a tilde where a name occurs again, and after a number
sign where a chunk is cut into parts.  A text that ends in a sign and digits does so in one way
only, so no name with a number is another name with another number, and taking away the number of
a part gives the id of the chunk it is a part of.  That needs names that do not end like that by
themselves.
-/

namespace Scrutiny

open Text

/-! ### Names with numbers -/

/-- A name ends in the sign and at least one digit. -/
def EndsNumbered (sign : Char) (name : List Char) : Prop :=
  ∃ front digits, name = front ++ sign :: digits ∧ digits ≠ [] ∧ ∀ d ∈ digits, d.isDigit

/-- The digits at the end of a text and the sign before them can be told. -/
theorem numbered_inj {sign sign' : Char} {front front' digits digits' : List Char}
    (hsign : sign.isDigit = false) (hsign' : sign'.isDigit = false)
    (hdigits : ∀ d ∈ digits, d.isDigit) (hdigits' : ∀ d ∈ digits', d.isDigit)
    (h : front ++ sign :: digits = front' ++ sign' :: digits') :
  front = front' ∧ sign = sign' ∧ digits = digits'
  := by
  have htake {sign : Char} {front digits : List Char} (hsign : sign.isDigit = false)
      (hdigits : ∀ d ∈ digits, d.isDigit) :
      (front ++ sign :: digits).rtakeWhile Char.isDigit = digits := by
    rw [List.rtakeWhile, List.reverse_append, List.reverse_cons, List.append_assoc,
      List.takeWhile_append_of_pos fun d hd => hdigits d (List.mem_reverse.mp hd),
      List.singleton_append, List.takeWhile_cons_of_neg (by simp [hsign]), List.append_nil,
      List.reverse_reverse]
  have heq := congrArg (List.rtakeWhile Char.isDigit) h
  rw [htake hsign hdigits, htake hsign' hdigits'] at heq
  subst heq
  obtain ⟨hfront, hrest⟩ := List.append_inj' h rfl
  use hfront, (List.cons.inj hrest).1

theorem isDigit_of_mem_toString {n : Nat} :
  ∀ d ∈ (toString n).toList, d.isDigit
  := by
  intro d hd
  rw [Nat.toString_eq_repr, Nat.toList_repr] at hd
  apply Nat.isDigit_of_mem_toDigits (by omega) (by omega) hd

theorem toList_toString_ne_nil (n : Nat) :
  (toString n).toList ≠ []
  := by
  rw [Nat.toString_eq_repr, Nat.toList_repr]
  apply Nat.toDigits_ne_nil

theorem toString_injective {m n : Nat} (h : (toString m).toList = (toString n).toList) :
  m = n
  := by
  rw [Nat.toString_eq_repr, Nat.toString_eq_repr, Nat.toList_repr, Nat.toList_repr] at h
  have := congrArg (Nat.ofDigitChars 10 · 0) h
  simpa using this

theorem not_endsNumbered_of_isPlain {name : List Char} (h : Fallback.IsPlain name) :
  ¬ EndsNumbered '~' name ∧ ¬ EndsNumbered '#' name
  := by
  constructor
  · rintro ⟨front, digits, rfl, -⟩
    apply (h '~' (List.mem_append_right _ List.mem_cons_self)).1 rfl
  · rintro ⟨front, digits, rfl, -⟩
    apply (h '#' (List.mem_append_right _ List.mem_cons_self)).2 rfl

/-! ### Parents -/

/-- The id of a part without its number. -/
theorem parentId_of_toList_eq {id front : String} {digits : List Char}
    (h : id.toList = front.toList ++ '#' :: digits) (hne : digits ≠ [])
    (hdigits : ∀ d ∈ digits, d.isDigit) :
  parentId id = front
  := by
  have hreverse : id.toList.reverse = digits.reverse ++ '#' :: front.toList.reverse := by
    rw [h, List.reverse_append, List.reverse_cons, List.append_assoc, List.singleton_append]
  have htake : id.toList.reverse.takeWhile (· != '#') = digits.reverse := by
    rw [hreverse, List.takeWhile_append_of_pos]
    · simp
    · intro c hc
      rw [bne_iff_ne]
      rintro rfl
      cases hdigits '#' (List.mem_reverse.mp hc)
  have hall : (!digits.reverse.isEmpty && digits.reverse.all Char.isDigit) = true := by
    rw [Bool.and_eq_true]
    constructor
    · simpa using hne
    · rw [List.all_reverse, List.all_eq_true]
      apply hdigits
  rw [parentId, htake, hreverse, List.drop_left]
  split
  · rename_i rest heq
    obtain rfl : front.toList.reverse = rest := (List.cons.inj heq).2
    rw [if_pos hall, List.reverse_reverse, String.ofList_toList]
  · rename_i hother
    cases hother _ rfl

theorem parentId_part (id : String) (n : Nat) :
  parentId (id ++ "#" ++ toString n) = id
  := by
  apply parentId_of_toList_eq _ (toList_toString_ne_nil n) isDigit_of_mem_toString
  simp

/-- An id that does not end in the number of a part is its own parent. -/
theorem parentId_eq_self {id : String} (h : ¬ EndsNumbered '#' id.toList) :
  parentId id = id
  := by
  unfold parentId
  dsimp only
  split
  · rename_i rest hrest
    split
    · rename_i hdigits
      exfalso
      apply h
      rw [Bool.and_eq_true, List.all_eq_true] at hdigits
      use rest.reverse, (id.toList.reverse.takeWhile (· != '#')).reverse
      constructor
      · rw [← List.reverse_inj, List.reverse_append, List.reverse_cons, List.reverse_reverse,
          List.reverse_reverse, List.append_assoc, List.singleton_append, ← hrest]
        have hprefix := List.takeWhile_prefix (· != '#') (l := id.toList.reverse)
        rw [List.prefix_iff_eq_append.mp hprefix]
      · constructor
        · simpa using hdigits.1
        · intro d hd
          apply hdigits.2 d (List.mem_reverse.mp hd)
    · rfl
  · rfl

/-- A path and a colon in front of a name do not make it end in a number. -/
theorem EndsNumbered.of_append_colon {sign : Char} (hsign : ':' ≠ sign) {path name : List Char}
    (h : EndsNumbered sign (path ++ ':' :: name)) :
  EndsNumbered sign name
  := by
  obtain ⟨front, digits, heq, hne, hdigits⟩ := h
  rcases List.append_eq_append_iff.mp heq with ⟨middle, rfl, hrest⟩ | ⟨middle, rfl, hrest⟩
  · cases middle with
    | nil =>
        cases hsign (List.cons.inj hrest).1
    | cons c middle =>
        obtain ⟨-, hname⟩ := List.cons.inj hrest
        use middle, digits, hname
  · cases middle with
    | nil =>
        cases hsign (List.cons.inj hrest).1.symm
    | cons c middle =>
        obtain ⟨-, rfl⟩ := List.cons.inj hrest
        have := hdigits ':' (List.mem_append_right _ List.mem_cons_self)
        cases this

namespace Assembly

/-! ### Names that occur again -/

/-- The name of a chunk is that of its span, with a number if it has occurred before. -/
theorem toList_uniqueName (seen : List String) (name : String) :
  (seen.count name = 0 ∧ (uniqueName seen name).toList = name.toList)
    ∨ (uniqueName seen name).toList
      = name.toList ++ '~' :: (toString (seen.count name + 1)).toList
  := by
  unfold uniqueName
  dsimp only
  split
  · rename_i hcount
    left
    use by simpa using hcount
  · right
    simp

variable {seen seen' : List String} {name name' : String}

/-- Different occurrences of names have different unique names. -/
theorem uniqueName_inj (hname : ¬ EndsNumbered '~' name.toList)
    (hname' : ¬ EndsNumbered '~' name'.toList) (h : uniqueName seen name = uniqueName seen' name') :
  name = name' ∧ seen.count name = seen'.count name'
  := by
  rcases toList_uniqueName seen name with ⟨hcount, heq⟩ | heq
  · rcases toList_uniqueName seen' name' with ⟨hcount', heq'⟩ | heq'
    · rw [h, heq'] at heq
      use String.toList_inj.mp heq.symm
      rw [hcount, hcount']
    · rw [h, heq'] at heq
      exfalso
      apply hname
      use name'.toList, (toString (seen'.count name' + 1)).toList, heq.symm
      use toList_toString_ne_nil _, isDigit_of_mem_toString
  · rcases toList_uniqueName seen' name' with ⟨hcount', heq'⟩ | heq'
    · rw [← h, heq] at heq'
      exfalso
      apply hname'
      use name.toList, (toString (seen.count name + 1)).toList, heq'.symm
      use toList_toString_ne_nil _, isDigit_of_mem_toString
    · rw [h, heq'] at heq
      obtain ⟨hfront, -, hnumber⟩ :=
        numbered_inj rfl rfl isDigit_of_mem_toString isDigit_of_mem_toString heq
      use String.toList_inj.mp hfront.symm
      have := toString_injective hnumber
      omega

theorem not_endsNumbered_uniqueName (seen : List String) (h : ¬ EndsNumbered '#' name.toList) :
  ¬ EndsNumbered '#' (uniqueName seen name).toList
  := by
  rintro ⟨front, digits, hends, hne, hdigits⟩
  rcases toList_uniqueName seen name with ⟨-, heq⟩ | heq
  · apply h
    rw [← heq, hends]
    use front, digits
  · rw [hends] at heq
    obtain ⟨-, hsign, -⟩ := numbered_inj rfl rfl hdigits isDigit_of_mem_toString heq
    cases hsign

/-- A chunk has the name of a span, which is unique after those that have been seen. -/
theorem exists_of_mem_cut {index : LineIndex} {path : String} {spans : List Span} {chunk : Chunk}
    (h : chunk ∈ cut index path seen spans) :
  ∃ span ∈ spans, ∃ earlier,
    chunk.id = path ++ ":" ++ uniqueName (earlier ++ seen) span.name
  := by
  induction spans generalizing seen with
  | nil => cases h
  | cons first rest ih =>
      rw [cut] at h
      rcases List.mem_cons.mp h with rfl | h
      · use first, List.mem_cons_self, []
        rfl
      · obtain ⟨span, hspan, earlier, hid⟩ := ih h
        use span, List.mem_cons_of_mem _ hspan, earlier ++ [first.name]
        rw [hid, List.append_assoc, List.singleton_append]

/-- The chunks of spans whose names do not end in numbers have different ids. -/
theorem nodup_cut (index : LineIndex) (path : String) (seen : List String) {spans : List Span}
    (h : ∀ span ∈ spans, ¬ EndsNumbered '~' span.name.toList) :
  ((cut index path seen spans).map (·.id)).Nodup
  := by
  induction spans generalizing seen with
  | nil => apply List.nodup_nil
  | cons first rest ih =>
      obtain ⟨hfirst, hrest⟩ := List.forall_mem_cons.mp h
      rw [cut, List.map_cons, List.nodup_cons]
      use fun hmem => ?_, ih (first.name :: seen) hrest
      obtain ⟨chunk, hchunk, hid⟩ := List.mem_map.mp hmem
      obtain ⟨span, hspan, earlier, heq⟩ := exists_of_mem_cut hchunk
      dsimp only [Chunk.ofFile] at hid
      rw [heq] at hid
      -- The name of the first span has been seen once more where the other one gets its name.
      have hunique : uniqueName seen first.name
          = uniqueName (earlier ++ first.name :: seen) span.name := by
        apply String.toList_inj.mp
        have := congrArg String.toList hid
        simpa using this.symm
      obtain ⟨hname, hcount⟩ := uniqueName_inj hfirst (hrest span hspan) hunique
      rw [← hname, List.count_append, List.count_cons_self] at hcount
      omega

variable {text : List Char} {language : Language} {spans : List Span}

theorem name_of_mem_moduleSpans {index : LineIndex} {span : Span}
    (h : span ∈ moduleSpans index language spans) :
  span.name = moduleName
  := by
  obtain ⟨⟨first, last⟩, -, hspan⟩ := List.mem_filterMap.mp h
  unfold moduleSpan? at hspan
  dsimp only at hspan
  obtain ⟨f, -, hspan⟩ := Option.bind_eq_some_iff.mp hspan
  obtain ⟨l, -, hspan⟩ := Option.bind_eq_some_iff.mp hspan
  split at hspan
  · rw [← Option.some.inj hspan]
  · cases hspan

/-- The selected spans have names like the given ones. -/
theorem not_endsNumbered_of_mem_select {index : LineIndex} {withModule : Bool}
    (h : ∀ span ∈ spans, ¬ EndsNumbered '~' span.name.toList ∧ ¬ EndsNumbered '#' span.name.toList)
    {span : Span} (hspan : span ∈ select index language withModule spans) :
  ¬ EndsNumbered '~' span.name.toList ∧ ¬ EndsNumbered '#' span.name.toList
  := by
  rcases of_mem_select hspan with hspan | hspan
  · apply h span hspan
  · rw [name_of_mem_moduleSpans hspan]
    apply not_endsNumbered_of_isPlain
    apply Fallback.isPlain_of_all
    decide

end Assembly

namespace SizeGuard

/-! ### Parts -/

theorem exists_of_mem_numbered {chunk small : Chunk} {n : Nat} {parts : List Part}
    (h : small ∈ numbered chunk n parts) :
  ∃ m p, n ≤ m ∧ small = part chunk m p
  := by
  induction parts generalizing n with
  | nil => cases h
  | cons p rest ih =>
      rw [numbered] at h
      rcases List.mem_cons.mp h with rfl | h
      · use n, p
      · obtain ⟨m, p', hle, rfl⟩ := ih h
        use m, p', Nat.le_of_succ_le hle

theorem nodup_numbered (chunk : Chunk) (n : Nat) (parts : List Part) :
  ((numbered chunk n parts).map (·.id)).Nodup
  := by
  induction parts generalizing n with
  | nil => apply List.nodup_nil
  | cons p rest ih =>
      rw [numbered, List.map_cons, List.nodup_cons]
      use fun hmem => ?_, ih (n + 1)
      obtain ⟨small, hsmall, hid⟩ := List.mem_map.mp hmem
      obtain ⟨m, p', hle, rfl⟩ := exists_of_mem_numbered hsmall
      dsimp only [part] at hid
      have heq : (toString m).toList = (toString n).toList := by
        have := congrArg String.toList hid
        simpa using this
      have := toString_injective heq
      omega

theorem guard_cases (maxChars : Nat) (chunk : Chunk) :
  guard maxChars chunk = [chunk] ∨ ∃ parts, guard maxChars chunk = numbered chunk 1 parts
  := by
  unfold guard guardBy
  dsimp only
  split
  · left
    rfl
  · split
    · left
      rfl
    · right
      exact ⟨_, rfl⟩

/-- The parts of a chunk have different ids. -/
theorem nodup_guard (maxChars : Nat) (chunk : Chunk) :
  ((guard maxChars chunk).map (·.id)).Nodup
  := by
  rcases guard_cases maxChars chunk with heq | ⟨parts, heq⟩
  · rw [heq]
    apply List.nodup_singleton
  · rw [heq]
    apply nodup_numbered

/-- The parent of each part is the chunk. -/
theorem parentId_of_mem_guard {maxChars : Nat} {chunk small : Chunk}
    (hid : ¬ EndsNumbered '#' chunk.id.toList) (h : small ∈ guard maxChars chunk) :
  parentId small.id = chunk.id
  := by
  rcases guard_cases maxChars chunk with heq | ⟨parts, heq⟩
  · rw [heq] at h
    rw [List.mem_singleton.mp h, parentId_eq_self hid]
  · rw [heq] at h
    obtain ⟨m, p, -, rfl⟩ := exists_of_mem_numbered h
    apply parentId_part

/-- The guarded chunks have different ids if the chunks have, and none of these ends in the number
of a part. -/
theorem nodup_guardAll (maxChars : Nat) {chunks : List Chunk} (hnodup : (chunks.map (·.id)).Nodup)
    (hids : ∀ chunk ∈ chunks, ¬ EndsNumbered '#' chunk.id.toList) :
  ((guardAll maxChars chunks).map (·.id)).Nodup
  := by
  rw [guardAll, List.map_flatMap, List.nodup_flatMap]
  use fun chunk _ => nodup_guard maxChars chunk
  apply (List.pairwise_map.mp hnodup).imp_of_mem
  intro a b ha hb hne
  apply List.disjoint_left.mpr
  intro id hid hid'
  obtain ⟨part, hpart, rfl⟩ := List.mem_map.mp hid
  obtain ⟨part', hpart', heq⟩ := List.mem_map.mp hid'
  apply hne
  rw [← parentId_of_mem_guard (hids a ha) hpart, ← parentId_of_mem_guard (hids b hb) hpart']
  exact congrArg parentId heq.symm

end SizeGuard

/-! ### Ids and names -/

/-- The id of a chunk is made of the path of a file and of the name of the chunk. -/
def Chunk.IsNamedIn (path : String) (chunk : Chunk) : Prop :=
  chunk.id = path ++ ":" ++ chunk.name

theorem Assembly.isNamedIn_of_mem_cut {index : LineIndex} {path : String} {seen : List String}
    {spans : List Span} {chunk : Chunk} (h : chunk ∈ cut index path seen spans) :
  chunk.IsNamedIn path
  := by
  induction spans generalizing seen with
  | nil => cases h
  | cons first rest ih =>
      rw [cut] at h
      rcases List.mem_cons.mp h with rfl | h
      · rfl
      · apply ih h

/-- The number of a part stands at the end of its id and of its name. -/
theorem SizeGuard.isNamedIn_of_mem_guard {maxChars : Nat} {path : String} {chunk small : Chunk}
    (hchunk : chunk.IsNamedIn path) (h : small ∈ guard maxChars chunk) :
  small.IsNamedIn path
  := by
  rcases guard_cases maxChars chunk with heq | ⟨parts, heq⟩
  · rw [heq] at h
    rw [List.mem_singleton.mp h]
    apply hchunk
  · rw [heq] at h
    obtain ⟨n, p, -, rfl⟩ := exists_of_mem_numbered h
    rw [Chunk.IsNamedIn, part, hchunk]
    simp only [String.append_assoc]

/-- The ids of the guarded chunks of a text are made of the path and their names. -/
theorem isNamedIn_of_mem_chunkGuarded {config : ChunkConfig} {path text : String} {language : Language}
    {guarded : ChunkOutcome} (h : chunkGuarded config path text language = .ok guarded) :
  ∀ chunk ∈ guarded.chunks, chunk.IsNamedIn path
  := by
  unfold chunkGuarded at h
  split at h
  · cases h
  · rename_i whole hwhole
    obtain rfl := Except.ok.inj h
    intro small hsmall
    obtain ⟨chunk, hchunk, hpart⟩ := List.mem_flatMap.mp hsmall
    apply SizeGuard.isNamedIn_of_mem_guard _ hpart
    unfold chunkText at hwhole
    dsimp only at hwhole
    split at hwhole
    · cases hwhole
    · split at hwhole
      · cases hwhole
      · obtain rfl := Except.ok.inj hwhole
        apply Assembly.isNamedIn_of_mem_cut hchunk

/-! ### The chunks of a text -/

theorem not_endsNumbered_of_mem_fallback {index : LineIndex} {language : Language} {span : Span}
    (h : span ∈ Fallback.spans index language) :
  ¬ EndsNumbered '~' span.name.toList ∧ ¬ EndsNumbered '#' span.name.toList
  := by
  obtain ⟨unit, hunit, rfl⟩ := List.mem_map.mp h
  apply not_endsNumbered_of_isPlain (Fallback.isFound_of_mem_units hunit).plain

/-- The guarded chunks of a text have different ids, and the parent of each is the id of the chunk
that it was cut from.  Where the text was read with a grammar, the names of its definitions must
not end in numbers by themselves; where it was not, they never do. -/
theorem chunkGuarded_ids {config : ChunkConfig} {path text : String} {language : Language}
    {guarded : ChunkOutcome} (h : chunkGuarded config path text language = .ok guarded)
    (hnames : guarded.degraded = none →
      ∀ span ∈ (definitionSpans (LineIndex.ofText text.toList) language).1,
        ¬ EndsNumbered '~' span.name.toList ∧ ¬ EndsNumbered '#' span.name.toList) :
  (guarded.chunks.map (·.id)).Nodup
    ∧ ∃ whole, chunkText config path text language = .ok whole
      ∧ guarded.chunks = whole.chunks.flatMap (SizeGuard.guard config.maxChars)
      ∧ ∀ chunk ∈ whole.chunks, ∀ part ∈ SizeGuard.guard config.maxChars chunk,
        parentId part.id = chunk.id
  := by
  unfold chunkGuarded at h
  split at h
  · cases h
  · rename_i whole hwhole
    obtain rfl := Except.ok.inj h
    have hchunks : (whole.chunks.map (·.id)).Nodup
        ∧ ∀ chunk ∈ whole.chunks, ¬ EndsNumbered '#' chunk.id.toList := by
      unfold chunkText at hwhole
      dsimp only at hwhole
      split at hwhole
      · cases hwhole
      · split at hwhole
        · cases hwhole
        · obtain rfl := Except.ok.inj hwhole
          dsimp only at hnames ⊢
          have hspans : ∀ span ∈ (definitionSpans (LineIndex.ofText text.toList) language).1,
              ¬ EndsNumbered '~' span.name.toList ∧ ¬ EndsNumbered '#' span.name.toList := by
            unfold definitionSpans at hnames ⊢
            split
            · rename_i htree
              rw [htree] at hnames
              apply hnames rfl
            · intro span hspan
              apply not_endsNumbered_of_mem_fallback hspan
          constructor
          · apply Assembly.nodup_cut
            intro span hspan
            apply (Assembly.not_endsNumbered_of_mem_select hspans hspan).1
          · intro chunk hchunk hends
            obtain ⟨span, hspan, earlier, hid⟩ := Assembly.exists_of_mem_cut hchunk
            rw [hid, String.toList_append, String.toList_append, List.append_assoc] at hends
            apply Assembly.not_endsNumbered_uniqueName (earlier ++ [])
              (Assembly.not_endsNumbered_of_mem_select hspans hspan).2
            apply EndsNumbered.of_append_colon _ hends
            decide
    use SizeGuard.nodup_guardAll config.maxChars hchunks.1 hchunks.2
    use whole, hwhole, rfl
    intro chunk hchunk part hpart
    apply SizeGuard.parentId_of_mem_guard (hchunks.2 chunk hchunk) hpart

/-- A text that defines a name twice. -/
def twiceDefined : String := "def f():\n  pass\ndef f():\n  pass\n"

/-- The settings that cut each of its definitions into two parts. -/
def twoParts : ChunkConfig := { maxChars := 9, moduleBlocks := true }

theorem chunkGuarded_ids_twiceDefined :
  ∃ guarded, chunkGuarded twoParts "a.py" twiceDefined .python = .ok guarded
    ∧ (∀ span ∈ (definitionSpans (LineIndex.ofText twiceDefined.toList) .python).1,
      ¬ EndsNumbered '~' span.name.toList ∧ ¬ EndsNumbered '#' span.name.toList)
    ∧ (guarded.chunks.map (·.id)).Nodup
    ∧ ∃ whole, chunkText twoParts "a.py" twiceDefined .python = .ok whole
      ∧ ∀ chunk ∈ whole.chunks, ∀ part ∈ SizeGuard.guard 9 chunk, parentId part.id = chunk.id
  := by
  have hread : (chunkGuarded twoParts "a.py" twiceDefined .python).toOption.isSome := by
    decide +kernel
  have hspans : (definitionSpans (LineIndex.ofText twiceDefined.toList) .python).1.map (·.name)
      = ["f", "f"] := by
    decide +kernel
  have hnames : ∀ span ∈ (definitionSpans (LineIndex.ofText twiceDefined.toList) .python).1,
      ¬ EndsNumbered '~' span.name.toList ∧ ¬ EndsNumbered '#' span.name.toList := by
    intro span hspan
    apply not_endsNumbered_of_isPlain
    have hname : span.name ∈ ["f", "f"] := hspans ▸ List.mem_map_of_mem hspan
    have hname : span.name = "f" := by simpa using hname
    rw [hname]
    apply Fallback.isPlain_of_all
    decide
  cases hguarded : chunkGuarded twoParts "a.py" twiceDefined .python with
  | error e =>
      rw [hguarded] at hread
      cases hread
  | ok guarded =>
      obtain ⟨hnodup, whole, hwhole, -, hparents⟩ := chunkGuarded_ids hguarded fun _ => hnames
      use guarded, rfl, hnames, hnodup, whole, hwhole, hparents

end Scrutiny
