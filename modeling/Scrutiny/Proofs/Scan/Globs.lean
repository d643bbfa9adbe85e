import Mathlib.Computability.Language
import Scrutiny.Proofs.Text.Utf8
import Scrutiny.Scan.Glob

/-!
# What globs match

The parts of a glob match texts, and the glob matches what its parts match one after the other: the
marks that a part leaves stand where the texts end that were matched so far.
-/

/-- Sets of texts, each text the list of its bytes. -/
abbrev ByteLanguage := Language UInt8

namespace Scrutiny.Glob

open Text

variable {rules : GlobRules} {text : List UInt8} {marks others found : List Bool}
  {L M : ByteLanguage} {test : UInt8 → Bool}

/-! ### The texts of parts -/

/-- The texts of one byte that passes a test. -/
def single (test : UInt8 → Bool) : ByteLanguage :=
  {bytes : List UInt8 | ∃ b, bytes = [b] ∧ test b}

/-- The texts whose bytes all pass a test. -/
def run (test : UInt8 → Bool) : ByteLanguage :=
  {bytes : List UInt8 | ∀ b ∈ bytes, test b}

mutual

/-- The texts that a part matches. -/
def language (rules : GlobRules) : GlobPart → ByteLanguage
  | .literal c => {bytesOf (String.singleton c)}
  | .one => single fun b => rules.crossing || !isSlash b
  | .many => run fun b => rules.crossing || !isSlash b
  | .leading => 1 + ⊤ * single isSlash
  | .inside => single isSlash * ⊤
  | .between => single isSlash + single isSlash * ⊤ * single isSlash
  | .oneOf negated ranges =>
    let bytes := ranges.flatMap byteRanges
    single fun b => (bytes.any fun (low, high) => low ≤ b && b ≤ high) != negated
  | .choice branches => if areVoidBranches branches then 1 else languageAny rules branches

/-- The texts that some parts match one after the other. -/
def languageAll (rules : GlobRules) : List GlobPart → ByteLanguage
  | [] => 1
  | part :: rest => language rules part * languageAll rules rest

/-- The texts that one of several branches matches; branches without a text of their own do not
count. -/
def languageAny (rules : GlobRules) : List (List GlobPart) → ByteLanguage
  | [] => 0
  | branch :: rest => (if areVoid branch then 0 else languageAll rules branch) + languageAny rules rest

end

/-! ### Marks -/

/-- Marks stand where the texts of a language end that a text starts with. -/
structure Denotes (text : List UInt8) (marks : List Bool) (L : ByteLanguage) : Prop where
  length_eq : marks.length = text.length + 1
  mark_iff : ∀ start rest, text = start ++ rest → (marks[start.length]? = some true ↔ start ∈ L)

theorem append_mem_mul_single {front : List UInt8} {b : UInt8} :
  front ++ [b] ∈ L * single test ↔ front ∈ L ∧ test b
  := by
  rw [Language.mem_mul]
  constructor
  · rintro ⟨start, hstart, _, ⟨c, rfl, hc⟩, heq⟩
    obtain ⟨rfl, hlast⟩ := List.append_inj' heq rfl
    obtain rfl := List.singleton_inj.mp hlast
    exact ⟨hstart, hc⟩
  · rintro ⟨hfront, hb⟩
    exact ⟨front, hfront, [b], ⟨b, rfl, hb⟩, rfl⟩

theorem nil_notMem_mul_single :
  [] ∉ L * single test
  := by
  rw [Language.mem_mul]
  rintro ⟨start, -, _, ⟨b, rfl, -⟩, heq⟩
  simp at heq

theorem Denotes.step (h : Denotes text marks L) (test : UInt8 → Bool) :
  Denotes text (step test text marks) (L * single test)
  := by
  have hlength := h.length_eq
  constructor
  · simp only [Glob.step, List.length_cons, List.length_zipWith]
    omega
  · intro start rest htext
    rcases List.eq_nil_or_concat' start with rfl | ⟨front, b, rfl⟩
    · simp [Glob.step, nil_notMem_mul_single]
    · have hfront := h.mark_iff front (b :: rest) (by rw [htext]; simp)
      have hbyte : text[front.length]? = some b := by simp [htext]
      rw [append_mem_mul_single, ← hfront, Glob.step, List.length_append, List.length_singleton,
        List.getElem?_cons_succ, List.getElem?_zipWith, hbyte]
      cases marks[front.length]? <;> simp

theorem mem_run {bytes : List UInt8} :
  bytes ∈ run test ↔ ∀ b ∈ bytes, test b
  := Iff.rfl

theorem run_true :
  run (fun _ => true) = ⊤
  := by
  ext bytes
  simp only [mem_run, implies_true, true_iff]
  trivial

/-- A run goes on from the marks of its start, or from one that is under way. -/
theorem spread_iff {reached : Bool} (hlength : marks.length = text.length + 1)
    {start rest : List UInt8} (htext : text = start ++ rest) :
  (spread test reached text marks)[start.length]? = some true
    ↔ (reached = true ∧ start ∈ run test)
      ∨ ∃ front last, start = front ++ last ∧ marks[front.length]? = some true ∧ last ∈ run test
  := by
  induction text generalizing reached marks start with
  | nil =>
      obtain ⟨rfl, rfl⟩ := List.append_eq_nil_iff.mp htext.symm
      obtain ⟨mark, rfl⟩ := List.length_eq_one_iff.mp hlength
      simp [spread, mem_run, and_assoc]
  | cons b text ih =>
      obtain ⟨mark, marks, rfl⟩ := List.exists_cons_of_length_eq_add_one hlength
      have hlength := Nat.succ.inj hlength
      rw [spread]
      cases start with
      | nil => simp [mem_run, and_assoc]
      | cons c start =>
          obtain ⟨rfl, hrest⟩ := List.cons.inj htext
          rw [List.length_cons, List.getElem?_cons_succ, ih hlength hrest]
          constructor
          · rintro (⟨hreached, hstart⟩ | ⟨front, last, rfl, hmark, hlast⟩)
            · simp only [Bool.and_eq_true, Bool.or_eq_true] at hreached
              obtain ⟨hreached | hmark, hb⟩ := hreached
              · left
                exact ⟨hreached, List.forall_mem_cons.mpr ⟨hb, hstart⟩⟩
              · right
                use [], b :: start, rfl, congrArg some hmark
                exact List.forall_mem_cons.mpr ⟨hb, hstart⟩
            · right
              exact ⟨b :: front, last, rfl, hmark, hlast⟩
          · rintro (⟨hreached, hstart⟩ | ⟨front, last, heq, hmark, hlast⟩)
            · left
              obtain ⟨hb, hstart⟩ := List.forall_mem_cons.mp hstart
              exact ⟨by rw [hreached, hb]; rfl, hstart⟩
            · cases front with
              | nil =>
                  left
                  obtain rfl : b :: start = last := heq
                  obtain ⟨hb, hstart⟩ := List.forall_mem_cons.mp hlast
                  obtain rfl := Option.some.inj hmark
                  exact ⟨by rw [hb, Bool.or_true]; rfl, hstart⟩
              | cons c front =>
                  right
                  obtain ⟨rfl, rfl⟩ := List.cons.inj heq
                  exact ⟨front, last, rfl, hmark, hlast⟩

theorem length_spread (test : UInt8 → Bool) (reached : Bool)
    (hlength : marks.length = text.length + 1) :
  (spread test reached text marks).length = text.length + 1
  := by
  induction text generalizing reached marks with
  | nil =>
      obtain ⟨mark, rfl⟩ := List.length_eq_one_iff.mp hlength
      rfl
  | cons b text ih =>
      obtain ⟨mark, marks, rfl⟩ := List.exists_cons_of_length_eq_add_one hlength
      rw [spread, List.length_cons, ih _ (Nat.succ.inj hlength), List.length_cons]

theorem Denotes.spread (h : Denotes text marks L) (test : UInt8 → Bool) :
  Denotes text (spread test false text marks) (L * run test)
  := by
  use length_spread test false h.length_eq
  intro start rest htext
  rw [spread_iff h.length_eq htext, Language.mem_mul]
  constructor
  · rintro (⟨hfalse, -⟩ | ⟨front, last, rfl, hmark, hlast⟩)
    · cases hfalse
    · rw [List.append_assoc] at htext
      exact ⟨front, (h.mark_iff front _ htext).mp hmark, last, hlast, rfl⟩
  · rintro ⟨front, hfront, last, hlast, rfl⟩
    right
    rw [List.append_assoc] at htext
    exact ⟨front, last, rfl, (h.mark_iff front _ htext).mpr hfront, hlast⟩

theorem Denotes.union (h : Denotes text marks L) (h' : Denotes text others M) :
  Denotes text (union marks others) (L + M)
  := by
  constructor
  · rw [Glob.union, List.length_zipWith, h.length_eq, h'.length_eq, Nat.min_self]
  · intro start rest htext
    have hlength : start.length < marks.length := by
      rw [h.length_eq, htext, List.length_append]
      omega
    have hlength' : start.length < others.length := by
      rw [h'.length_eq, htext, List.length_append]
      omega
    rw [Language.mem_add, ← h.mark_iff start rest htext, ← h'.mark_iff start rest htext, Glob.union,
      List.getElem?_zipWith, List.getElem?_eq_getElem hlength, List.getElem?_eq_getElem hlength']
    simp

/-- The bytes of a text are matched one after the other. -/
theorem Denotes.foldl_step (h : Denotes text marks L) (bytes : List UInt8) :
  Denotes text (bytes.foldl (fun marks b => Glob.step (· == b) text marks) marks) (L * {bytes})
  := by
  induction bytes generalizing marks L with
  | nil =>
      have hone : ({[]} : ByteLanguage) = 1 := rfl
      rw [hone, mul_one]
      apply h
  | cons b rest ih =>
      have hcons : single (· == b) * {rest} = {b :: rest} := by
        ext bytes
        rw [Language.mem_mul]
        constructor
        · rintro ⟨_, ⟨c, rfl, hc⟩, _, rfl, rfl⟩
          rw [eq_of_beq hc]
          rfl
        · rintro rfl
          exact ⟨[b], ⟨b, rfl, beq_self_eq_true b⟩, rest, rfl, rfl⟩
      rw [List.foldl_cons, ← hcons, ← mul_assoc]
      apply ih (h.step _)

theorem Denotes.none (h : Denotes text marks L) :
  Denotes text (marks.map fun _ => false) 0
  := by
  constructor
  · rw [List.length_map, h.length_eq]
  · intro start rest _
    simp [List.getElem?_replicate]

/-! ### Marks after parts -/

mutual

/-- After a part, what was matched is followed by what the part matches. -/
theorem Denotes.after (rules : GlobRules) {marks : List Bool} {L : ByteLanguage}
    (h : Denotes text marks L) :
  (part : GlobPart) → Denotes text (after rules text part marks) (L * language rules part)
  | .literal c => by
    rw [Glob.after, language]
    apply h.foldl_step
  | .one => by
    rw [Glob.after, language]
    apply h.step
  | .many => by
    rw [Glob.after, language]
    apply h.spread
  | .leading => by
    rw [Glob.after, language, mul_add, mul_one, ← mul_assoc, ← run_true]
    apply h.union ((h.spread _).step _)
  | .inside => by
    rw [Glob.after, language, ← mul_assoc, ← run_true]
    apply (h.step _).spread
  | .between => by
    rw [Glob.after, language, mul_add, ← mul_assoc, ← mul_assoc, ← run_true]
    apply (h.step _).union (((h.step _).spread _).step _)
  | .oneOf negated ranges => by
    rw [Glob.after, language]
    apply h.step
  | .choice branches => by
    rw [Glob.after, language]
    split_ifs
    · rw [mul_one]
      apply h
    · have hany := Denotes.afterAny rules h h.none branches
      rw [zero_add] at hany
      apply hany

theorem Denotes.afterAll (rules : GlobRules) {marks : List Bool} {L : ByteLanguage}
    (h : Denotes text marks L) :
  (parts : List GlobPart) →
    Denotes text (afterAll rules text parts marks) (L * languageAll rules parts)
  | [] => by
    rw [Glob.afterAll, languageAll, mul_one]
    apply h
  | part :: rest => by
    rw [Glob.afterAll, languageAll, ← mul_assoc]
    apply Denotes.afterAll rules (Denotes.after rules h part) rest

theorem Denotes.afterAny (rules : GlobRules) {marks found : List Bool} {L M : ByteLanguage}
    (h : Denotes text marks L) (hfound : Denotes text found M) :
  (branches : List (List GlobPart)) →
    Denotes text (afterAny rules text branches marks found) (M + L * languageAny rules branches)
  | [] => by
    rw [Glob.afterAny, languageAny, mul_zero, add_zero]
    apply hfound
  | branch :: rest => by
    rw [Glob.afterAny, languageAny]
    split_ifs
    · rw [zero_add]
      apply Denotes.afterAny rules h hfound rest
    · rw [mul_add, ← add_assoc]
      apply Denotes.afterAny rules h (hfound.union (Denotes.afterAll rules h branch)) rest

end

theorem denotes_start (text : List UInt8) :
  Denotes text (true :: List.replicate text.length false) 1
  := by
  constructor
  · simp
  · intro start rest _
    cases start <;> simp [List.getElem?_replicate]

/-- A glob matches the texts that its parts match one after the other, and everything if it stands for
any number of folders. -/
theorem accepts_iff (glob : Glob) (text : String) :
  glob.accepts text ↔ glob.isAnything ∨ bytesOf text ∈ languageAll glob.rules glob.parts
  := by
  have hdenotes := Denotes.afterAll glob.rules (denotes_start (bytesOf text)) glob.parts
  have hmark := hdenotes.mark_iff (bytesOf text) [] (by simp)
  rw [one_mul] at hmark
  rw [accepts, Bool.or_eq_true, ← hmark, List.getLastD_eq_getLast?, List.getLast?_eq_getElem?,
    hdenotes.length_eq, Nat.add_sub_cancel]
  cases (afterAll glob.rules (bytesOf text) glob.parts
    (true :: List.replicate (bytesOf text).length false))[(bytesOf text).length]? <;> simp

/-! ### What follows a folder -/

theorem languageAll_append (rules : GlobRules) (front back : List GlobPart) :
  languageAll rules (front ++ back) = languageAll rules front * languageAll rules back
  := by
  induction front with
  | nil => rw [List.nil_append, languageAll, one_mul]
  | cons part front ih => rw [List.cons_append, languageAll, languageAll, ih, mul_assoc]

/-- Everything below what some parts match. -/
theorem mem_languageAll_inside {front : List GlobPart} :
  text ∈ languageAll rules (front ++ [.inside])
    ↔ ∃ start rest, text = start ++ 0x2f :: rest ∧ start ∈ languageAll rules front
  := by
  rw [languageAll_append, languageAll, languageAll, mul_one, language, Language.mem_mul]
  constructor
  · rintro ⟨start, hstart, last, hlast, rfl⟩
    obtain ⟨_, ⟨b, rfl, hb⟩, rest, -, rfl⟩ := Language.mem_mul.mp hlast
    rw [isSlash, beq_iff_eq] at hb
    exact ⟨start, rest, by rw [hb]; rfl, hstart⟩
  · rintro ⟨start, rest, rfl, hstart⟩
    refine ⟨start, hstart, 0x2f :: rest, Language.mem_mul.mpr ?_, rfl⟩
    exact ⟨[0x2f], ⟨0x2f, rfl, rfl⟩, rest, trivial, rfl⟩

end Scrutiny.Glob
