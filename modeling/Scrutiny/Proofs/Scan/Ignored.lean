import Scrutiny.Proofs.Path
import Scrutiny.Proofs.Scan.Globs
import Scrutiny.Scan.Rules

/-!
# Globs with everything below

A glob is read step by step.  If it can be read, it can be read with a slash and two stars behind it
as well; what is read then are the parts of the glob with one for everything below at their end, unless
there is such a part already.
-/

namespace Scrutiny.Glob

open Text

variable {rules : GlobRules} {progress next : Progress} {text rest later more : List Char}
  {parts : List GlobPart}

/-- The characters that do not always stand for themselves. -/
def specialChars : List Char := ['?', '*', '[', '\x7b', '\x7d', ',', '\\']

/-- One step of reading a glob. -/
inductive Step (rules : GlobRules) (progress : Progress) :
    (text : List Char) → (next : Progress) → (later : List Char) → Prop where
  | one (rest : List Char) : Step rules progress ('?' :: rest) (progress.push '?' .one) rest
  | stars (rest : List Char) :
    Step rules progress ('*' :: '*' :: rest) (doubleStar progress rest).1 (doubleStar progress rest).2
  | many {rest : List Char} (h : rest.head? ≠ some '*') :
    Step rules progress ('*' :: rest) (progress.push '*' .many) rest
  | plainBracket (h : progress.plainBrackets = true) (rest : List Char) :
    Step rules progress ('[' :: rest) (progress.push '[' (.literal '[')) rest
  | bracket (h : progress.plainBrackets = false) {rest later : List Char} {part : GlobPart}
    (hread : readClass rest = .ok (part, later)) :
    Step rules progress ('[' :: rest) (progress.push ']' part) later
  | openBracket (h : progress.plainBrackets = false) {rest : List Char}
    (hread : readClass rest = .error .unclosed) (hrules : rules.openBrackets = true) :
    Step rules progress ('[' :: rest) { progress.push '[' (.literal '[') with plainBrackets := true } rest
  | opened (rest : List Char) :
    Step rules progress ('\x7b' :: rest)
      { progress with last := some '\x7b',
                      choices := { before := progress.current, branches := [] } :: progress.choices,
                      current := [] } rest
  | closed {choice : OpenChoice} {outer : List OpenChoice} (h : progress.choices = choice :: outer)
    (rest : List Char) :
    Step rules progress ('\x7d' :: rest)
      { progress with last := some '\x7d', choices := outer,
                      current := .choice ((progress.current :: choice.branches).map List.reverse).reverse
                        :: choice.before } rest
  | comma (h : progress.choices = []) (rest : List Char) :
    Step rules progress (',' :: rest) (progress.push ',' (.literal ',')) rest
  | branch {choice : OpenChoice} {outer : List OpenChoice} (h : progress.choices = choice :: outer)
    (rest : List Char) :
    Step rules progress (',' :: rest)
      { progress with last := some ',',
                      choices := { choice with branches := progress.current :: choice.branches } :: outer,
                      current := [] } rest
  | escaped (c : Char) (rest : List Char) :
    Step rules progress ('\\' :: c :: rest) (progress.push c (.literal c)) rest
  | literal {c : Char} (h : c ∉ specialChars) (rest : List Char) :
    Step rules progress (c :: rest) (progress.push c (.literal c)) rest

theorem Step.readParts_eq (h : Step rules progress text next later) (fuel : Nat) :
  readParts rules (fuel + 1) progress text = readParts rules fuel next later
  := by
  cases h with
  | one => rw [readParts]
  | stars => rw [readParts]
  | many h =>
      rw [readParts]
      rintro later rfl
      exact h rfl
  | plainBracket h => rw [readParts, if_pos h]
  | bracket h hread =>
      rw [readParts, h, hread]
      rfl
  | openBracket h hread hrules =>
      rw [readParts, h, hread, hrules]
      rfl
  | opened => rw [readParts]
  | closed h => rw [readParts, h]
  | comma h => rw [readParts, h]
  | branch h => rw [readParts, h]
  | escaped => rw [readParts]
  | literal h =>
      rw [readParts]
      all_goals
        rintro rfl
        apply h
        decide

/-- What can be read is read by a step. -/
theorem exists_step {fuel : Nat} {c : Char}
    (h : readParts rules (fuel + 1) progress (c :: rest) = some parts) :
  ∃ next later, Step rules progress (c :: rest) next later
    ∧ readParts rules fuel next later = some parts
  := by
  suffices hstep : ∃ next later, Step rules progress (c :: rest) next later by
    obtain ⟨next, later, hstep⟩ := hstep
    rw [hstep.readParts_eq] at h
    exact ⟨next, later, hstep, h⟩
  by_cases hspecial : c ∈ specialChars
  · simp only [specialChars, List.mem_cons, List.not_mem_nil, or_false] at hspecial
    rcases hspecial with rfl | rfl | rfl | rfl | rfl | rfl | rfl
    · exact ⟨_, _, .one rest⟩
    · by_cases hstar : rest.head? = some '*'
      · obtain ⟨later, rfl⟩ := List.head?_eq_some_iff.mp hstar
        exact ⟨_, _, .stars later⟩
      · exact ⟨_, _, .many hstar⟩
    · cases hplain : progress.plainBrackets with
      | true => exact ⟨_, _, .plainBracket hplain rest⟩
      | false =>
          rw [readParts, hplain] at h
          cases hread : readClass rest with
          | ok read => exact ⟨_, _, .bracket hplain hread⟩
          | error fault =>
              rw [hread] at h
              cases fault with
              | reversed => cases h
              | unclosed =>
                  cases hrules : rules.openBrackets with
                  | true => exact ⟨_, _, .openBracket hplain hread hrules⟩
                  | false =>
                      rw [hrules] at h
                      cases h
    · exact ⟨_, _, .opened rest⟩
    · cases hchoices : progress.choices with
      | nil =>
          rw [readParts, hchoices] at h
          cases h
      | cons choice outer => exact ⟨_, _, .closed hchoices rest⟩
    · cases hchoices : progress.choices with
      | nil => exact ⟨_, _, .comma hchoices rest⟩
      | cons choice outer => exact ⟨_, _, .branch hchoices rest⟩
    · cases rest with
      | nil =>
          rw [readParts] at h
          cases h
      | cons c rest => exact ⟨_, _, .escaped c rest⟩
  · exact ⟨_, _, .literal hspecial rest⟩

/-! ### Longer texts -/

theorem readBracket_append {first : Bool} {listed : Listed} {ranges : List (Char × Char)}
    (h : readBracket first listed text = .ok (ranges, rest)) (more : List Char) :
  readBracket first listed (text ++ more) = .ok (ranges, rest ++ more)
  := by
  induction text generalizing first listed with
  | nil => cases h
  | cons c text ih =>
      rw [readBracket] at h
      rw [List.cons_append, readBracket]
      by_cases hend : (c == ']' && !first) = true
      · rw [if_pos hend] at h ⊢
        cases h
        rfl
      · rw [if_neg hend] at h ⊢
        by_cases hdash : (c == '-' && !first && !listed.pending) = true
        · rw [if_pos hdash] at h ⊢
          apply ih h
        · rw [if_neg hdash] at h ⊢
          cases hadd : listed.add c with
          | error fault =>
              rw [hadd] at h
              cases h
          | ok wider =>
              rw [hadd] at h
              apply ih h

/-- A bracket, after the mark that negates it. -/
def readRanges (negated : Bool) (text : List Char) : Except BracketFault (GlobPart × List Char) :=
  (readBracket true { ranges := [], pending := false } text).map
    fun (ranges, rest) => (.oneOf negated ranges, rest)

theorem readClass_cons (c : Char) (text : List Char) :
  readClass (c :: text)
    = if c = '!' ∨ c = '^' then readRanges true text else readRanges false (c :: text)
  := by
  split_ifs with hmark
  · rcases hmark with rfl | rfl
    all_goals
      rw [readClass, readRanges]
      cases readBracket true { ranges := [], pending := false } text <;> rfl
  · obtain ⟨hexclamation, hcaret⟩ := not_or.mp hmark
    rw [readClass, readRanges]
    · dsimp only
      cases readBracket true { ranges := [], pending := false } (c :: text) <;> rfl
    · intro rest heq
      exact hexclamation (List.cons.inj heq).1
    · intro rest heq
      exact hcaret (List.cons.inj heq).1

theorem of_readRanges_eq_ok {negated : Bool} {part : GlobPart}
    (h : readRanges negated text = .ok (part, rest)) (more : List Char) :
  (∃ ranges, part = .oneOf negated ranges)
    ∧ readRanges negated (text ++ more) = .ok (part, rest ++ more)
  := by
  rw [readRanges] at h
  cases hread : readBracket true { ranges := [], pending := false } text with
  | error fault =>
      rw [hread] at h
      cases h
  | ok read =>
      rw [hread] at h
      rw [readRanges, readBracket_append hread more]
      cases h
      exact ⟨⟨_, rfl⟩, rfl⟩

/-- A bracket is one part, and is read up to its end whatever follows. -/
theorem of_readClass_eq_ok {part : GlobPart} (h : readClass text = .ok (part, rest))
    (more : List Char) :
  (∃ negated ranges, part = .oneOf negated ranges)
    ∧ readClass (text ++ more) = .ok (part, rest ++ more)
  := by
  cases text with
  | nil => cases h
  | cons c text =>
      rw [readClass_cons] at h
      rw [List.cons_append, readClass_cons]
      split_ifs at h ⊢
      · obtain ⟨hpart, hmore⟩ := of_readRanges_eq_ok h more
        exact ⟨⟨true, hpart⟩, hmore⟩
      · obtain ⟨hpart, hmore⟩ := of_readRanges_eq_ok h more
        exact ⟨⟨false, hpart⟩, hmore⟩

/-! ### Two stars -/

/-- Two stars that are a part of a path of their own change nothing after such stars. -/
def joined (lastPart part : GlobPart) : GlobPart :=
  match lastPart with
  | .leading => .leading
  | .inside => .inside
  | _ => part

theorem doubleStar_start_end (h : progress.current = []) :
  doubleStar progress [] = (progress.push '*' .leading, [])
  := by
  rw [doubleStar.eq_def, h]

theorem doubleStar_start_slash (h : progress.current = []) (rest : List Char) :
  doubleStar progress ('/' :: rest) = (progress.push '/' .leading, rest)
  := by
  rw [doubleStar.eq_def, h]
  rfl

theorem doubleStar_start_plain (h : progress.current = []) {c : Char} (hc : c ≠ '/') :
  doubleStar progress (c :: rest) = ((progress.push '*' .many).push '*' .many, c :: rest)
  := by
  rw [doubleStar.eq_def, h]
  dsimp only
  split
  · contradiction
  · rename_i heq
    cases hc (List.cons.inj heq).1
  · rfl

theorem doubleStar_plain {lastPart : GlobPart} {earlier : List GlobPart}
    (hcurrent : progress.current = lastPart :: earlier) (hlast : progress.last ≠ some '/')
    (hchoices : progress.choices = []) :
  doubleStar progress rest = ((progress.push '*' .many).push '*' .many, rest)
  := by
  rw [doubleStar.eq_def, hcurrent, hchoices]
  dsimp only
  rw [if_pos]
  simpa using hlast

theorem doubleStar_slash_end {lastPart : GlobPart} {earlier : List GlobPart}
    (hcurrent : progress.current = lastPart :: earlier) (hlast : progress.last = some '/') :
  doubleStar progress []
    = ({ progress with last := some '*', current := joined lastPart .inside :: earlier }, [])
  := by
  rw [doubleStar.eq_def, hcurrent, hlast]
  rfl

theorem doubleStar_slash {lastPart : GlobPart} {earlier : List GlobPart}
    (hcurrent : progress.current = lastPart :: earlier) (hlast : progress.last = some '/')
    (rest : List Char) :
  doubleStar progress ('/' :: rest)
    = ({ progress with last := some '/', current := joined lastPart .between :: earlier }, rest)
  := by
  rw [doubleStar.eq_def, hcurrent, hlast]
  rfl

theorem doubleStar_append (h : rest ≠ []) (progress : Progress) (more : List Char) :
  doubleStar progress (rest ++ more)
    = ((doubleStar progress rest).1, (doubleStar progress rest).2 ++ more)
  := by
  obtain ⟨c, rest, rfl⟩ := List.exists_cons_of_ne_nil h
  cases hcurrent : progress.current with
  | nil =>
      by_cases hc : c = '/'
      · rw [hc, List.cons_append, doubleStar_start_slash hcurrent,
          doubleStar_start_slash hcurrent]
      · rw [List.cons_append, doubleStar_start_plain hcurrent hc, doubleStar_start_plain hcurrent hc,
          List.cons_append]
  | cons lastPart earlier =>
      rw [List.cons_append, doubleStar.eq_def, doubleStar.eq_def, hcurrent]
      dsimp only
      split_ifs <;> rfl

theorem choices_doubleStar (progress : Progress) (rest : List Char) :
  (doubleStar progress rest).1.choices = progress.choices
  := by
  rw [doubleStar.eq_def]
  dsimp only
  split
  · split <;> rfl
  · split_ifs
    · rfl
    · split
      · rfl
      · split_ifs <;> rfl

/-! ### Steps and runs -/

/-- A step is the same in a longer text, unless two stars are at the end of the shorter one. -/
theorem Step.append (h : Step rules progress text next later) (hstars : text ≠ ['*', '*'])
    (hrules : rules.openBrackets = false) (hmore : more.head? ≠ some '*') :
  Step rules progress (text ++ more) next (later ++ more)
  := by
  cases h with
  | one => exact .one _
  | stars rest =>
      have hrest : rest ≠ [] := by
        rintro rfl
        exact hstars rfl
      have hstep : Step rules progress ('*' :: '*' :: (rest ++ more))
          (doubleStar progress (rest ++ more)).1 (doubleStar progress (rest ++ more)).2 := .stars _
      rw [doubleStar_append hrest] at hstep
      exact hstep
  | many h =>
      apply Step.many
      cases later with
      | nil => exact hmore
      | cons c rest => exact h
  | plainBracket h => exact .plainBracket h _
  | bracket h hread => exact .bracket h (of_readClass_eq_ok hread more).2
  | openBracket h hread hopen =>
      rw [hrules] at hopen
      cases hopen
  | opened => exact .opened _
  | closed h => exact .closed h _
  | comma h => exact .comma h _
  | branch h => exact .branch h _
  | escaped => exact .escaped _ _
  | literal h => exact .literal h _

/-- Any number of folders at the start of a branch stands alone. -/
def Progress.LeadsAlone (progress : Progress) : Prop :=
  ∀ earlier, progress.current = .leading :: earlier → earlier = []

theorem leadsAlone_doubleStar (h : progress.LeadsAlone) (rest : List Char) :
  (doubleStar progress rest).1.LeadsAlone
  := by
  rw [doubleStar.eq_def]
  dsimp only
  split
  · rename_i hcurrent
    split
    · intro earlier heq
      exact (List.cons.inj heq).2 ▸ hcurrent
    · intro earlier heq
      exact (List.cons.inj heq).2 ▸ hcurrent
    · intro earlier heq
      cases heq
  · rename_i lastPart others hcurrent
    -- The parts that stay in place of the last one are for any number of folders only if it was.
    have hjoined (part : GlobPart) (hpart : part ≠ .leading) :
        Progress.LeadsAlone { progress with current := joined lastPart part :: others } := by
      intro earlier heq
      obtain ⟨hhead, rfl⟩ := List.cons.inj heq
      cases lastPart with
      | leading => exact h others hcurrent
      | inside => cases hhead
      | _ => cases hpart hhead
    split_ifs
    · intro earlier heq
      cases heq
    · split
      · exact hjoined .inside (by simp)
      · split_ifs
        · exact hjoined .inside (by simp)
        · exact hjoined .between (by simp)
        · intro earlier heq
          cases heq

theorem Step.leadsAlone (h : Step rules progress text next later) (hleads : progress.LeadsAlone) :
  next.LeadsAlone
  := by
  cases h with
  | stars rest => apply leadsAlone_doubleStar hleads
  | bracket _ hread =>
      obtain ⟨negated, ranges, rfl⟩ := (of_readClass_eq_ok hread []).1
      intro earlier heq
      cases heq
  | _ =>
      intro earlier heq
      cases heq

/-! ### Everything below -/

/-- Some parts, and those for what they match and for everything below: one more at the end, unless it
is there already or they stand for everything. -/
inductive Deepens : List GlobPart → List GlobPart → Prop where
  | below (front : List GlobPart) : Deepens front (front ++ [.inside])
  | same (front : List GlobPart) : Deepens (front ++ [.inside]) (front ++ [.inside])
  | anything : Deepens [.leading] [.leading]

theorem readParts_nil {fuel : Nat} :
  readParts rules (fuel + 1) progress [] = some parts
    ↔ progress.choices = [] ∧ progress.current.reverse = parts
  := by
  rw [readParts]
  cases progress.choices <;> simp

/-- After a slash and two stars at the end of a glob, everything below is matched. -/
theorem readParts_slash_stars (fuel : Nat) (h : progress.choices = []) :
  readParts rules (fuel + 3) progress ['/', '*', '*'] = some (progress.current.reverse ++ [.inside])
  := by
  have hslash : '/' ∉ specialChars := by decide
  rw [(Step.literal hslash _).readParts_eq, (Step.stars _).readParts_eq, doubleStar_slash_end rfl rfl]
  dsimp only
  rw [readParts_nil]
  exact ⟨h, by simp [joined]⟩

theorem snd_doubleStar_nil (progress : Progress) :
  (doubleStar progress []).2 = []
  := by
  rw [doubleStar.eq_def]
  dsimp only
  split
  · rfl
  · split_ifs <;> rfl

theorem exists_readParts_stars_below {fuel : Nat} (hleads : progress.LeadsAlone)
    (h : readParts rules (fuel + 1) progress ['*', '*'] = some parts) :
  ∃ deeper, readParts rules (fuel + 4) progress ['*', '*', '/', '*', '*'] = some deeper
    ∧ Deepens parts deeper
  := by
  rw [(Step.stars []).readParts_eq, snd_doubleStar_nil] at h
  obtain - | fuel := fuel
  · cases h
  rw [readParts_nil, choices_doubleStar] at h
  obtain ⟨hchoices, rfl⟩ := h
  rw [(Step.stars _).readParts_eq]
  cases hcurrent : progress.current with
  | nil =>
      rw [doubleStar_start_end hcurrent, doubleStar_start_slash hcurrent]
      dsimp only
      have hleading : (progress.push '/' .leading).current = [.leading] := by
        rw [Progress.push, hcurrent]
      rw [(Step.stars []).readParts_eq, doubleStar_slash_end hleading rfl]
      dsimp only
      refine ⟨_, readParts_nil.mpr ⟨hchoices, rfl⟩, ?_⟩
      rw [Progress.push, hcurrent]
      exact .anything
  | cons lastPart earlier =>
      by_cases hlast : progress.last = some '/'
      · rw [doubleStar_slash_end hcurrent hlast, doubleStar_slash hcurrent hlast]
        dsimp only
        rw [(Step.stars []).readParts_eq, doubleStar_slash_end rfl rfl]
        dsimp only
        refine ⟨_, readParts_nil.mpr ⟨hchoices, rfl⟩, ?_⟩
        rw [List.reverse_cons, List.reverse_cons]
        cases lastPart with
        | leading =>
            obtain rfl := hleads earlier hcurrent
            exact .anything
        | _ => exact .same _
      · rw [doubleStar_plain hcurrent hlast hchoices, doubleStar_plain hcurrent hlast hchoices]
        exact ⟨_, readParts_slash_stars _ hchoices, .below _⟩

/-- A slash and two stars at the end of what can be read add at most one part. -/
theorem exists_readParts_below (hrules : rules.openBrackets = false) {fuel : Nat}
    (hleads : progress.LeadsAlone) (h : readParts rules fuel progress text = some parts) :
  ∃ deeper, readParts rules (fuel + 3) progress (text ++ ['/', '*', '*']) = some deeper
    ∧ Deepens parts deeper
  := by
  induction fuel generalizing progress text with
  | zero => cases h
  | succ fuel ih =>
      cases text with
      | nil =>
          obtain ⟨hchoices, rfl⟩ := readParts_nil.mp h
          exact ⟨_, readParts_slash_stars _ hchoices, .below _⟩
      | cons c rest =>
          by_cases hstars : c :: rest = ['*', '*']
          · rw [hstars] at h ⊢
            apply exists_readParts_stars_below hleads h
          · obtain ⟨next, later, hstep, hnext⟩ := exists_step h
            have hslash : ['/', '*', '*'].head? ≠ some '*' := by decide
            rw [(hstep.append hstars hrules hslash).readParts_eq]
            apply ih (hstep.leadsAlone hleads) hnext

theorem exists_ofText?_below (hrules : rules.openBrackets = false) {pattern : List Char} {glob : Glob}
    (h : ofText? rules pattern = some glob) :
  ∃ deeper, ofText? rules (pattern ++ "/**".toList) = some deeper ∧ Deepens glob.parts deeper.parts
    ∧ glob.rules = deeper.rules
  := by
  rw [ofText?] at h
  obtain ⟨parts, hparts, rfl⟩ := Option.map_eq_some_iff.mp h
  have hleads : Progress.LeadsAlone
      { last := none, choices := [], current := [], plainBrackets := false } := by
    intro earlier heq
    cases heq
  obtain ⟨deeper, hdeeper, hdeepens⟩ := exists_readParts_below hrules hleads hparts
  refine ⟨{ rules, parts := deeper }, ?_, hdeepens, rfl⟩
  rw [ofText?, Option.map_eq_some_iff]
  refine ⟨deeper, ?_, rfl⟩
  rw [List.length_append]
  exact hdeeper

/-! ### What is matched below -/

theorem bytesOf_below (path rest : String) :
  bytesOf (path ++ "/" ++ rest) = bytesOf path ++ 0x2f :: bytesOf rest
  := by
  have hslash : String.utf8EncodeChar '/' = [0x2f] := by decide
  simp [bytesOf_eq, hslash]

/-- Below what the parts match there is everything, unless they stand for everything themselves. -/
theorem Deepens.mem_or {deeper : List GlobPart} (h : Deepens parts deeper) {bytes : List UInt8}
    (hbytes : bytes ∈ languageAll rules parts ∨ bytes ∈ languageAll rules deeper)
    (rest : List UInt8) :
  bytes ++ 0x2f :: rest ∈ languageAll rules deeper ∨ parts = [.leading] ∧ deeper = [.leading]
  := by
  have hbelow {front : List GlobPart} (hfront : bytes ∈ languageAll rules front) :
      bytes ++ 0x2f :: rest ∈ languageAll rules (front ++ [.inside]) :=
    mem_languageAll_inside.mpr ⟨bytes, rest, rfl, hfront⟩
  have hinside {front : List GlobPart} (hfront : bytes ∈ languageAll rules (front ++ [.inside])) :
      bytes ++ 0x2f :: rest ∈ languageAll rules (front ++ [.inside]) := by
    obtain ⟨start, later, rfl, hstart⟩ := mem_languageAll_inside.mp hfront
    apply mem_languageAll_inside.mpr
    refine ⟨start, later ++ 0x2f :: rest, ?_, hstart⟩
    rw [List.append_assoc, List.cons_append]
  cases h with
  | below => exact .inl (hbytes.elim hbelow hinside)
  | same => exact .inl (hbytes.elim hinside hinside)
  | anything => exact .inr ⟨rfl, rfl⟩

/-- Whatever is below a path that is matched is matched too. -/
theorem accepts_below {exact deeper : Glob} (hrules : exact.rules = deeper.rules)
    (h : Deepens exact.parts deeper.parts) {path : String}
    (haccepts : exact.accepts path ∨ deeper.accepts path) (rest : String) :
  exact.accepts (path ++ "/" ++ rest) ∨ deeper.accepts (path ++ "/" ++ rest)
  := by
  simp only [accepts_iff, bytesOf_below] at haccepts ⊢
  by_cases hexact : exact.isAnything
  · exact .inl (.inl hexact)
  · by_cases hdeeper : deeper.isAnything
    · exact .inr (.inl hdeeper)
    · rw [hrules, or_iff_right hexact, or_iff_right hdeeper] at haccepts
      right
      right
      apply (h.mem_or haccepts _).resolve_right
      rintro ⟨-, hleading⟩
      apply hdeeper
      rw [isAnything, hleading]

end Scrutiny.Glob

/-! ### Ignore lists -/

namespace Scrutiny.IgnoreList

open Scrutiny.Text

variable {path : String} {rule : IgnoreRule}

/-- The glob for everything below is that of the rule, but for one part. -/
theorem deepens_of_rule? {line : List Char} (h : rule? line = some rule) :
  rule.exact.rules = rule.below.rules ∧ Glob.Deepens rule.exact.parts rule.below.parts
  := by
  simp only [rule?, Option.bind_eq_bind, Option.bind_none] at h
  split_ifs at h
  obtain ⟨exact, hexact, h⟩ := Option.bind_eq_some_iff.mp h
  obtain ⟨below, hbelow, h⟩ := Option.bind_eq_some_iff.mp h
  obtain ⟨deeper, hdeeper, hdeepens, hrules⟩ := Glob.exists_ofText?_below rfl hexact
  obtain rfl := Option.some.inj (hdeeper.symm.trans hbelow)
  rw [← Option.some.inj h]
  exact ⟨hrules, hdeepens⟩

theorem pieces_below (path rest : String) :
  Path.pieces (path ++ "/" ++ rest) = Path.pieces path ++ Path.pieces rest
  := by
  have hlist : (path ++ "/" ++ rest).toList = path.toList ++ '/' :: rest.toList := by simp
  rw [Path.pieces_of_toList_eq hlist, String.ofList_toList, String.ofList_toList]

/-- A rule that matches a path by one of its globs or by a part of the path matches what is below it in
the same way. -/
theorem matchesRule_below (hrules : rule.exact.rules = rule.below.rules)
    (hdeepens : Glob.Deepens rule.exact.parts rule.below.parts)
    (h : matchesRule path (Path.pieces path) rule) (rest : String) :
  matchesRule (path ++ "/" ++ rest) (Path.pieces (path ++ "/" ++ rest)) rule
  := by
  simp only [matchesRule, Bool.or_eq_true, Bool.and_eq_true] at h ⊢
  rcases h with hglob | ⟨hanywhere, hpiece⟩
  · left
    apply Glob.accepts_below hrules hdeepens hglob
  · right
    use hanywhere
    rw [pieces_below, List.any_append, hpiece, Bool.true_or]

/-- Whatever is below an ignored path is ignored. -/
theorem ignores_below {text : String} (h : (ofText text).ignores path) (rest : String) :
  (ofText text).ignores (path ++ "/" ++ rest)
  := by
  obtain ⟨rule, hrule, hmatches⟩ := List.any_eq_true.mp h
  obtain ⟨line, -, hline⟩ := List.mem_filterMap.mp hrule
  obtain ⟨hrules, hdeepens⟩ := deepens_of_rule? hline
  apply List.any_eq_true.mpr
  use rule, hrule
  apply matchesRule_below hrules hdeepens hmatches

/-- The rules of two lists one after the other are those of the first and those of the second one. -/
theorem rules_ofText_append (text other : String) :
  (ofText (text ++ "\n" ++ other)).rules = (ofText text).rules ++ (ofText other).rules
  := by
  have hlist : (text ++ "\n" ++ other).toList = text.toList ++ '\n' :: other.toList := by simp
  rw [ofText, ofText, ofText, hlist, splitAt_eq_splitOn, List.splitOn_append_cons_self,
    List.filterMap_append, splitAt_eq_splitOn, splitAt_eq_splitOn]

/-- Ignore lists are closed downwards and add up: what is below an ignored path is ignored, and two
lists one after the other ignore what one of them ignores. -/
theorem ignores_below_and_append (text other folder rest path : String) :
  ((ofText text).ignores folder → (ofText text).ignores (folder ++ "/" ++ rest))
    ∧ ((ofText (text ++ "\n" ++ other)).ignores path
      ↔ (ofText text).ignores path ∨ (ofText other).ignores path)
  := by
  constructor
  · intro h
    apply ignores_below h
  · simp only [ignores, rules_ofText_append, List.any_append, Bool.or_eq_true]

/-- A choice of a folder with a bracket in its name and of all folders with two stars: a path that
matches, and what is below it. -/
theorem ignores_below_and_append_choice :
  (ofText "./\x7bsrc/[a-c]?,**/old\x7d/").ignores "src/b1"
    ∧ (ofText "./\x7bsrc/[a-c]?,**/old\x7d/").ignores "src/b1/x/y.py"
    ∧ (ofText "a/**\n*.js").ignores "web/lib.js/x"
  := by
  obtain ⟨hbelow, -⟩ := ignores_below_and_append "./\x7bsrc/[a-c]?,**/old\x7d/" "" "src/b1" "x/y.py" ""
  obtain ⟨hother, -⟩ := ignores_below_and_append "*.js" "" "web/lib.js" "x" ""
  obtain ⟨-, happend⟩ := ignores_below_and_append "a/**" "*.js" "" "" "web/lib.js/x"
  have hfolder : (ofText "./\x7bsrc/[a-c]?,**/old\x7d/").ignores "src/b1" := by decide +kernel
  have hscript : (ofText "*.js").ignores "web/lib.js" := by decide +kernel
  use hfolder, hbelow hfolder
  apply happend.mpr
  right
  apply hother hscript

end Scrutiny.IgnoreList
