import Scrutiny.Proofs.Chunk.Outermost
import Scrutiny.Proofs.Grammar.Blocks

/-!
# Doc strings in skeletons

The body of a function of Python that starts with a doc string becomes the doc string and, on the
next line, the statement that does nothing.  That line starts with as many blanks as there are bytes
before the doc string on its own line.

So the statement stands in the block of the doc string if there are only blanks before the doc
string, and never otherwise: not after a tab, and not where the function stands on one line.
-/

namespace Scrutiny

namespace Grammar

variable {tree inner : Tree}

/-- The node at a place is in the tree. -/
theorem Tree.holds_of_at? {place : List Nat} (h : tree.at? place = some inner) :
  tree.Holds inner
  := by
  induction place generalizing tree with
  | nil =>
      obtain rfl := Option.some.inj h
      apply Tree.Holds.self
  | cons i place ih =>
      obtain ⟨child, hchild, hat⟩ := Option.bind_eq_some_iff.mp h
      apply Tree.Holds.child (List.mem_of_getElem? hchild) (ih hat)

end Grammar

namespace Skeleton

open Grammar Text

variable {text : List Char} {index : LineIndex} {tree body doc : Tree} {place : List Nat}

/-! ### Doc strings -/

theorem kind_of_blockOf? (h : blockOf? tree = some body) :
  body.kind = .block
  := by
  rw [blockOf?] at h
  split at h
  · apply eq_of_beq (Option.filter_eq_some_iff.mp h).2
  · cases h

/-- The body of an outermost function is in the tree. -/
theorem IsOutermost.holds_body (h : IsOutermost tree place body) :
  tree.Holds body ∧ body.kind = .block
  := by
  obtain ⟨function, hat, hblock⟩ := h.function
  use (Tree.holds_of_at? hat).trans (.child (mem_children_of_blockOf? hblock) (.self body))
  apply kind_of_blockOf? hblock

/-- A doc string is a statement, the first one of a body, that starts with a string. -/
theorem of_docString? (h : docString? body = some doc) :
  body.children.head? = some doc ∧ doc.kind = .statement
    ∧ ∃ string, doc.children.head? = some string ∧ string.kind = .stringLiteral
  := by
  unfold docString? at h
  split at h
  · rename_i first rest hchildren
    split at h
    · rename_i string more hkind hmore
      split at h
      · rename_i hstring
        obtain rfl := Option.some.inj h
        rw [hchildren, hmore]
        use rfl, hkind, string, rfl, eq_of_beq hstring
      · cases h
    · cases h
  · cases h

/-- A body starts where its doc string does, with a character that is not blank. -/
theorem start_eq_of_docString? (h : syntaxTree (LineIndex.ofText text) .python = .ok tree)
    (hbody : IsOutermost tree place body) (hdoc : docString? body = some doc) :
  body.start = doc.start ∧ isFullAt text doc.start
  := by
  have htree : Pattern.tree Python.rules Python.file text.toArray = .ok tree :=
    parse_of_syntaxTree h
  obtain ⟨hholds, hblock⟩ := hbody.holds_body
  obtain ⟨hfirst, hstatement, string, hstring, hliteral⟩ := of_docString? hdoc
  have hdocHolds := hholds.trans (.child (List.mem_of_head? hfirst) (.self doc))
  have hstringHolds := hdocHolds.trans (.child (List.mem_of_head? hstring) (.self string))
  have hled := Python.each_isLed htree
  have hstart : doc.start = string.start :=
    hled doc hdocHolds (by rw [hstatement]; rfl) string hstring
  constructor
  · apply hled body hholds (by rw [hblock]; rfl) doc hfirst
  · rw [hstart]
    apply Python.each_isFullAt htree string hstringHolds (by rw [hliteral]; rfl)

/-! ### The statement after a doc string -/

/-- What stands before an offset on its line. -/
def before (index : LineIndex) (offset : Nat) : List Char :=
  index.slice (index.lineStart (index.lineOf offset)) offset

/-- The blank characters at the start of a line. -/
def leading (line : List Char) : List Char :=
  line.takeWhile isBlank

/-- The last line of a text. -/
def lastLine (text : List Char) : List Char :=
  (text.reverse.takeWhile (· != '\n')).reverse

theorem lastLine_append {line : List Char} (h : '\n' ∉ line) (front : List Char) :
  lastLine (front ++ '\n' :: line) = line
  := by
  have hline : ∀ c ∈ line.reverse, (c != '\n') = true := by
    intro c hc
    apply bne_iff_ne.mpr
    rintro rfl
    exact h (List.mem_reverse.mp hc)
  rw [lastLine, List.reverse_append, List.reverse_cons, List.append_assoc,
    List.takeWhile_append_of_pos hline, List.singleton_append,
    List.takeWhile_cons_of_neg (by decide), List.append_nil, List.reverse_reverse]

/-- The statement that is put after a doc string belongs to the block of the doc string: its line
is indented like that of the doc string, and the doc string is the first thing on its own line. -/
structure IsInBlock (index : LineIndex) (body doc : Tree) : Prop where
  leading_eq : leading (lastLine (stub index .python body))
    = leading (index.line (index.lineOf doc.start))
  isBlank_of_mem : ∀ c ∈ before index doc.start, isBlank c

/-- What takes the place of a body with a doc string. -/
theorem stub_eq (hdoc : docString? body = some doc) (hstart : body.start = doc.start) :
  stub index .python body
    = index.slice doc.start doc.stop
      ++ '\n' :: (List.replicate (total Char.utf8Size (before index doc.start)) ' ' ++ "pass".toList)
  := by
  have hstub : stub index .python body = indentedStub index body := rfl
  rw [hstub, indentedStub, hdoc]
  dsimp only
  rw [hstart, List.append_assoc]
  rfl

/-- A line is what stands before a character, the character, and what stands after it. -/
theorem exists_line_eq {offset : Nat} (h : isFullAt text offset) :
  ∃ c rest, isBlank c = false
    ∧ (LineIndex.ofText text).line ((LineIndex.ofText text).lineOf offset)
      = before (LineIndex.ofText text) offset ++ c :: rest
  := by
  obtain ⟨c, hc, hfull⟩ := isFullAt_iff.mp h
  have hstart := (LineIndex.lineStart_le_iff (LineIndex.lineOf_lt_lineCount text offset)).mpr
    (Nat.le_refl _)
  have hstop := LineIndex.lt_lineEnd hc (by rintro rfl; cases hfull) (by rintro rfl; cases hfull)
  rw [LineIndex.line, before, LineIndex.slice_ofText, LineIndex.slice_ofText]
  generalize (LineIndex.ofText text).lineStart _ = start at hstart
  generalize (LineIndex.ofText text).lineEnd _ = stop at hstop
  refine ⟨c, (text.take stop).drop (offset + 1), hfull, ?_⟩
  have hcut : (text.take stop)[offset]? = some c := by rw [List.getElem?_take_of_lt hstop, hc]
  obtain ⟨hlt, hget⟩ := List.getElem?_eq_some_iff.mp hcut
  calc (text.take stop).drop start
    _ = ((text.take stop).take offset ++ (text.take stop).drop offset).drop start := by
        rw [List.take_append_drop]
    _ = (text.take offset ++ (text.take stop).drop offset).drop start := by
        rw [List.take_take, Nat.min_eq_left (Nat.le_of_lt hstop)]
    _ = (text.take offset).drop start ++ (text.take stop).drop offset := by
        have hlength := (List.getElem?_eq_some_iff.mp hc).1
        apply List.drop_append_of_le_length
        rw [List.length_take]
        omega
    _ = (text.take offset).drop start ++ c :: (text.take stop).drop (offset + 1) := by
        rw [List.drop_eq_getElem_cons hlt, hget]

theorem leading_append {front : List Char} {c : Char} (h : ∀ c ∈ front, isBlank c)
    (hc : isBlank c = false) (rest : List Char) :
  leading (front ++ c :: rest) = front
  := by
  rw [leading, List.takeWhile_append_of_pos h, List.takeWhile_cons_of_neg (by rw [hc]; decide),
    List.append_nil]

/-- A text of blanks that take one byte each. -/
theorem total_utf8Size_replicate (n : Nat) :
  total Char.utf8Size (List.replicate n ' ') = n
  := by
  induction n with
  | zero => rfl
  | succ n ih =>
      rw [List.replicate_succ, total, ih, Nat.add_comm]
      rfl

/-- The statement belongs to the block exactly if there are only spaces before the doc string. -/
theorem isInBlock_iff (hdoc : docString? body = some doc) (hstart : body.start = doc.start)
    (hfull : isFullAt text doc.start) :
  IsInBlock (LineIndex.ofText text) body doc
    ↔ ∀ c ∈ before (LineIndex.ofText text) doc.start, c = ' '
  := by
  obtain ⟨c, rest, hc, hline⟩ := exists_line_eq hfull
  have hleading (n : Nat) :
      leading (List.replicate n ' ' ++ "pass".toList) = List.replicate n ' ' := by
    apply leading_append
    · intro c hc
      rw [List.eq_of_mem_replicate hc]
      rfl
    · rfl
  have hpass (n : Nat) : '\n' ∉ List.replicate n ' ' ++ "pass".toList := by
    simp
  constructor
  · rintro ⟨hsame, hblank⟩
    rw [stub_eq hdoc hstart, lastLine_append (hpass _), hleading, hline,
      leading_append hblank hc] at hsame
    intro c hmem
    rw [← hsame] at hmem
    apply List.eq_of_mem_replicate hmem
  · intro hspaces
    have hblank : ∀ c ∈ before (LineIndex.ofText text) doc.start, isBlank c := by
      intro c hmem
      rw [hspaces c hmem]
      rfl
    constructor
    · rw [stub_eq hdoc hstart, lastLine_append (hpass _), hleading, hline, leading_append hblank hc]
      rw [List.eq_replicate_of_mem hspaces, total_utf8Size_replicate]
    · apply hblank

/-- A text with one outermost function, and a doc string in it. -/
theorem exists_docString_of_read {text expected : String} {start : Nat}
    (h : ((syntaxTree (LineIndex.ofText text.toList) .python).toOption.map fun tree =>
      ((outermost tree).map fun (place, body) => (place, (docString? body).map (·.start)),
        withReplaced (LineIndex.ofText text.toList) (stub (LineIndex.ofText text.toList) .python) 0
          ((outermost tree).map Prod.snd)))
      = some ([(place, some start)], expected.toList)) :
  ∃ tree body doc, syntaxTree (LineIndex.ofText text.toList) .python = .ok tree
    ∧ IsOutermost tree place body ∧ docString? body = some doc ∧ doc.start = start
    ∧ skeleton text .python = .ok expected
  := by
  cases htree : syntaxTree (LineIndex.ofText text.toList) .python with
  | error error =>
      rw [htree] at h
      cases h
  | ok tree =>
      rw [htree] at h
      obtain ⟨hplaces, htext⟩ := Prod.mk.inj (Option.some.inj h)
      obtain ⟨⟨place, body⟩, hsingle, heq⟩ := List.map_eq_singleton_iff.mp hplaces
      obtain ⟨rfl, hdoc⟩ := Prod.mk.inj heq
      obtain ⟨doc, hdoc, hstart⟩ := Option.map_eq_some_iff.mp hdoc
      refine ⟨tree, body, doc, rfl, mem_outermost.mp ?_, hdoc, hstart, ?_⟩
      · rw [hsingle]
        apply List.mem_cons_self
      · rw [skeleton_eq htree, htext, String.ofList_toList]

/-- A text with a doc string behind spaces. -/
def spacesText : String := "def f():\n  \"d\"\n  0\n"

/-- A text with a doc string behind a tab. -/
def tabText : String := "def f():\n\t\"d\"\n"

end Skeleton

end Scrutiny
