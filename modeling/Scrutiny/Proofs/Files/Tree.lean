import Mathlib.Data.List.Pairwise
import Mathlib.Data.String.Basic
import Mathlib.Tactic.Common
import Scrutiny.Files.Tree

/-!
# What a change does to a file tree

A tree is seen through two questions: which bytes does the file under some names have, and do
some names lead to a folder.  Changing what is under some names answers both anew for these
names and leaves all other answers as they are.
-/

namespace Scrutiny

namespace FileNode

/-- All folders of a node have their entries in the order of their names, each name once. -/
inductive Ordered : FileNode → Prop
  /-- A file. -/
  | file (bytes : List UInt8) : Ordered (.file bytes)
  /-- A folder. -/
  | folder {entries : List (String × FileNode)}
      (hsorted : entries.Pairwise fun a b => a.1 < b.1)
      (hentries : ∀ entry ∈ entries, Ordered entry.2) : Ordered (.folder entries)

/-! ### Entries of a folder -/

section

variable {name : String} {change : Option FileNode → Option FileNode}
  {entries : List (String × FileNode)}

theorem child?_cons (name key : String) (node : FileNode) (rest : List (String × FileNode)) :
  child? name ((key, node) :: rest) = if key == name then some node else child? name rest
  := by
  rw [child?, child?, List.find?_cons]
  cases key == name <;> rfl

/-- A name that comes before all others is not there. -/
theorem child?_eq_none (h : ∀ entry ∈ entries, name < entry.1) :
  child? name entries = none
  := by
  rw [child?, Option.map_eq_none_iff, List.find?_eq_none]
  intro entry hentry heq
  apply String.lt_irrefl name
  have := h entry hentry
  rwa [eq_of_beq heq] at this

/-- What stands in front of entries without its name is found. -/
theorem child?_toList_append (node? : Option FileNode) (h : child? name entries = none) :
  child? name ((node?.map (name, ·)).toList ++ entries) = node?
  := by
  cases node? with
  | none => apply h
  | some node => rw [Option.map_some, Option.toList_some, List.singleton_append, child?_cons, if_pos (by simp)]

/-- What stands in front of entries does not hide other names. -/
theorem child?_toList_append_ne {other : String} (hne : name ≠ other) (node? : Option FileNode) :
  child? other ((node?.map (name, ·)).toList ++ entries) = child? other entries
  := by
  cases node? with
  | none => rfl
  | some node =>
      rw [Option.map_some, Option.toList_some, List.singleton_append, child?_cons,
        if_neg (by simpa using hne)]

/-- What was changed is found changed. -/
theorem child?_alterEntry_self (h : entries.Pairwise fun a b => a.1 < b.1) :
  child? name (alterEntry name change entries) = change (child? name entries)
  := by
  induction entries with
  | nil =>
      rw [alterEntry, ← List.append_nil (Option.toList _)]
      apply child?_toList_append _ rfl
  | cons entry rest ih =>
      obtain ⟨key, node⟩ := entry
      obtain ⟨hkey, hrest⟩ := List.pairwise_cons.mp h
      rw [alterEntry]
      split
      · rename_i heq
        obtain rfl := eq_of_beq heq
        rw [child?_cons, if_pos (beq_self_eq_true _), child?_toList_append _ (child?_eq_none hkey)]
      · rename_i hne
        have hne' : (key == name) = false := by
          rw [beq_eq_false_iff_ne]
          rintro rfl
          simp at hne
        split
        · rename_i hlt
          have hnone : child? name ((key, node) :: rest) = none := by
            apply child?_eq_none
            intro entry hentry
            rcases List.mem_cons.mp hentry with rfl | hentry
            · apply hlt
            · apply String.lt_trans hlt (hkey entry hentry)
          rw [child?_toList_append _ hnone, hnone]
        · rw [child?_cons, hne', child?_cons, hne']
          apply ih hrest

/-- A change under one name leaves all other names as they are. -/
theorem child?_alterEntry_ne {other : String} (hne : name ≠ other) :
  child? other (alterEntry name change entries) = child? other entries
  := by
  induction entries with
  | nil =>
      rw [alterEntry, ← List.append_nil (Option.toList _), child?_toList_append_ne hne]
  | cons entry rest ih =>
      obtain ⟨key, node⟩ := entry
      rw [alterEntry]
      split
      · rename_i heq
        obtain rfl := eq_of_beq heq
        rw [child?_toList_append_ne hne, child?_cons, if_neg (by simpa using hne)]
      · split
        · rw [child?_toList_append_ne hne]
        · rw [child?_cons, child?_cons, ih]

theorem mem_alterEntry (hsorted : entries.Pairwise fun a b => a.1 < b.1)
    {entry : String × FileNode} (h : entry ∈ alterEntry name change entries) :
  entry ∈ entries ∨ (entry.1 = name ∧ change (child? name entries) = some entry.2)
  := by
  have hfront {key : String} {node? : Option FileNode}
      (hentry : entry ∈ (node?.map (key, ·)).toList) : entry.1 = key ∧ node? = some entry.2 := by
    obtain ⟨node, hnode, rfl⟩ := Option.map_eq_some_iff.mp (Option.mem_toList.mp hentry)
    use rfl, hnode
  induction entries with
  | nil =>
      right
      apply hfront h
  | cons first rest ih =>
      obtain ⟨key, node⟩ := first
      obtain ⟨hkey, hrest⟩ := List.pairwise_cons.mp hsorted
      rw [alterEntry] at h
      split at h
      · rename_i heq
        obtain rfl := eq_of_beq heq
        rcases List.mem_append.mp h with h | h
        · right
          rw [child?_cons, if_pos (beq_self_eq_true _)]
          apply hfront h
        · left
          apply List.mem_cons_of_mem _ h
      · rename_i hne
        have hne' : (key == name) = false := by
          rw [beq_eq_false_iff_ne]
          rintro rfl
          simp at hne
        split at h
        · rename_i hlt
          rcases List.mem_append.mp h with h | h
          · right
            rw [child?_eq_none]
            · apply hfront h
            · intro entry hentry
              rcases List.mem_cons.mp hentry with rfl | hentry
              · apply hlt
              · apply String.lt_trans hlt (hkey entry hentry)
          · left
            apply h
        · rcases List.mem_cons.mp h with rfl | h
          · left
            apply List.mem_cons_self
          · rw [child?_cons, hne']
            rcases ih hrest h with h | h
            · left
              apply List.mem_cons_of_mem _ h
            · right
              apply h

theorem pairwise_alterEntry (h : entries.Pairwise fun a b => a.1 < b.1) :
  (alterEntry name change entries).Pairwise fun a b => a.1 < b.1
  := by
  have hfront {key : String} {node? : Option FileNode} {rest : List (String × FileNode)}
      (hkey : ∀ entry ∈ rest, key < entry.1) (hrest : rest.Pairwise fun a b => a.1 < b.1) :
      ((node?.map (key, ·)).toList ++ rest).Pairwise fun a b => a.1 < b.1 := by
    cases node? with
    | none => apply hrest
    | some node => apply List.pairwise_cons.mpr ⟨hkey, hrest⟩
  induction entries with
  | nil =>
      rw [alterEntry]
      cases change none <;> simp
  | cons first rest ih =>
      obtain ⟨key, node⟩ := first
      obtain ⟨hkey, hrest⟩ := List.pairwise_cons.mp h
      rw [alterEntry]
      split
      · rename_i heq
        obtain rfl := eq_of_beq heq
        apply hfront hkey hrest
      · rename_i hne
        split
        · rename_i hlt
          apply hfront _ h
          intro entry hentry
          rcases List.mem_cons.mp hentry with rfl | hentry
          · apply hlt
          · apply String.lt_trans hlt (hkey entry hentry)
        · rename_i hnlt
          apply List.pairwise_cons.mpr
          use (fun entry hentry => by
            rcases mem_alterEntry hrest hentry with hentry | ⟨hname, -⟩
            · apply hkey entry hentry
            · rw [hname]
              apply lt_of_le_of_ne (not_lt.mp hnlt)
              rintro rfl
              simp at hne), ih hrest

theorem Ordered.sorted (h : Ordered (.folder entries)) :
  entries.Pairwise fun a b => a.1 < b.1
  := by
  cases h with
  | folder hsorted hentries => apply hsorted

theorem Ordered.of_mem (h : Ordered (.folder entries)) {entry : String × FileNode}
    (hentry : entry ∈ entries) :
  Ordered entry.2
  := by
  cases h with
  | folder hsorted hentries => apply hentries entry hentry

theorem Ordered.of_child?_eq_some (h : Ordered (.folder entries)) {node : FileNode}
    (hchild : child? name entries = some node) :
  Ordered node
  := by
  obtain ⟨entry, hentry, rfl⟩ := Option.map_eq_some_iff.mp hchild
  apply h.of_mem (List.mem_of_find?_eq_some hentry)

theorem Ordered.alterEntry (h : Ordered (.folder entries))
    (hchange : ∀ node ∈ change (child? name entries), Ordered node) :
  Ordered (.folder (alterEntry name change entries))
  := by
  apply Ordered.folder (pairwise_alterEntry h.sorted)
  intro entry hentry
  rcases mem_alterEntry h.sorted hentry with hentry | ⟨-, hnode⟩
  · apply h.of_mem hentry
  · apply hchange entry.2 hnode

end

/-! ### Nodes at the end of names -/

/-- The bytes of a file. -/
def bytes? : FileNode → Option (List UInt8)
  | .file bytes => some bytes
  | .folder _ => none

/-- Some names lead to a folder. -/
def IsFolderAt (node : FileNode) (names : List String) : Prop :=
  ∃ entries, node.at? names = some (.folder entries)

@[simp]
theorem at?_nil (node : FileNode) :
  node.at? [] = some node
  := by
  rw [at?]

theorem at?_append (node : FileNode) (names others : List String) :
  node.at? (names ++ others) = (node.at? names).bind (at? others)
  := by
  induction names generalizing node with
  | nil => simp
  | cons name names ih =>
      cases node with
      | file bytes => rfl
      | folder entries =>
          rw [List.cons_append, at?, at?, Option.bind_assoc]
          congr 1
          funext child
          apply ih

/-- What leads to a folder leads through folders. -/
theorem isFolderAt_of_append {node found : FileNode} {names others : List String}
    (hothers : others ≠ []) (h : node.at? (names ++ others) = some found) :
  node.IsFolderAt names
  := by
  rw [at?_append] at h
  obtain ⟨middle, hmiddle, h⟩ := Option.bind_eq_some_iff.mp h
  cases middle with
  | folder entries => use entries
  | file bytes =>
      obtain ⟨name, rest, rfl⟩ := List.exists_cons_of_ne_nil hothers
      cases h

/-- A node or none of them has nothing below it. -/
def IsBare (node? : Option FileNode) : Prop :=
  ∀ name rest, node?.bind (at? (name :: rest)) = none

theorem isBare_of_not_isFolderAt {node : FileNode} {names : List String}
    (h : ¬ node.IsFolderAt names) :
  IsBare (node.at? names)
  := by
  intro name rest
  cases hat : node.at? names with
  | none => rfl
  | some found =>
      cases found with
      | file bytes => rfl
      | folder entries => cases h ⟨entries, hat⟩

/-- A change below one of the folders of a folder is a change of that folder. -/
theorem alter_cons (change : Option FileNode → Option FileNode) (first : String)
    (front : List String) (name : String) (entries : List (String × FileNode)) :
  alter change (first :: (front ++ [name])) (.folder entries)
    = .folder (alterEntry first (fun child => child.map (alter change (front ++ [name]))) entries)
  := by
  rw [alter]
  simp

/-- What was changed is found changed, with what is below it. -/
theorem at?_alter_self (change : Option FileNode → Option FileNode) {node : FileNode}
    (hordered : node.Ordered) {front : List String} (hfront : node.IsFolderAt front)
    (name : String) (rest : List String) :
  (node.alter change (front ++ [name])).at? (front ++ name :: rest)
    = (change (node.at? (front ++ [name]))).bind (at? rest)
  := by
  induction front generalizing node with
  | nil =>
      obtain ⟨entries, hentries⟩ := hfront
      obtain rfl : node = .folder entries := by simpa using hentries
      have hself : (child? name entries).bind (at? []) = child? name entries := by
        cases child? name entries <;> simp
      rw [List.nil_append, List.nil_append, alter, at?, at?, child?_alterEntry_self hordered.sorted,
        hself]
  | cons first front ih =>
      obtain ⟨entries, hentries⟩ := hfront
      cases node with
      | file bytes => cases hentries
      | folder found =>
          obtain ⟨child, hchild, hentries⟩ := Option.bind_eq_some_iff.mp hentries
          rw [List.cons_append, List.cons_append, alter_cons, at?,
            child?_alterEntry_self hordered.sorted, hchild, at?, hchild]
          apply ih (hordered.of_child?_eq_some hchild) ⟨entries, hentries⟩

/-- Names that do not lead through what was changed lead to the same file or to a folder as
before. -/
theorem at?_alter_of_not_prefix (change : Option FileNode → Option FileNode) {node : FileNode}
    (hordered : node.Ordered) (front : List String) {name : String} {names : List String}
    (hnames : ¬ front ++ [name] <+: names) :
  ((node.alter change (front ++ [name])).at? names).bind bytes? = (node.at? names).bind bytes?
    ∧ ((node.alter change (front ++ [name])).IsFolderAt names ↔ node.IsFolderAt names)
  := by
  induction front generalizing node names with
  | nil =>
      cases node with
      | file bytes => simp [alter]
      | folder entries =>
          cases names with
          | nil => simp [alter, IsFolderAt, bytes?]
          | cons other rest =>
              have hne : name ≠ other := by
                rintro rfl
                simp at hnames
              rw [List.nil_append, alter, IsFolderAt, IsFolderAt, at?, at?,
                child?_alterEntry_ne hne]
              use rfl
  | cons first front ih =>
      cases node with
      | file bytes => simp [alter]
      | folder entries =>
          rw [List.cons_append, alter_cons]
          cases names with
          | nil => simp [IsFolderAt, bytes?]
          | cons other rest =>
              rw [IsFolderAt, IsFolderAt, at?, at?]
              by_cases hne : first = other
              · subst hne
                have hrest : ¬ front ++ [name] <+: rest := by
                  simpa using hnames
                rw [child?_alterEntry_self hordered.sorted]
                cases hchild : child? first entries with
                | none => simp
                | some child => apply ih (hordered.of_child?_eq_some hchild) hrest
              · rw [child?_alterEntry_ne hne]
                use rfl

/-- Putting a node that is ordered somewhere leaves the tree ordered. -/
theorem Ordered.alter {node : FileNode} (hordered : node.Ordered) (names : List String)
    {new? : Option FileNode} (hnew : ∀ new ∈ new?, Ordered new) :
  (node.alter (fun _ => new?) names).Ordered
  := by
  induction names generalizing node with
  | nil =>
      rw [FileNode.alter]
      apply hordered
  | cons name names ih =>
      cases node with
      | file bytes =>
          rw [FileNode.alter]
          apply hordered
      | folder entries =>
          cases names with
          | nil =>
              rw [FileNode.alter]
              apply hordered.alterEntry hnew
          | cons next rest =>
              rw [FileNode.alter]
              · apply hordered.alterEntry
                intro node hnode
                obtain ⟨child, hchild, rfl⟩ := Option.map_eq_some_iff.mp hnode
                apply ih (hordered.of_child?_eq_some hchild)
              · simp

/-! ### The files below a node -/

theorem child?_of_mem {entries : List (String × FileNode)}
    (h : entries.Pairwise fun a b => a.1 < b.1) {entry : String × FileNode}
    (hentry : entry ∈ entries) :
  child? entry.1 entries = some entry.2
  := by
  induction entries with
  | nil => cases hentry
  | cons first rest ih =>
      obtain ⟨hfirst, hrest⟩ := List.pairwise_cons.mp h
      rw [child?_cons]
      rcases List.mem_cons.mp hentry with rfl | hentry
      · rw [if_pos (by simp)]
      · rw [if_neg, ih hrest hentry]
        rw [beq_iff_eq]
        intro heq
        have := hfirst entry hentry
        rw [heq] at this
        apply String.lt_irrefl _ this

theorem exists_of_mem_filesOf {entries : List (String × FileNode)} {names : List String}
    {bytes : List UInt8} (h : (names, bytes) ∈ filesOf entries) :
  ∃ entry ∈ entries, ∃ later, names = entry.1 :: later ∧ (later, bytes) ∈ entry.2.files
  := by
  induction entries with
  | nil => cases h
  | cons first rest ih =>
      obtain ⟨name, node⟩ := first
      rw [filesOf, List.mem_append, List.mem_map] at h
      rcases h with ⟨file, hfile, heq⟩ | h
      · obtain ⟨rfl, rfl⟩ := Prod.mk.inj heq
        use (name, node), List.mem_cons_self, file.1, rfl, hfile
      · obtain ⟨entry, hentry, later, hnames, hlater⟩ := ih h
        use entry, List.mem_cons_of_mem _ hentry, later, hnames

theorem Ordered.of_at?_eq_some {node found : FileNode} (h : node.Ordered) {names : List String}
    (hat : node.at? names = some found) :
  found.Ordered
  := by
  induction names generalizing node with
  | nil =>
      rw [at?_nil] at hat
      rwa [← Option.some.inj hat]
  | cons name rest ih =>
      cases node with
      | file bytes => cases hat
      | folder entries =>
          rw [at?] at hat
          obtain ⟨child, hchild, hat⟩ := Option.bind_eq_some_iff.mp hat
          apply ih (h.of_child?_eq_some hchild) hat

/-- The files below a node are found under their names. -/
theorem at?_of_mem_files {node : FileNode} (h : node.Ordered) {names : List String}
    {bytes : List UInt8} (hmem : (names, bytes) ∈ node.files) :
  node.at? names = some (.file bytes)
  := by
  induction h generalizing names with
  | file old =>
      obtain ⟨rfl, rfl⟩ := Prod.mk.inj (List.mem_singleton.mp hmem)
      rfl
  | folder hsorted hentries ih =>
      obtain ⟨entry, hentry, later, rfl, hlater⟩ := exists_of_mem_filesOf hmem
      rw [at?, child?_of_mem hsorted hentry, Option.bind_some, ih entry hentry hlater]

end FileNode

/-! ### Trees -/

namespace FileTree

/-- The bytes of the file under some names. -/
def file? (tree : FileTree) (names : List String) : Option (List UInt8) :=
  (tree.at? names).bind FileNode.bytes?

/-- Some names lead to a folder. -/
def IsFolderAt (tree : FileTree) (names : List String) : Prop :=
  tree.root.IsFolderAt names

/-- A tree with its entries in order, whose current folder exists. -/
structure Sound (tree : FileTree) : Prop where
  /-- The entries are in order. -/
  ordered : tree.root.Ordered
  /-- The current folder exists. -/
  here : tree.IsFolderAt tree.here

/-- What led to a folder still does, from the same current folder. -/
structure Keeps (tree next : FileTree) : Prop where
  /-- The new tree is sound. -/
  sound : next.Sound
  /-- The current folder is the same. -/
  here_eq : next.here = tree.here
  /-- No folder is lost. -/
  isFolderAt : ∀ names, tree.IsFolderAt names → next.IsFolderAt names

/-- The second tree has another file under some names, or none, and else the same files as the
first one. -/
structure Sets (names : List String) (bytes? : Option (List UInt8)) (tree next : FileTree) :
    Prop extends tree.Keeps next where
  /-- There is no new folder. -/
  isFolderAt_of : ∀ others, next.IsFolderAt others → tree.IsFolderAt others
  /-- The file under the names. -/
  file?_self : next.file? names = bytes?
  /-- All other files. -/
  file?_ne : ∀ others, others ≠ names → next.file? others = tree.file? others

variable {tree : FileTree}

theorem IsFolderAt.of_append {names others : List String} (h : tree.IsFolderAt (names ++ others)) :
  tree.IsFolderAt names
  := by
  by_cases hothers : others = []
  · rwa [hothers, List.append_nil] at h
  · obtain ⟨entries, hentries⟩ := h
    apply FileNode.isFolderAt_of_append hothers hentries

theorem IsFolderAt.dropLast {names : List String} (h : tree.IsFolderAt names) :
  tree.IsFolderAt names.dropLast
  := by
  obtain ⟨others, hothers⟩ := List.dropLast_prefix names
  rw [← hothers] at h
  apply h.of_append

theorem Sound.root (h : tree.Sound) :
  tree.IsFolderAt []
  := by
  apply IsFolderAt.of_append
  apply h.here

theorem sound_empty :
  empty.Sound
  := by
  constructor
  · apply FileNode.Ordered.folder List.Pairwise.nil
    intro entry hentry
    cases hentry
  · use []
    rfl

theorem not_isFolderAt_of_at?_eq_none {names : List String} (h : tree.at? names = none) :
  ¬ tree.IsFolderAt names
  := by
  rintro ⟨entries, hentries⟩
  cases h.symm.trans hentries

/-- The names of a file do not lead to a folder. -/
theorem not_isFolderAt_of_file? {names : List String} {bytes : List UInt8}
    (h : tree.file? names = some bytes) :
  ¬ tree.IsFolderAt names
  := by
  rintro ⟨entries, hentries⟩
  have hat : tree.at? names = some (.folder entries) := hentries
  simp [file?, hat, FileNode.bytes?] at h

/-- The way to a file leads through folders. -/
theorem isFolderAt_of_file? {names others : List String} (hothers : others ≠ [])
    {bytes : List UInt8} (h : tree.file? (names ++ others) = some bytes) :
  tree.IsFolderAt names
  := by
  obtain ⟨node, hnode, -⟩ := Option.bind_eq_some_iff.mp h
  apply FileNode.isFolderAt_of_append hothers hnode

theorem at?_of_file? {names : List String} {bytes : List UInt8}
    (h : tree.file? names = some bytes) :
  tree.at? names = some (.file bytes)
  := by
  obtain ⟨node, hnode, hbytes⟩ := Option.bind_eq_some_iff.mp h
  cases node with
  | folder entries => cases hbytes
  | file found =>
      rw [hnode]
      congr 2
      apply Option.some.inj hbytes

/-- Putting a node without anything below it in the place of another one of that kind. -/
theorem at?_alter (hsound : tree.Sound) {front : List String} (hfront : tree.IsFolderAt front)
    {name : String} (hold : ¬ tree.IsFolderAt (front ++ [name])) {new? : Option FileNode}
    (hbare : FileNode.IsBare new?) :
  (tree.alter (front ++ [name]) fun _ => new?).at? (front ++ [name]) = new?
    ∧ ∀ names, names ≠ front ++ [name] →
      (tree.alter (front ++ [name]) fun _ => new?).file? names = tree.file? names
      ∧ ((tree.alter (front ++ [name]) fun _ => new?).IsFolderAt names ↔ tree.IsFolderAt names)
  := by
  constructor
  · have h := FileNode.at?_alter_self (fun _ => new?) hsound.ordered hfront name []
    rw [alter, at?]
    rw [h]
    cases new? <;> simp
  · intro names hne
    by_cases hbelow : front ++ [name] <+: names
    · obtain ⟨others, rfl⟩ := hbelow
      have hsome : others ≠ [] := by
        rintro rfl
        simp at hne
      obtain ⟨next, rest, rfl⟩ := List.exists_cons_of_ne_nil hsome
      -- There is nothing below the old node, and nothing below the new one.
      have hafter : (tree.alter (front ++ [name]) fun _ => new?).at?
          (front ++ [name] ++ next :: rest) = none := by
        have h := FileNode.at?_alter_self (fun _ => new?) hsound.ordered hfront name (next :: rest)
        rw [List.append_assoc, List.singleton_append, alter, at?]
        rw [h]
        apply hbare
      have hbefore : tree.at? (front ++ [name] ++ next :: rest) = none := by
        rw [at?, FileNode.at?_append]
        apply FileNode.isBare_of_not_isFolderAt hold
      constructor
      · rw [file?, file?, hafter, hbefore]
      · apply iff_of_false
        · apply not_isFolderAt_of_at?_eq_none hafter
        · apply not_isFolderAt_of_at?_eq_none hbefore
    · apply FileNode.at?_alter_of_not_prefix _ hsound.ordered front hbelow

/-- Putting a file somewhere, or removing it. -/
theorem sets_alter (hsound : tree.Sound) {names : List String}
    (hparent : tree.IsFolderAt names.dropLast) (hold : ¬ tree.IsFolderAt names)
    (bytes? : Option (List UInt8)) :
  Sets names bytes? tree (tree.alter names fun _ => bytes?.map .file)
  := by
  have hne : names ≠ [] := by
    rintro rfl
    apply hold hsound.root
  obtain ⟨front, name, rfl⟩ := List.eq_nil_or_concat' names |>.resolve_left hne
  rw [List.dropLast_concat] at hparent
  have hbare : FileNode.IsBare (bytes?.map .file) := by
    intro next rest
    cases bytes? <;> rfl
  obtain ⟨hself, hothers⟩ := at?_alter hsound hparent hold hbare
  have hfolders : ∀ others, tree.IsFolderAt others →
      (tree.alter (front ++ [name]) fun _ => bytes?.map .file).IsFolderAt others := by
    intro others h
    apply (hothers others _).2.mpr h
    rintro rfl
    apply hold h
  constructor
  · constructor
    · constructor
      · apply hsound.ordered.alter
        intro new hnew
        obtain ⟨bytes, -, rfl⟩ := Option.map_eq_some_iff.mp hnew
        apply FileNode.Ordered.file
      · apply hfolders _ hsound.here
    · rfl
    · apply hfolders
  · intro others hfolder
    by_cases hne : others = front ++ [name]
    · obtain ⟨entries, hentries⟩ := hfolder
      rw [hne] at hentries
      cases bytes? with
      | none => cases hself.symm.trans hentries
      | some bytes => cases hself.symm.trans hentries
    · apply (hothers others hne).2.mp hfolder
  · rw [file?, hself]
    cases bytes? <;> rfl
  · intro others hne
    apply (hothers others hne).1

/-- Making a folder. -/
theorem keeps_alter_folder (hsound : tree.Sound) {front : List String}
    (hfront : tree.IsFolderAt front) {name : String} (hold : tree.at? (front ++ [name]) = none) :
  tree.Keeps (tree.alter (front ++ [name]) fun _ => some (.folder []))
    ∧ (tree.alter (front ++ [name]) fun _ => some (.folder [])).IsFolderAt (front ++ [name])
    ∧ ∀ names, (tree.alter (front ++ [name]) fun _ => some (.folder [])).file? names
      = tree.file? names
  := by
  have hbare : FileNode.IsBare (some (.folder [])) := fun _ _ => rfl
  obtain ⟨hself, hothers⟩ :=
    at?_alter hsound hfront (not_isFolderAt_of_at?_eq_none hold) hbare
  have hfolders : ∀ others, tree.IsFolderAt others →
      (tree.alter (front ++ [name]) fun _ => some (.folder [])).IsFolderAt others := by
    intro others h
    apply (hothers others _).2.mpr h
    rintro rfl
    apply not_isFolderAt_of_at?_eq_none hold h
  constructor
  · constructor
    · constructor
      · apply hsound.ordered.alter
        intro new hnew
        obtain rfl : .folder [] = new := by simpa using hnew
        apply FileNode.Ordered.folder List.Pairwise.nil
        simp
      · apply hfolders _ hsound.here
    · rfl
    · apply hfolders
  constructor
  · use [], hself
  · intro names
    by_cases hne : names = front ++ [name]
    · rw [hne, file?, file?, hself, hold]
      rfl
    · apply (hothers names hne).1

end FileTree

end Scrutiny
