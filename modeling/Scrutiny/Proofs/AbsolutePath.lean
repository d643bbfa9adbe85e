import Scrutiny.Proofs.Files.Names

/-!
# Absolute paths

The absolute path of some names, its parent, and how it is seen from a folder above.
-/

namespace Scrutiny.Path

/-- The absolute path that leads to some names. -/
def absolute (names : List String) : String :=
  "/" ++ "/".intercalate names

variable {names rest : List String} {name : String}

theorem isAbsolute_absolute (names : List String) :
  isAbsolute (absolute names) = true
  := by
  rw [isAbsolute, absolute, String.toList_append]
  rfl

theorem pieces_absolute (hne : names ≠ []) (hnames : ∀ name ∈ names, IsName name) :
  pieces (absolute names) = "" :: names
  := by
  have hlist : (absolute names).toList = [] ++ '/' :: ("/".intercalate names).toList := by
    rw [absolute, String.toList_append]
    rfl
  rw [pieces_of_toList_eq hlist, String.ofList_toList,
    pieces_intercalate hne fun name hname => (hnames name hname).slash]
  rfl

theorem folderPieces_absolute (hnames : ∀ name ∈ names, IsName name) :
  folderPieces (absolute names) = "" :: names
  := by
  cases names with
  | nil => decide
  | cons first rest =>
      rw [folderPieces, pieces_absolute (List.cons_ne_nil first rest) hnames, if_neg]
      intro hlast
      rw [List.getLast?_cons_cons] at hlast
      apply (hnames "" (List.mem_of_getLast? hlast)).ne_empty rfl

/-- A name that is joined to an absolute path stands after the other names. -/
theorem join_absolute (hnames : ∀ name ∈ names, IsName name) (hname : IsName name) :
  join (absolute names) name = absolute (names ++ [name])
  := by
  have hall : ∀ other ∈ names ++ [name], IsName other :=
    List.forall_mem_append.mpr ⟨hnames, List.forall_mem_singleton.mpr hname⟩
  rw [← intercalate_pieces (join (absolute names) name), pieces_join _ hname,
    folderPieces_absolute hnames, List.cons_append, ← pieces_absolute (by simp) hall,
    intercalate_pieces]

theorem foldl_join_absolute (hnames : ∀ name ∈ names ++ rest, IsName name) :
  rest.foldl join (absolute names) = absolute (names ++ rest)
  := by
  induction rest generalizing names with
  | nil => rw [List.foldl_nil, List.append_nil]
  | cons first rest ih =>
      have hsplit : names ++ first :: rest = (names ++ [first]) ++ rest := by simp
      rw [hsplit] at hnames
      rw [List.foldl_cons, join_absolute, ih hnames, hsplit]
      · intro name hname
        apply hnames
        simp [hname]
      · apply hnames
        simp

theorem namesOf_absolute (tree : FileTree) (hnames : ∀ name ∈ names, IsName name) :
  tree.namesOf (absolute names) = names
  := by
  rw [FileTree.namesOf_eq_base, FileTree.base, isAbsolute_absolute, if_pos rfl,
    folderPieces_absolute hnames, lead]
  rw [if_pos (by decide), lead_of_isName _ hnames, List.nil_append]

/-- Names are told by their absolute path. -/
theorem absolute_inj {others : List String} (hnames : ∀ name ∈ names, IsName name)
    (hothers : ∀ name ∈ others, IsName name) :
  absolute names = absolute others ↔ names = others
  := by
  constructor
  · intro h
    rw [← namesOf_absolute FileTree.empty hnames, h, namesOf_absolute FileTree.empty hothers]
  · rintro rfl
    rfl

theorem filterMap_component? (hnames : ∀ name ∈ names, IsName name) :
  names.filterMap component? = names.map .name
  := by
  rw [← List.filterMap_eq_map]
  apply List.filterMap_congr
  intro name hname
  apply (hnames name hname).component?_eq

theorem components_absolute (hnames : ∀ name ∈ names, IsName name) :
  components (absolute names) = .root :: names.map .name
  := by
  have hfilter := filterMap_component? hnames
  cases names with
  | nil => decide
  | cons first rest =>
      rw [components, pieces_absolute (List.cons_ne_nil first rest) hnames]
      dsimp only
      rw [isAbsolute_absolute, if_pos rfl, hfilter]
      rfl

theorem fileName?_absolute (hname : IsName name) :
  fileName? (absolute (names ++ [name])) = some name
  := fileName?_of_names names hname

theorem parent?_absolute (hnames : ∀ other ∈ names ++ [name], IsName other) :
  parent? (absolute (names ++ [name])) = some (absolute names)
  := by
  have hname : IsName name := hnames name (by simp)
  rw [parent?, components_absolute hnames, List.map_append, List.map_singleton, ← List.cons_append,
    List.getLast?_concat, pieces_absolute (by simp) hnames, isAbsolute_absolute, ← List.cons_append]
  dsimp only
  rw [trimPieces_concat _ hname, List.dropLast_concat]
  dsimp only
  cases names using List.reverseRecOn with
  | nil => decide
  | append_singleton front last =>
      have hlast : IsName last := hnames last (by simp)
      rw [← List.cons_append, trimPieces_concat _ hlast, ofPieces, if_neg]
      · rw [absolute, List.cons_append, String.intercalate_cons_of_ne_nil (by simp)]
        rfl
      · intro hroot
        rw [Bool.true_and, beq_iff_eq] at hroot
        have hlength := congrArg List.length hroot
        simp at hlength

/-! ### Paths below a folder -/

theorem dropComponents_map_name (hnames : ∀ name ∈ names, IsName name) (rest : List String) :
  dropComponents (names.map .name) (names ++ rest) = some rest
  := by
  induction names with
  | nil =>
      cases rest <;> rw [List.map_nil, dropComponents, List.nil_append]
  | cons name names ih =>
      have hname := hnames name List.mem_cons_self
      rw [List.map_cons, List.cons_append, dropComponents, hname.component?_eq]
      dsimp only
      rw [if_pos (by simp), ih fun other hother => hnames other (List.mem_cons_of_mem _ hother)]

/-- A path is seen from a folder above it as the names after those of the folder. -/
theorem stripBase?_absolute (hnames : ∀ name ∈ names, IsName name)
    (hrest : ∀ other ∈ rest ++ [name], IsName other) :
  stripBase? (absolute (names ++ (rest ++ [name]))) (absolute names)
    = some ("/".intercalate (rest ++ [name]))
  := by
  have hname : IsName name := hrest name (by simp)
  have hall : ∀ other ∈ names ++ (rest ++ [name]), IsName other :=
    List.forall_mem_append.mpr ⟨hnames, hrest⟩
  rw [stripBase?, components_absolute hnames, pieces_absolute (by simp) hall, isAbsolute_absolute]
  dsimp only
  rw [if_pos rfl, List.tail_cons, dropComponents_map_name hnames, Option.map_some]
  obtain ⟨first, later, hfirst⟩ := List.exists_cons_of_ne_nil
    (List.append_ne_nil_of_right_ne_nil rest (List.cons_ne_nil name []))
  have hdrop : (rest ++ [name]).dropWhile (fun piece => (component? piece).isNone)
      = first :: later := by
    rw [hfirst, List.dropWhile_cons_of_neg]
    have hmem : first ∈ rest ++ [name] := by
      rw [hfirst]
      apply List.mem_cons_self
    simp [(hrest first hmem).component?_eq]
  rw [hdrop]
  dsimp only
  rw [← hfirst, trimPieces_concat rest hname]

theorem parent?_intercalate (hrest : ∀ other ∈ rest ++ [name], IsName other) :
  parent? ("/".intercalate (rest ++ [name])) = some ("/".intercalate rest)
  := by
  have hname : IsName name := hrest name (by simp)
  have hpieces : pieces ("/".intercalate (rest ++ [name])) = rest ++ [name] := by
    apply pieces_intercalate (by simp)
    intro part hpart
    apply (hrest part hpart).slash
  cases rest using List.reverseRecOn with
  | nil =>
      have hparent := fileName?_join "" hname
      rw [join, not_isAbsolute_of_slash hname.slash, if_neg Bool.false_ne_true, if_pos (by decide),
        fileName?] at hparent
      rw [List.nil_append] at hpieces ⊢
      rw [String.intercalate_singleton] at hpieces ⊢
      rw [parent?, hpieces]
      split at hparent
      · rename_i last hlast
        rw [hlast]
        rfl
      · cases hparent
  | append_singleton front last =>
      have hlast : IsName last := hrest last (by simp)
      have hfolder : pieces ("/".intercalate (front ++ [last] ++ [name])) = front ++ [last, name] := by
        rw [hpieces, List.append_assoc]
        rfl
      apply parent?_of_pieces hfolder hlast hname

/-! ### Joining relative paths -/

/-- What stands before a relative path that is joined to a folder. -/
def start (base : String) : String :=
  if base == "" then ""
  else if base.toList.getLast? == some '/' then base
  else base ++ "/"

theorem join_eq (base : String) {path : String} (hpath : isAbsolute path = false) :
  join base path = start base ++ path
  := by
  rw [join, hpath, if_neg Bool.false_ne_true, start]
  split_ifs
  · rw [String.empty_append]
  · rfl
  · rfl

theorem start_of_slash {base : String} (h : base.toList.getLast? = some '/') :
  start base = base
  := by
  have hne : (base == "") = false := by
    apply beq_eq_false_iff_ne.mpr
    rintro rfl
    cases h
  rw [start, hne, h, if_neg Bool.false_ne_true, if_pos (by decide)]

theorem start_start (base : String) :
  start (start base) = start base
  := by
  rw [start.eq_def base]
  split_ifs with hempty hslash
  · rfl
  · apply start_of_slash (eq_of_beq hslash)
  · apply start_of_slash
    rw [String.toList_append]
    apply List.getLast?_concat

theorem start_append (base : String) (hname : IsName name) :
  start (base ++ name) = base ++ name ++ "/"
  := by
  have hlist : name.toList ≠ [] := String.toList_eq_nil_iff.not.mpr hname.ne_empty
  have hempty : (base ++ name == "") = false := by
    apply beq_eq_false_iff_ne.mpr
    intro hempty
    have hnil := congrArg String.toList hempty
    rw [String.toList_append] at hnil
    apply hlist (List.append_eq_nil_iff.mp hnil).2
  have hslash : ((base ++ name).toList.getLast? == some '/') = false := by
    apply beq_eq_false_iff_ne.mpr
    intro hlast
    rw [String.toList_append, List.getLast?_append_of_ne_nil _ hlist] at hlast
    apply hname.slash (List.mem_of_getLast? hlast)
  rw [start, hempty, hslash, if_neg Bool.false_ne_true, if_neg Bool.false_ne_true]

theorem isAbsolute_intercalate (hnames : ∀ name ∈ names, IsName name) :
  isAbsolute ("/".intercalate names) = false
  := by
  cases names with
  | nil => rfl
  | cons first rest =>
      have hfirst := hnames first List.mem_cons_self
      have hlist : first.toList ≠ [] := String.toList_eq_nil_iff.not.mpr hfirst.ne_empty
      rw [← not_isAbsolute_of_slash hfirst.slash, isAbsolute, isAbsolute]
      cases rest with
      | nil => rw [String.intercalate_singleton]
      | cons second later =>
          rw [String.intercalate_cons_of_ne_nil (List.cons_ne_nil second later), String.append_assoc,
            String.toList_append, List.head?_append_of_ne_nil _ hlist]

theorem components_intercalate (hne : names ≠ []) (hnames : ∀ name ∈ names, IsName name) :
  components ("/".intercalate names) = names.map .name
  := by
  obtain ⟨first, rest, rfl⟩ := List.exists_cons_of_ne_nil hne
  obtain ⟨hfirst, hrest⟩ := List.forall_mem_cons.mp hnames
  have hhere : (first == ".") = false := by
    apply beq_eq_false_iff_ne.mpr
    rintro rfl
    cases hfirst.component?_eq
  rw [components, pieces_intercalate hne fun name hname => (hnames name hname).slash]
  dsimp only
  rw [isAbsolute_intercalate hnames, if_neg Bool.false_ne_true, hhere, if_neg Bool.false_ne_true,
    hfirst.component?_eq, filterMap_component? hrest]
  rfl

theorem slashed_intercalate (hne : names ≠ []) (hnames : ∀ name ∈ names, IsName name) :
  slashed ("/".intercalate names) = "/".intercalate names
  := by
  rw [slashed, components_intercalate hne hnames, List.map_map]
  exact congrArg "/".intercalate (List.map_id names)

/-- The path of a file below a folder, seen from there. -/
theorem relativeTo_absolute (hnames : ∀ name ∈ names, IsName name)
    (hrest : ∀ other ∈ rest ++ [name], IsName other) :
  relativeTo (absolute (names ++ (rest ++ [name]))) (absolute names) = "/".intercalate (rest ++ [name])
  := by
  have hslashed := slashed_intercalate (by simp) hrest
  rw [relativeTo, stripBase?_absolute hnames hrest]
  split
  · -- A path without any characters would have no names.
    rename_i hempty
    have hcomponents := components_intercalate (by simp) hrest
    rw [Option.some.inj hempty] at hcomponents
    have hlength := congrArg List.length hcomponents
    simp [show components "" = [] from by decide] at hlength
  · rename_i found _ hfound
    rw [← Option.some.inj hfound, hslashed]
  · rename_i hnone
    cases hnone

theorem intercalate_injective {others : List String} (hnames : ∀ name ∈ names, IsName name)
    (hothers : ∀ name ∈ others, IsName name) (hne : names ≠ []) (hne' : others ≠ [])
    (h : "/".intercalate names = "/".intercalate others) :
  names = others
  := by
  rw [← pieces_intercalate hne fun name hname => (hnames name hname).slash, h,
    pieces_intercalate hne' fun name hname => (hothers name hname).slash]

/-- Names are joined to a folder one after the other or all at once. -/
theorem join_intercalate (base : String) (hne : names ≠ []) (hnames : ∀ name ∈ names, IsName name) :
  join base ("/".intercalate names) = names.foldl join base
  := by
  induction names generalizing base with
  | nil => contradiction
  | cons first rest ih =>
      have hfirst := hnames first List.mem_cons_self
      have hrest : ∀ name ∈ rest, IsName name := fun other hother =>
        hnames other (List.mem_cons_of_mem _ hother)
      rw [List.foldl_cons]
      by_cases hnil : rest = []
      · rw [hnil, String.intercalate_singleton, List.foldl_nil]
      · rw [← ih _ hnil hrest, join_eq base (isAbsolute_intercalate hnames),
          join_eq _ (isAbsolute_intercalate hrest), join_eq base (not_isAbsolute_of_slash hfirst.slash),
          start_append _ hfirst, String.intercalate_cons_of_ne_nil hnil]
        simp only [String.append_assoc]

/-- A folder that is joined with nothing is the same folder. -/
theorem join_join_empty (base : String) (hname : IsName name) :
  join (join base "") name = join base name
  := by
  have hrelative := not_isAbsolute_of_slash hname.slash
  rw [join_eq base rfl, join_eq _ hrelative, join_eq _ hrelative, String.append_empty, start_start]

/-! ### Files under absolute paths -/

/-- A file is read from where its absolute path tells, unless a name is too long. -/
theorem read_absolute_eq_ok_iff {tree : FileTree} (hsound : tree.Sound) (hne : names ≠ [])
    (hnames : ∀ name ∈ names, IsName name) {bytes : List UInt8} :
  tree.read (absolute names) = .ok bytes
    ↔ (∀ name ∈ names, name.utf8ByteSize ≤ FileTree.maxName) ∧ tree.file? names = some bytes
  := by
  constructor
  · intro h
    obtain ⟨found, hresolve, hbytes⟩ := FileTree.read_eq_ok_iff.mp h
    obtain ⟨rfl, -⟩ := FileTree.of_resolve_eq_ok hsound hresolve
    rw [namesOf_absolute tree hnames] at hbytes hresolve
    refine ⟨fun name hname => ?_, hbytes⟩
    rw [FileTree.resolve, pieces_absolute hne hnames] at hresolve
    split_ifs at hresolve <;>
      exact FileTree.short_of_follow hresolve name (List.mem_cons_of_mem _ hname) (hnames name hname)
  · rintro ⟨hshort, hbytes⟩
    have hbase : tree.base (absolute []) = [] := by
      rw [← FileTree.namesOf_eq_base, namesOf_absolute tree (by simp)]
    have hreaches : tree.Reaches (absolute []) := by
      rw [FileTree.Reaches, hbase, isAbsolute_absolute, if_pos rfl, folderPieces_absolute (by simp)]
      exact FileTree.follow_cons_eq_ok.mpr ⟨hsound.root, rfl⟩
    have hread := FileTree.toOption_read_foldl_join hsound hreaches hne hnames hshort
    rw [hbase, List.nil_append, hbytes, foldl_join_absolute (by simpa using hnames), List.nil_append] at hread
    cases hfound : tree.read (absolute names) with
    | error e =>
        rw [hfound] at hread
        cases hread
    | ok found =>
        rw [hfound] at hread
        rw [Option.some.inj hread]

end Scrutiny.Path
