import Scrutiny.Proofs.Files.Names
import Scrutiny.Proofs.Review.Spared
import Scrutiny.Proofs.Review.Concurrent

/-!
# Sources of audits

The files that are written while a file is audited have names that no source file has.  So an audit
leaves its source as it was.
-/

namespace Scrutiny

/-! ### Names that no source file has -/

/-- The names of what is no source file, as the last of them shows. -/
def otherNames : Set (List String) :=
  {names | ∃ front name, names = front ++ [name] ∧ Path.IsName name
    ∧ ∀ path, Path.fileName? path = some name → (Language.ofPath path).hasGrammar = false}

theorem exists_fileName?_of_hasGrammar {path : String} (h : (Language.ofPath path).hasGrammar) :
  ∃ name, Path.fileName? path = some name
  := by
  cases hname : Path.fileName? path with
  | none =>
      rw [Language.ofPath, Path.extension?, hname] at h
      cases h
  | some name => exact ⟨name, rfl⟩

/-- A file with an extension that is not known cannot be audited. -/
theorem hasGrammar_eq_false {path name : String} (hpath : Path.fileName? path = some name)
    {stem extension : List Char} (hname : name.toList = stem ++ '.' :: extension) (hstem : stem ≠ [])
    (hextension : extension ≠ []) (hdot : '.' ∉ extension)
    (hother : (Language.ofExtension (String.ofList extension)).hasGrammar = false) :
  (Language.ofPath path).hasGrammar = false
  := by
  have hextension? : Path.extension? path = some (String.ofList extension) := by
    rw [Path.extension?, hpath]
    exact Path.snd_splitExtension hname hstem hextension hdot
  rw [Language.ofPath, hextension?]
  exact hother

theorem mem_otherNames_of_fileName (front : List String) {digits : String}
    (hname : Path.IsName (Cache.fileName digits)) (hdigits : digits ≠ "") :
  front ++ [Cache.fileName digits] ∈ otherNames
    ∧ front ++ [Cache.fileName digits ++ Path.temporaryEnding] ∈ otherNames
  := by
  constructor
  · use front, Cache.fileName digits, rfl, hname
    intro path hpath
    have hlist : (Cache.fileName digits).toList = digits.toList ++ '.' :: "json".toList := by
      rw [Cache.fileName, String.toList_append]
      rfl
    apply hasGrammar_eq_false hpath hlist
    · exact String.toList_eq_nil_iff.not.mpr hdigits
    · decide
    · decide
    · decide +kernel
  · use front, Cache.fileName digits ++ Path.temporaryEnding, rfl
    constructor
    · apply hname.append <;> decide
    · intro path hpath
      have hlist : (Cache.fileName digits ++ Path.temporaryEnding).toList
          = (Cache.fileName digits).toList ++ '.' :: "tmp".toList := by
        rw [String.toList_append]
        rfl
      apply hasGrammar_eq_false hpath hlist
      · exact String.toList_eq_nil_iff.not.mpr hname.ne_empty
      · decide
      · decide
      · decide +kernel

namespace Cache

/-- No file of the cache has the name of a source file. -/
theorem isApart_otherNames (cache : Cache) :
  cache.IsApart otherNamesᶜ
  := by
  apply cache.isApart_of_names
  intro front fingerprint hvalid
  have hdigits : fingerprint.text ≠ "" := by
    intro hempty
    have hlength := hvalid.length_eq
    rw [hempty] at hlength
    cases hlength
  obtain ⟨hfile, htemporary⟩ :=
    mem_otherNames_of_fileName front (isShortName_fileName hvalid).toIsName hdigits
  exact ⟨Set.notMem_compl_iff.mpr hfile, Set.notMem_compl_iff.mpr htemporary⟩

end Cache

namespace FileTree

variable {tree next : FileTree} {path root : String}

/-- The path of what can be audited does not lead to one of these names. -/
theorem namesOf_notMem_otherNames (tree : FileTree) (h : (Language.ofPath path).hasGrammar) :
  tree.namesOf path ∉ otherNames
  := by
  rintro ⟨front, name, hnames, -, hother⟩
  obtain ⟨last, hlast⟩ := exists_fileName?_of_hasGrammar h
  have hname := tree.getLast?_namesOf hlast
  rw [hnames, List.getLast?_concat] at hname
  obtain rfl := Option.some.inj hname
  rw [hother path hlast] at h
  cases h

/-! ### Sources that stay -/

/-- What exists still does, if it is a folder or a file that was spared. -/
theorem canonical_of_spares {spared : Set (List String)} (hspares : Spares spared tree next)
    {file : String} (hcanonical : tree.canonical path = .ok file)
    (hfolder : ∀ names, tree.resolve path = .ok names → names ∉ spared → tree.IsFolderAt names) :
  next.canonical path = .ok file
  := by
  obtain ⟨names, hresolve, hsome, hfile⟩ := canonical_eq_ok_iff.mp hcanonical
  apply canonical_eq_ok_iff.mpr
  refine ⟨names, resolve_of_keeps hspares.toKeeps hresolve, ?_, hfile⟩
  have hstays (h : tree.IsFolderAt names) : (next.at? names).isSome := by
    obtain ⟨entries, hentries⟩ := hspares.isFolderAt names h
    exact Option.isSome_iff_exists.mpr ⟨_, hentries⟩
  obtain ⟨node, hnode⟩ := Option.isSome_iff_exists.mp hsome
  cases node with
  | folder entries => exact hstays ⟨entries, hnode⟩
  | file bytes =>
      by_cases hspared : names ∈ spared
      · have hbytes := hspares.file?_eq names hspared
        rw [file?, file?, hnode] at hbytes
        obtain ⟨found, hfound, -⟩ := Option.bind_eq_some_iff.mp hbytes
        rw [hfound, Option.isSome_some]
      · exact hstays (hfolder names hresolve hspared)

end FileTree

/-! ### Sources of audits -/

variable {μ : Type} {session : Session μ}

namespace Session

variable {path root : String} {tree next : FileTree}

/-- A file and its project are found at the same places, and the file has the same bytes. -/
structure SameSource (path root : String) (tree next : FileTree) : Prop where
  canonical_eq : next.canonical path = tree.canonical path
  root_eq : next.canonical root = tree.canonical root
  read_eq : ∀ file, tree.canonical path = .ok file → next.read file = tree.read file

/-- A source that can be audited is the same after all but other names were spared. -/
theorem sameSource_of_spares (hsound : tree.Sound) (hspares : FileTree.Spares otherNamesᶜ tree next)
    (hroot : tree.isFolder root) {file : String} (hcanonical : tree.canonical path = .ok file)
    (hgrammar : (Language.ofPath file).hasGrammar) {bytes : List UInt8}
    (hread : tree.read file = .ok bytes) :
  SameSource path root tree next
  := by
  constructor
  · rw [hcanonical]
    apply FileTree.canonical_of_spares hspares hcanonical
    intro names hresolve hmem
    obtain ⟨front, name, rfl, hname, hother⟩ := Set.notMem_compl_iff.mp hmem
    obtain ⟨_, hresolve', -, rfl⟩ := FileTree.canonical_eq_ok_iff.mp hcanonical
    obtain rfl := Except.ok.inj (hresolve.symm.trans hresolve')
    rw [hother _ (Path.fileName?_of_names front hname)] at hgrammar
    cases hgrammar
  · obtain ⟨names, entries, hresolve, hnode⟩ := FileTree.isFolder_iff.mp hroot
    have hbase : tree.canonical root = .ok ("/" ++ "/".intercalate names) :=
      FileTree.canonical_eq_ok_iff.mpr ⟨names, hresolve, by rw [hnode]; rfl, rfl⟩
    rw [hbase]
    apply FileTree.canonical_of_spares hspares hbase
    intro others hothers _
    obtain rfl := Except.ok.inj (hresolve.symm.trans hothers)
    exact ⟨entries, hnode⟩
  · intro other hother
    obtain rfl := Except.ok.inj (hcanonical.symm.trans hother)
    rw [hread]
    apply FileTree.read_of_keeps hspares.toKeeps hsound _ hread
    apply hspares.file?_eq
    apply FileTree.namesOf_notMem_otherNames tree hgrammar

theorem hasGrammar_of_chunkGuarded {config : ChunkConfig} {file text : String} {language : Language}
    {outcome : ChunkOutcome} (h : chunkGuarded config file text language = .ok outcome) :
  language.hasGrammar
  := by
  rw [chunkGuarded, chunkText] at h
  dsimp only at h
  by_contra hnot
  rw [Bool.not_eq_true] at hnot
  rw [hnot] at h
  cases hblank : Text.isBlankText text.toList with
  | true =>
      rw [hblank] at h
      cases h
  | false =>
      rw [hblank] at h
      cases h

/-- What a plan with chunks tells about the file. -/
theorem of_planFor_eq_ok {file : String} {outcome : ChunkOutcome}
    (h : session.planFor path root tree = .ok (file, outcome)) (hne : outcome.chunks ≠ []) :
  tree.canonical path = .ok file ∧ (Language.ofPath file).hasGrammar
    ∧ ∃ bytes, tree.read file = .ok bytes
  := by
  cases hcanonical : tree.canonical path with
  | error e =>
      rw [planFor, hcanonical] at h
      cases h
  | ok found =>
      rw [planFor_of_canonical _ hcanonical] at h
      cases hguarded : chunkFileGuarded session.chunkConfig tree found
          ((tree.canonical root).toOption.getD root) with
      | error e =>
          rw [hguarded] at h
          cases h
      | ok outcome' =>
          rw [hguarded] at h
          obtain ⟨rfl, rfl⟩ := Prod.mk.inj (Except.ok.inj h)
          use rfl
          rw [chunkFileGuarded, readSource] at hguarded
          cases hread : tree.read found with
          | error e =>
              rw [hread] at hguarded
              cases hguarded
          | ok bytes =>
              rw [hread] at hguarded
              refine ⟨?_, bytes, rfl⟩
              -- A blank file has no chunks.
              simp only [Except.bind, bind, pure, Except.pure] at hguarded
              split at hguarded
              · obtain rfl := Except.ok.inj hguarded
                contradiction
              · apply hasGrammar_of_chunkGuarded hguarded

/-- An audit leaves its source as it was. -/
theorem sameSource_of_auditFileBy? {force : Bool} {order : List Nat} {world later : World μ}
    {result : Except ReviewError FileAudit} (hsound : world.files.Sound)
    (hroot : world.files.isFolder root)
    (h : session.auditFileBy? path root force order world = some (result, later)) :
  SameSource path root world.files later.files
  := by
  have hspares := session.spares_of_auditFileBy? session.cache.isApart_otherNames hsound h
  rw [auditFileBy?] at h
  cases hplan : session.planFor path root world.files with
  | error e =>
      rw [hplan] at h
      obtain ⟨-, rfl⟩ := Prod.mk.inj (Option.some.inj h)
      exact ⟨rfl, rfl, fun _ _ => rfl⟩
  | ok plan =>
      obtain ⟨file, outcome⟩ := plan
      by_cases hempty : outcome.chunks = []
      · rw [hplan] at h
        dsimp only at h
        rw [if_pos (List.isEmpty_iff.mpr hempty)] at h
        obtain ⟨-, rfl⟩ := Prod.mk.inj (Option.some.inj h)
        exact ⟨rfl, rfl, fun _ _ => rfl⟩
      · obtain ⟨hcanonical, hgrammar, bytes, hread⟩ := of_planFor_eq_ok hplan hempty
        apply sameSource_of_spares hsound hspares hroot hcanonical hgrammar hread

end Session

end Scrutiny
