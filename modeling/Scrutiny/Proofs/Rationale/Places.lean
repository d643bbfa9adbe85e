import Scrutiny.Proofs.Rationale.Store
import Scrutiny.Proofs.Review.Beside
import Scrutiny.Proofs.Scan.Unchanged

/-!
# Where stores and their locks are

The names of the files that an extraction writes tell what they are: results of the cache, stores, and
their locks.  None of them is the name of a source file, or of a file with rules.
-/

namespace Scrutiny

open Scrutiny.Path

/-! ### Names that tell what a file is -/

namespace Sources

theorem mem_sourceNames_iff {front : List String} {name : String} :
  front ++ [name] ∈ sourceNames ↔ isSource [name] = true ∨ name ∈ ruleNames
  := by
  have hlast : isSource (front ++ [name]) = isSource [name] := by
    rw [isSource, isSource, List.getLast?_concat, List.getLast?_singleton]
  rw [sourceNames, Set.mem_ofPred_eq, hlast]
  simp

/-- The endings of the names of the files that are written. -/
def writtenEndings : List String := ["json", "tmp", "lock"]

theorem splitExtension_of_mem_ruleNames {name : String} (h : name ∈ ruleNames) :
  (splitExtension name).2 = none
  := by
  revert name
  decide

theorem not_scanned_of_writtenEndings {ending : String} (h : ending ∈ writtenEndings) :
  ending.toList ≠ [] ∧ '.' ∉ ending.toList
    ∧ Language.scannedExtensions.contains (ending.map Char.toLower) = false
    ∧ isSource ["." ++ ending] = false ∧ "." ++ ending ∉ ruleNames
  := by
  revert ending
  decide +kernel

/-- A file with such an ending is no source file and no file with rules. -/
theorem notMem_sourceNames (front : List String) (stem ending : String) (h : ending ∈ writtenEndings) :
  front ++ [stem ++ ("." ++ ending)] ∉ sourceNames
  := by
  obtain ⟨hne, hdot, hscanned, hsource, hrules⟩ := not_scanned_of_writtenEndings h
  rw [mem_sourceNames_iff]
  by_cases hstem : stem = ""
  · rw [hstem, String.empty_append, hsource]
    simp [hrules]
  · have hlist : (stem ++ ("." ++ ending)).toList = stem.toList ++ '.' :: ending.toList := by
      rw [String.toList_append, String.toList_append]
      rfl
    have hextension := snd_splitExtension hlist (String.toList_eq_nil_iff.not.mpr hstem) hne hdot
    rw [String.ofList_toList] at hextension
    rintro (hsource | hrules)
    · rw [isSource, List.getLast?_singleton, Option.map_some] at hsource
      generalize splitExtension (stem ++ ("." ++ ending)) = split at hsource hextension
      obtain ⟨front, extension⟩ := split
      obtain rfl : extension = some ending := hextension
      dsimp only at hsource
      rw [hscanned] at hsource
      cases hsource
    · rw [splitExtension_of_mem_ruleNames hrules] at hextension
      cases hextension

end Sources

/-! ### Stores and their locks -/

namespace RationaleStore

/-- The names of stores: they have fewer digits than those of results. -/
def storeNames : Set (List String) :=
  {names | ∃ front digits, names = front ++ [Cache.fileName digits] ∧ digits.length = 16}

/-- The names of locks. -/
def lockNames : Set (List String) :=
  {names | ∃ front stem, names = front ++ [stem ++ ".lock"]}

theorem notMem_lockNames (front : List String) (stem : String) {ending : String}
    (h : ending.toList.getLast? ≠ some 'k') (hne : ending.toList ≠ []) :
  front ++ [stem ++ ending] ∉ lockNames
  := by
  rintro ⟨front', stem', hnames⟩
  apply append_ne_of_getLast? front front' stem hne _ hnames
  rw [String.toList_append, List.getLast?_append_of_ne_nil _ (by decide)]
  apply h

theorem notMem_storeNames (front : List String) (stem : String) {ending : String}
    (h : ending.toList.getLast? ≠ some 'n') (hne : ending.toList ≠ []) :
  front ++ [stem ++ ending] ∉ storeNames
  := by
  rintro ⟨front', digits, hnames, -⟩
  apply append_ne_of_getLast? front front' stem hne _ hnames
  rw [Cache.fileName, String.toList_append, List.getLast?_append_of_ne_nil _ (by decide)]
  apply h

/-- The cache leaves alone what an extraction depends on. -/
theorem isApart (cache : Cache) :
  cache.IsApart (Sources.sourceNames ∪ storeNames ∪ lockNames)
  := by
  apply cache.isApart_of_names
  intro front fingerprint hvalid
  constructor
  · rintro ((hsource | hstore) | hlock)
    · exact Sources.notMem_sourceNames front fingerprint.text "json" (by decide) hsource
    · obtain ⟨front', digits, hnames, hlength⟩ := hstore
      have htexts := Cache.fileName_injective (List.singleton_inj.mp (List.append_inj_right' hnames rfl))
      rw [← htexts, hvalid.length_eq] at hlength
      cases hlength
    · apply notMem_lockNames _ _ (by decide) (by decide) hlock
  · rintro ((hsource | hstore) | hlock)
    · exact Sources.notMem_sourceNames front (Cache.fileName fingerprint.text) "tmp" (by decide) hsource
    · apply notMem_storeNames _ _ (by decide) (by decide) hstore
    · apply notMem_lockNames _ _ (by decide) (by decide) hlock

variable (tree : FileTree) (folder project : String)

theorem namesOf_mem_storeNames :
  tree.namesOf (pathFor folder project) ∈ storeNames
  := by
  obtain ⟨front, hfront⟩ := List.getLast?_eq_some_iff.mp
    (tree.getLast?_namesOf (fileName?_pathFor folder project))
  exact ⟨front, _, hfront, Sha256.length_shortOfText project⟩

theorem fileName?_storeLock (path : String) :
  ∃ stem, fileName? (Session.storeLock path) = some (stem ++ ".lock")
  := ⟨_, fileName?_withFileName path (isName_stem_append path (by decide) (by decide))⟩

theorem namesOf_mem_lockNames (path : String) :
  tree.namesOf (Session.storeLock path) ∈ lockNames
  := by
  obtain ⟨stem, hname⟩ := fileName?_storeLock path
  obtain ⟨front, hfront⟩ := List.getLast?_eq_some_iff.mp (tree.getLast?_namesOf hname)
  exact ⟨front, stem, hfront⟩

theorem isName_fileName_shortOfText :
  IsName (Cache.fileName (Sha256.shortOfText project))
  := isName_of_fileName? (fileName?_pathFor "" project)

/-- A lock stands beside its store. -/
theorem storeLock_eq_join :
  ∃ parent stem, pathFor folder project = join parent (Cache.fileName (Sha256.shortOfText project))
    ∧ Session.storeLock (pathFor folder project) = join parent (stem ++ ".lock")
    ∧ IsName (stem ++ ".lock")
  := by
  have hname := isName_fileName_shortOfText project
  have hrationale : IsName "rationale" := by
    apply isName_of_length <;> decide
  have hpieces : pieces (pathFor folder project)
      = folderPieces folder ++ ["rationale", Cache.fileName (Sha256.shortOfText project)] := by
    have hjoin := pieces_join (join folder "rationale") hname
    rw [folderPieces_join folder hrationale, List.append_assoc] at hjoin
    apply hjoin
  refine ⟨_, _, (join_folder hpieces hrationale hname).symm, ?_,
    isName_stem_append (pathFor folder project) (by decide) (by decide)⟩
  rw [Session.storeLock, withFileName, fileName?_pathFor, parent?_of_pieces hpieces hrationale hname,
    Option.getD_some]

/-- Where a lock can be taken, the path of the store can be followed. -/
theorem exists_resolve_pathFor {names : List String}
    (h : tree.resolve (Session.storeLock (pathFor folder project)) = .ok names) :
  ∃ others, tree.resolve (pathFor folder project) = .ok others
  := by
  obtain ⟨parent, stem, hpath, hlock, hname⟩ := storeLock_eq_join folder project
  rw [hlock] at h
  rw [hpath]
  apply FileTree.exists_resolve_join hname (isName_fileName_shortOfText project) _ h
  have hhex : Fingerprint.IsHex (Sha256.shortOfText project) := Sha256.isHex_hex _
  rw [Cache.fileName, String.utf8ByteSize_append, hhex.utf8ByteSize_eq, Sha256.length_shortOfText]
  decide

/-- A store that is saved leaves sources and locks alone. -/
theorem avoids_pathFor_sources :
  Avoids (Sources.sourceNames ∪ lockNames) (pathFor folder project)
  := by
  apply avoids_of_fileName (fileName?_pathFor folder project)
  intro front
  constructor
  · rintro (hsource | hlock)
    · exact Sources.notMem_sourceNames front (Sha256.shortOfText project) "json" (by decide) hsource
    · apply notMem_lockNames _ _ (by decide) (by decide) hlock
  · rintro (hsource | hlock)
    · exact Sources.notMem_sourceNames front (Cache.fileName (Sha256.shortOfText project)) "tmp" (by decide)
        hsource
    · apply notMem_lockNames _ _ (by decide) (by decide) hlock

/-- A lock that is taken leaves sources and stores alone. -/
theorem avoids_storeLock_sources (path : String) :
  Avoids (Sources.sourceNames ∪ storeNames) (Session.storeLock path)
  := by
  obtain ⟨stem, hname⟩ := fileName?_storeLock path
  apply avoids_of_fileName hname
  intro front
  constructor
  · rintro (hsource | hstore)
    · exact Sources.notMem_sourceNames front stem "lock" (by decide) hsource
    · apply notMem_storeNames _ _ (by decide) (by decide) hstore
  · rintro (hsource | hstore)
    · exact Sources.notMem_sourceNames front (stem ++ ".lock") "tmp" (by decide) hsource
    · apply notMem_storeNames _ _ (by decide) (by decide) hstore

end RationaleStore

end Scrutiny
