import Scrutiny.Proofs.Cache.HoldsOnly
import Scrutiny.Proofs.Review.Artifacts
import Scrutiny.Rationale.Extraction

/-!
# Files beside the cache

Runs write files that are not those of the cache: audits, the summary of a project, and a rationale
store with its lock.  None of them is called as a result is.
-/

namespace Scrutiny

open Scrutiny.Path

variable {μ : Type}

/-! ### Names -/

theorem Sha256.length_shortOfText (text : String) :
  (shortOfText text).length = 16
  := by
  rw [shortOfText, length_hex, List.length_take, length_digest]
  rfl

theorem Path.fileName?_withFileName (path : String) {name : String} (h : IsName name) :
  fileName? (withFileName path name) = some name
  := by
  rw [withFileName]
  split <;> apply fileName?_join _ h

/-- The name of a file with another ending is a name. -/
theorem Path.isName_stem_append (path : String) {ending : String} (hlong : 2 < ending.length)
    (hslash : '/' ∉ ending.toList) :
  IsName ((stem? path).getD "" ++ ending)
  := by
  apply isName_of_length
  · rw [String.length_append]
    omega
  · rw [String.toList_append, List.mem_append]
    rintro (hstem | hending)
    · rw [stem?] at hstem
      cases hname : fileName? path with
      | none =>
          rw [hname] at hstem
          cases hstem
      | some name =>
          rw [hname] at hstem
          apply (isName_of_fileName? hname).slash
          apply FileAudit.mem_of_mem_fst_splitExtension hstem
    · apply hslash hending

/-- No result has the name of a written audit. -/
theorem FileAudit.avoids_resultNames {path stem : String}
    (h : fileName? path = some (stem ++ ending)) :
  Path.Avoids Cache.resultNames path
  := by
  apply Cache.avoids_resultNames h
  intro fingerprint hvalid heq
  apply notMem_artifactNames_of_isHex [] hvalid.isHex
  use [], stem
  rw [← heq]

theorem FileAudit.fileName?_artifactPath (file root : String) (out : Option String) :
  fileName? (artifactPath file root out) = some ((stem? file).getD "" ++ ending)
  := by
  have hname : IsName ((stem? file).getD "" ++ ending) :=
    isName_stem_append file (by decide) (by decide)
  cases out with
  | none => exact fileName?_withFileName file hname
  | some folder => exact fileName?_join _ hname

theorem ProjectAudit.fileName?_summaryPath (folder : String) :
  fileName? (join folder summaryFile) = some ("_summary" ++ FileAudit.ending)
  := by
  have hname : IsName summaryFile := by apply isName_of_length <;> decide
  exact fileName?_join folder hname

theorem RationaleStore.fileName?_pathFor (folder project : String) :
  fileName? (pathFor folder project) = some (Cache.fileName (Sha256.shortOfText project))
  := by
  have hlength := Sha256.length_shortOfText project
  apply fileName?_join
  apply (Fingerprint.IsHex.isName (Sha256.isHex_hex _) _).append
  · decide
  · decide
  · intro hempty
    rw [Sha256.shortOfText, hempty] at hlength
    cases hlength

/-- The digits in the name of a store are too few for a result. -/
theorem RationaleStore.avoids_pathFor (folder project : String) :
  Path.Avoids Cache.resultNames (pathFor folder project)
  := by
  apply Cache.avoids_resultNames (fileName?_pathFor folder project)
  intro fingerprint hvalid heq
  have hlength := Sha256.length_shortOfText project
  rw [Cache.fileName_injective heq, hvalid.length_eq] at hlength
  cases hlength

theorem Session.avoids_storeLock (path : String) :
  Path.Avoids Cache.resultNames (storeLock path)
  := by
  have hname : IsName ((stem? path).getD "" ++ ".lock") := isName_stem_append path (by decide) (by decide)
  apply Cache.avoids_resultNames (fileName?_withFileName path hname)
  intro fingerprint _ heq
  have hlast := congrArg (fun text : String => text.toList.getLast?) heq
  simp [Cache.fileName] at hlast

/-! ### Actions -/

theorem FileAudit.spares_write (audit : FileAudit) (file root : String) (out : Option String) :
  ReviewAction.Spares Cache.resultNames
    (audit.write (artifactPath file root out) : ReviewAction μ Unit)
  := by
  have hname := fileName?_artifactPath file root out
  apply ReviewAction.Spares.onFiles
  apply FileAction.Spares.writeJson hname (avoids_resultNames hname)

theorem ProjectAudit.spares_writeSummary (wrap : FileError → ReviewError) (folder : String)
    (value : Json) :
  ReviewAction.Spares Cache.resultNames
    (ReviewAction.onFiles wrap (FileAction.writeJson (join folder summaryFile) value) :
      ReviewAction μ Unit)
  := by
  have hname := fileName?_summaryPath folder
  apply ReviewAction.Spares.onFiles
  apply FileAction.Spares.writeJson hname (FileAudit.avoids_resultNames hname)

theorem RationaleStore.spares_save (store : RationaleStore) (folder project : String) :
  FileAction.Spares Cache.resultNames (store.save (pathFor folder project))
  := FileAction.Spares.writeJson (fileName?_pathFor folder project) (avoids_pathFor folder project) _

namespace Session

open ReviewAction

variable {spared : Set (List String)}

theorem spares_existingFolder (folder : String) :
  Spares spared (existingFolder folder : ReviewAction μ String)
  := by
  apply Spares.bind (Spares.look _)
  intro found
  apply Spares.bind (Spares.ofExcept _ _)
  intro canonical
  apply Spares.bind (Spares.look _)
  intro isFolder
  split
  · apply Spares.pure
  · apply Spares.throw

theorem spares_takeLock {path : String} (h : Path.Avoids spared path) :
  Spares spared (takeLock path : ReviewAction μ Unit)
  := by
  have htouch : Spares spared (onFiles (fun e => .lock ("open " ++ path ++ ": " ++ e.message))
      (FileAction.touch path) : ReviewAction μ Unit) := by
    apply Spares.onFiles
    apply FileAction.Spares.touch
    intro tree
    apply (h tree).1
  rw [takeLock]
  split
  · apply Spares.bind
    · apply Spares.onFiles
      apply FileAction.Spares.createFolders
    · intro _
      apply htouch
  · apply htouch

theorem spares_chunksOrNone (session : Session μ) (path root : String) :
  Spares spared (session.chunksOrNone path root)
  := by
  apply Spares.tryCatch
  · apply Spares.bind
    · apply Spares.bind (Spares.look _)
      intro outcome
      apply Spares.ofExcept
    · intro outcome
      apply Spares.pure
  · intro e
    apply Spares.pure

end Session

end Scrutiny
