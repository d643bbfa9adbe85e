import Scrutiny.Documents.Design
import Scrutiny.Proofs.Files.Place
import Scrutiny.Proofs.Review.Beside
import Scrutiny.Proofs.Review.Locks
import Scrutiny.Proofs.Review.Project

/-!
# The stages of a design document

A run of writing a design document begins by looking which documents are there.  A stage asks for its
document without changing any file, and then writes it as a whole.
-/

namespace Scrutiny

open Scrutiny.Path

variable {μ α β : Type}

/-! ### Asking without changing files -/

namespace ReviewAction

/-- An action that changes no files, and that can only fail because the model gives no answer. -/
structure IsAsking (action : ReviewAction μ α) : Prop where
  /-- The files are as they were. -/
  files_eq : ∀ world, (action world).2.files = world.files
  /-- The model gave no answer. -/
  exists_cause : ∀ world e, (action world).1 = .error e → ∃ cause, e = .inference cause

namespace IsAsking

theorem pure (a : α) :
  IsAsking (pure a : ReviewAction μ α)
  := ⟨fun _ => rfl, fun _ _ h => by cases h⟩

theorem look (view : FileTree → α) :
  IsAsking (look view : ReviewAction μ α)
  := ⟨fun _ => rfl, fun _ _ h => by cases h⟩

theorem throw (cause : InferenceError) :
  IsAsking (throw (.inference cause) : ReviewAction μ α)
  := ⟨fun _ => rfl, fun _ _ h => ⟨cause, (Except.error.inj h).symm⟩⟩

theorem bind {action : ReviewAction μ α} {later : α → ReviewAction μ β} (h : IsAsking action)
    (hlater : ∀ a, IsAsking (later a)) :
  IsAsking (action >>= later)
  := by
  constructor
  · intro world
    have hfiles := h.files_eq world
    rcases haction : action world with ⟨e | a, middle⟩
    · rw [haction] at hfiles
      rw [bind_of_error later haction, hfiles]
    · rw [haction] at hfiles
      rw [bind_of_ok later haction, (hlater a).files_eq, hfiles]
  · intro world e herror
    rcases haction : action world with ⟨e' | a, middle⟩
    · rw [bind_of_error later haction] at herror
      rw [← Except.error.inj herror]
      apply h.exists_cause world e'
      rw [haction]
    · rw [bind_of_ok later haction] at herror
      apply (hlater a).exists_cause middle e herror

theorem tryCatch {action : ReviewAction μ α} {handler : ReviewError → ReviewAction μ α} (h : IsAsking action)
    (hhandler : ∀ cause, IsAsking (handler (.inference cause))) :
  IsAsking (tryCatch action handler)
  := by
  constructor
  · intro world
    have hfiles := h.files_eq world
    rcases haction : action world with ⟨e | a, middle⟩
    · obtain ⟨cause, rfl⟩ := h.exists_cause world e (by rw [haction])
      rw [haction] at hfiles
      rw [tryCatch_of_error haction, (hhandler cause).files_eq, hfiles]
    · rw [haction] at hfiles
      rw [tryCatch_of_ok haction, hfiles]
  · intro world e herror
    rcases haction : action world with ⟨e' | a, middle⟩
    · obtain ⟨cause, rfl⟩ := h.exists_cause world e' (by rw [haction])
      rw [tryCatch_of_error haction] at herror
      apply (hhandler cause).exists_cause middle e herror
    · rw [tryCatch_of_ok haction] at herror
      cases herror

theorem mapM {f : α → ReviewAction μ β} (h : ∀ a, IsAsking (f a)) (list : List α) :
  IsAsking (list.mapM f)
  := by
  induction list with
  | nil =>
      rw [List.mapM_nil]
      apply pure
  | cons a rest ih =>
      rw [List.mapM_cons]
      apply bind (h a)
      intro b
      apply bind ih
      intro others
      apply pure

end IsAsking

end ReviewAction

namespace Session

open ReviewAction

theorem isAsking_documentOr (session : Session μ) (reviewer : Reviewer) (question : String)
    (note : String → String) :
  IsAsking (session.documentOr reviewer question note)
  := by
  apply IsAsking.tryCatch
  · apply IsAsking.bind
    · apply IsAsking.bind
      · exact ⟨fun _ => rfl, fun _ _ h => by cases h⟩
      · rintro (cause | reply)
        · apply IsAsking.throw
        · apply IsAsking.pure
    · intro reply
      apply IsAsking.pure
  · intro cause
    split
    · apply IsAsking.throw
    · apply IsAsking.pure

theorem isAsking_detailText (session : Session μ) (root : String) :
  IsAsking (session.detailText root)
  := by
  apply IsAsking.bind (IsAsking.look _)
  intro blocks
  split
  · apply IsAsking.pure
  · apply IsAsking.bind
    · apply IsAsking.mapM
      rintro ⟨batch, i⟩
      apply IsAsking.bind (session.isAsking_documentOr _ _ _)
      intro text
      apply IsAsking.pure
    · intro sections
      apply IsAsking.pure

/-- A stage asks for its document and writes it: it fails when the document is asked for, or when it is
written, or not at all. -/
inductive Writes (document : ReviewAction μ String) (path : String) (world : World μ) :
    Except ReviewError Unit → World μ → Prop where
  /-- There is no document. -/
  | unanswered {cause : InferenceError} {next : World μ}
    (hdocument : document world = (.error (.inference cause), next)) (hfiles : next.files = world.files) :
    Writes document path world (.error (.inference cause)) next
  /-- The document is written or not. -/
  | written {text : String} {middle : World μ} {result : Except FileError Unit} {files : FileTree}
    (hdocument : document world = (.ok text, middle)) (hfiles : middle.files = world.files)
    (hwrite : FileAction.writeAtomic path (Text.bytesOf text) world.files = (result, files)) :
    Writes document path world (result.mapError .files) { middle with files }

section

variable {document : ReviewAction μ String} {path name : String} {world next : World μ}
  {result : Except ReviewError Unit} {e : ReviewError}

namespace Writes

/-- A stage fails because the model gives no answer, or because of a file. -/
theorem exists_cause (h : Writes document path world (.error e) next) :
  (∃ cause, e = .inference cause) ∨ ∃ cause, e = .files cause
  := by
  generalize hresult : (Except.error e : Except ReviewError Unit) = result at h
  cases h with
  | unanswered => exact .inl ⟨_, Except.error.inj hresult⟩
  | @written _ _ written =>
      cases written with
      | ok u => cases hresult
      | error cause => exact .inr ⟨cause, Except.error.inj hresult⟩

/-- A stage that ends the run writes nothing. -/
theorem files_eq_of_isFatal (hfatal : e.isFatal = true) (h : Writes document path world (.error e) next) :
  next.files = world.files
  := by
  generalize hresult : (Except.error e : Except ReviewError Unit) = result at h
  cases h with
  | unanswered _ hfiles => apply hfiles
  | @written _ _ written =>
      cases written with
      | ok u => cases hresult
      | error cause =>
          obtain rfl := Except.error.inj hresult
          cases hfatal

variable (hsound : world.files.Sound) (hname : fileName? path = some name)

include hsound hname

/-- A stage changes no file but that of its document, and for a time the one beside it. -/
theorem spares {spared : Set (List String)} (hpath : world.files.namesOf path ∉ spared)
    (htemporary : world.files.namesOf (temporary path) ∉ spared)
    (h : Writes document path world result next) :
  FileTree.Spares spared world.files next.files
  := by
  cases h with
  | unanswered _ hfiles =>
      rw [hfiles]
      apply FileTree.Spares.refl hsound
  | written _ _ hwrite =>
      apply (FileAction.oldOrNew_of_writeAtomic hsound hname hwrite).1.spares hpath htemporary

/-- A stage that succeeds has written its document. -/
theorem file?_eq (h : Writes document path world (.ok ()) next) :
  ∃ text middle, document world = (.ok text, middle)
    ∧ next.files.file? (world.files.namesOf path) = some (Text.bytesOf text)
  := by
  generalize hresult : (Except.ok () : Except ReviewError Unit) = result at h
  cases h with
  | unanswered => cases hresult
  | @written text middle written files hdocument hfiles hwrite =>
      cases written with
      | error cause => cases hresult
      | ok u =>
          use text, middle, hdocument
          obtain ⟨hold, hread⟩ := FileAction.oldOrNew_of_writeAtomic hsound hname hwrite
          obtain ⟨names, hresolve, hbytes⟩ := FileTree.read_eq_ok_iff.mp (hread rfl)
          obtain ⟨rfl, -⟩ := FileTree.of_resolve_eq_ok hold.sound hresolve
          rw [← hold.toKeeps.namesOf_eq, hbytes]

end Writes

end

theorem writes_of_isAsking {document : ReviewAction μ String} (h : IsAsking document) (path : String)
    (world : World μ) {result : Except ReviewError Unit} {next : World μ}
    (hrun : (document >>= fun text =>
      ReviewAction.onFiles .files (FileAction.writeAtomic path (Text.bytesOf text))) world = (result, next)) :
  Writes document path world result next
  := by
  rcases hdocument : document world with ⟨e | text, middle⟩
  · obtain ⟨cause, rfl⟩ := h.exists_cause world e (by rw [hdocument])
    rw [bind_of_error _ hdocument] at hrun
    obtain ⟨rfl, rfl⟩ := Prod.mk.inj hrun
    apply Writes.unanswered hdocument
    rw [← h.files_eq world, hdocument]
  · rw [bind_of_ok _ hdocument] at hrun
    have hfiles : middle.files = world.files := by
      rw [← h.files_eq world, hdocument]
    obtain ⟨found, files, hwrite, rfl, rfl⟩ := of_onFiles hrun
    rw [hfiles] at hwrite
    apply Writes.written hdocument hfiles hwrite

/-- The first stage asks for the detailed design and writes it. -/
theorem writes_writeDetail (session : Session μ) (root path : String) (world : World μ)
    {result : Except ReviewError Unit} {next : World μ}
    (h : session.writeDetail root path world = (result, next)) :
  Writes (session.detailText root) path world result next
  := writes_of_isAsking (session.isAsking_detailText root) path world h

theorem isAsking_overviewText (session : Session μ) (detailPath detail : String) :
  IsAsking (session.overviewText detailPath detail)
  := by
  apply IsAsking.bind (session.isAsking_documentOr _ _ _)
  intro text
  apply IsAsking.pure

/-- The second stage reads the detailed design, and then asks for the overview and writes it. -/
theorem of_writeOverview (session : Session μ) (detailPath path : String) (world : World μ)
    {result : Except ReviewError Unit} {next : World μ}
    (h : session.writeOverview detailPath path world = (result, next)) :
  (∃ cause, result = .error (.files cause) ∧ next = world)
    ∨ ∃ detail, world.files.readText detailPath = .ok detail
      ∧ Writes (session.overviewText detailPath detail) path world result next
  := by
  have hlook : ReviewAction.look (·.readText detailPath) world
      = (.ok (world.files.readText detailPath), world) :=
    rfl
  rw [writeOverview, bind_of_ok _ hlook] at h
  rcases hread : world.files.readText detailPath with cause | detail
  · left
    rw [hread] at h
    obtain ⟨rfl, rfl⟩ := Prod.mk.inj h
    exact ⟨cause, rfl, rfl⟩
  · right
    have hdetail : ofExcept ReviewError.files (.ok detail) world = (.ok detail, world) := rfl
    rw [hread, bind_of_ok _ hdetail] at h
    exact ⟨detail, rfl, writes_of_isAsking (session.isAsking_overviewText _ _) path world h⟩

end Session

/-! ### How a run begins -/

namespace DesignRun

variable {tree next : FileTree} {target : String} {run : DesignRun} {force : Bool}

/-- The names of the files of design documents. -/
def documentNames : Set (List String) :=
  {names | ∃ front, names = front ++ [detailFile] ∨ names = front ++ [overviewFile]}

/-- The file of the detailed design in a folder. -/
def detailPlace (tree : FileTree) (target : String) : List String :=
  tree.namesOf (join target detailFile)

/-- The file of the overview in a folder. -/
def overviewPlace (tree : FileTree) (target : String) : List String :=
  tree.namesOf (join target overviewFile)

theorem isName_detailFile :
  IsName detailFile
  := by
  apply isName_of_length <;> decide

theorem isName_overviewFile :
  IsName overviewFile
  := by
  apply isName_of_length <;> decide

theorem getLast?_detailPlace (tree : FileTree) (target : String) :
  (detailPlace tree target).getLast? = some detailFile
  := tree.getLast?_namesOf (fileName?_join target isName_detailFile)

theorem getLast?_overviewPlace (tree : FileTree) (target : String) :
  (overviewPlace tree target).getLast? = some overviewFile
  := tree.getLast?_namesOf (fileName?_join target isName_overviewFile)

theorem detailPlace_mem_documentNames (tree : FileTree) (target : String) :
  detailPlace tree target ∈ documentNames
  := by
  obtain ⟨front, hfront⟩ := List.getLast?_eq_some_iff.mp (getLast?_detailPlace tree target)
  exact ⟨front, .inl hfront⟩

theorem overviewPlace_mem_documentNames (tree : FileTree) (target : String) :
  overviewPlace tree target ∈ documentNames
  := by
  obtain ⟨front, hfront⟩ := List.getLast?_eq_some_iff.mp (getLast?_overviewPlace tree target)
  exact ⟨front, .inr hfront⟩

theorem detailPlace_of_keeps (h : tree.Keeps next) (target : String) :
  detailPlace next target = detailPlace tree target
  := h.namesOf_eq _

theorem overviewPlace_of_keeps (h : tree.Keeps next) (target : String) :
  overviewPlace next target = overviewPlace tree target
  := h.namesOf_eq _

theorem detailPlace_ne_overviewPlace (tree : FileTree) (target : String) :
  detailPlace tree target ≠ overviewPlace tree target
  := by
  intro heq
  have hlast := getLast?_detailPlace tree target
  rw [heq, getLast?_overviewPlace] at hlast
  revert hlast
  decide

/-- A run starts with the first stage if there is no detailed design, and else with the second one. -/
structure StartsIn (tree : FileTree) (target : String) (run : DesignRun) : Prop where
  detailPath_eq : run.detailPath = join target detailFile
  overviewPath_eq : run.overviewPath = join target overviewFile
  transitions_eq : run.transitions = [run.state]
  state : run.state = .notStarted ∧ tree.file? (detailPlace tree target) = none ∨ run.state = .detailDone

theorem utf8ByteSize_detailFile_le :
  detailFile.utf8ByteSize ≤ FileTree.maxName
  := by
  decide

/-- What a run that is not forced looks at. -/
theorem of_resume_false_eq_ok (hfolder : tree.HasFolder target)
    (h : resume target false tree = (.ok run, next)) :
  tree = next ∧ StartsIn tree target run
  := by
  obtain ⟨written, middle, hlook, hpure⟩ := FileAction.bind_eq_ok h
  obtain ⟨hoccurs, rfl⟩ := FileAction.of_look_eq_ok hlook
  obtain ⟨rfl, rfl⟩ := FileAction.of_pure_eq_ok hpure
  rw [hfolder.occurs_join isName_detailFile utf8ByteSize_detailFile_le] at hoccurs
  refine ⟨rfl, rfl, rfl, rfl, ?_⟩
  rw [← Except.ok.inj hoccurs, detailPlace, FileTree.file?]
  cases tree.at? (tree.namesOf (join target detailFile)) with
  | none => exact .inl ⟨rfl, rfl⟩
  | some node => exact .inr rfl

/-- The look at a folder at the beginning of a run; with `force` its documents are removed. -/
theorem of_resume_eq_ok (hfolder : tree.HasFolder target) (h : resume target force tree = (.ok run, next)) :
  tree.Keeps next ∧ StartsIn next target run ∧ (force = false → tree = next)
    ∧ (force = true → next.file? (detailPlace tree target) = none
      ∧ next.file? (overviewPlace tree target) = none)
  := by
  cases force with
  | false =>
      obtain ⟨rfl, hstarts⟩ := of_resume_false_eq_ok hfolder h
      exact ⟨.refl hfolder.sound, hstarts, fun _ => rfl, fun hforce => by cases hforce⟩
  | true =>
      obtain ⟨_, middle, hdetail, h⟩ := FileAction.bind_eq_ok h
      obtain ⟨_, later, hoverview, h⟩ := FileAction.bind_eq_ok h
      obtain ⟨hkeeps, hnone, -⟩ :=
        hfolder.of_removeIfThere isName_detailFile utf8ByteSize_detailFile_le hdetail
      obtain ⟨hkeeps', hnone', hothers⟩ :=
        (hfolder.of_keeps hkeeps).of_removeIfThere isName_overviewFile (by decide) hoverview
      have hboth := hkeeps.trans hkeeps'
      obtain ⟨rfl, hstarts⟩ := of_resume_false_eq_ok (hfolder.of_keeps hboth) h
      refine ⟨hboth, hstarts, fun hforce => (by cases hforce), fun _ => ⟨?_, ?_⟩⟩
      · rw [hkeeps.namesOf_eq] at hothers
        rw [hothers _ (detailPlace_ne_overviewPlace tree target)]
        apply hnone
      · rw [hkeeps.namesOf_eq] at hnone'
        apply hnone'

/-- A run that is not forced starts with the second stage if there is a detailed design. -/
theorem exists_resume_eq (hfolder : tree.HasFolder target) {bytes : List UInt8}
    (hfile : tree.file? (detailPlace tree target) = some bytes) :
  ∃ run, resume target false tree = (.ok run, tree) ∧ run.state = .detailDone
  := by
  obtain ⟨node, hnode, -⟩ := Option.bind_eq_some_iff.mp hfile
  have hlook : FileAction.look (·.occurs (join target detailFile)) tree = (.ok true, tree) := by
    rw [FileAction.look, hfolder.occurs_join isName_detailFile utf8ByteSize_detailFile_le,
      ← detailPlace, show tree.at? (detailPlace tree target) = some node from hnode]
    rfl
  exact ⟨_, FileAction.bind_of_ok _ hlook, rfl⟩

theorem spares_resume (spared : Set (List String)) (target : String) :
  FileAction.Spares spared (resume target false)
  := FileAction.Spares.bind (fun _ hsound => .refl hsound spared) fun _ => FileAction.Spares.pure _

theorem spares_resume_empty (target : String) (force : Bool) :
  FileAction.Spares ∅ (resume target force)
  := by
  cases force with
  | false => apply spares_resume
  | true =>
      have hremove (path : String) : FileAction.Spares ∅ (FileAction.removeIfThere path) :=
        .removeIfThere fun _ => Set.notMem_empty _
      exact .bind (hremove _) fun _ => .bind (hremove _) fun _ => spares_resume ∅ target

/-- The look at a folder removes no other files than its documents. -/
theorem spares_resume_of_notMem (hsound : tree.Sound) {spared : Set (List String)}
    (hdetail : detailPlace tree target ∉ spared) (hoverview : overviewPlace tree target ∉ spared)
    (force : Bool) :
  FileTree.Spares spared tree (resume target force tree).2
  := by
  cases force with
  | false => exact spares_resume spared target tree hsound
  | true =>
      have hfirst := FileAction.spares_removeIfThere hsound hdetail
      rw [resume]
      rcases hremoved : FileAction.removeIfThere (join target detailFile) tree with ⟨e | _, middle⟩
      · rw [hremoved] at hfirst
        dsimp only
        rw [if_pos rfl, FileAction.bind_of_error _ hremoved]
        apply hfirst
      · rw [hremoved] at hfirst
        dsimp only
        rw [if_pos rfl, FileAction.bind_of_ok _ hremoved]
        have hrest : overviewPlace middle target ∉ spared := by
          rwa [overviewPlace_of_keeps hfirst.toKeeps]
        have hsecond := FileAction.spares_removeIfThere hfirst.sound hrest
        rcases hremoved' : FileAction.removeIfThere (join target overviewFile) middle with ⟨e | _, last⟩
        · rw [hremoved'] at hsecond
          rw [FileAction.bind_of_error _ hremoved']
          apply hfirst.trans hsecond
        · rw [hremoved'] at hsecond
          rw [FileAction.bind_of_ok _ hremoved']
          apply (hfirst.trans hsecond).trans
          apply spares_resume spared target last hsecond.sound

end DesignRun

namespace Session

open DesignRun ReviewAction

variable {session : Session μ} {folder root : String} {out : Option String} {force : Bool}
  {start : DesignRun} {world next : World μ}

/-- The name of the lock of the documents in a folder. -/
def designLockName (target : String) : String :=
  "design-" ++ Sha256.shortOfText target ++ ".lock"

theorem isName_designLockName (target : String) :
  IsName (designLockName target)
  := by
  have hhex : Fingerprint.IsHex (Sha256.shortOfText target) := Sha256.isHex_hex _
  have hdigits : IsName (Sha256.shortOfText target) := by
    apply hhex.isName
    intro hempty
    have hlength := Sha256.length_shortOfText target
    rw [hempty] at hlength
    cases hlength
  apply isName_of_length
  · rw [designLockName, String.length_append, String.length_append, Sha256.length_shortOfText]
    decide
  · rw [designLockName, String.toList_append, String.toList_append]
    simp only [List.mem_append, not_or]
    exact ⟨⟨by decide, hdigits.slash⟩, by decide⟩

/-- The lock of the documents is none of them. -/
theorem avoids_designLock (session : Session μ) (target : String) :
  Avoids documentNames (session.designLock target)
  := by
  -- The names of the documents end in another letter.
  have hothers (front : List String) (stem : String) {ending : String} (hne : ending.toList ≠ [])
      (hlast : ending.toList.getLast? ≠ some 'd') : front ++ [stem ++ ending] ∉ documentNames := by
    rintro ⟨front', heq | heq⟩
    · apply append_ne_of_getLast? front front' stem hne _ heq
      apply hlast
    · apply append_ne_of_getLast? front front' stem hne _ heq
      apply hlast
  apply avoids_of_fileName (fileName?_join _ (isName_designLockName target))
  intro front
  constructor
  · apply hothers _ _ (by decide) (by decide)
  · apply hothers _ _ (by decide) (by decide)

/-- The beginning of a run spares what neither its lock nor its look at the documents touches. -/
theorem spares_of_beginDesign {spared : Set (List String)} {result : Except ReviewError (String × DesignRun)}
    (hsound : world.files.Sound) (hlock : ∀ target, Avoids spared (session.designLock target))
    (hresume : ∀ target, FileAction.Spares spared (resume target force))
    (h : session.beginDesign folder out force world = (result, next)) :
  FileTree.Spares spared world.files next.files
  := by
  have hspares : ReviewAction.Spares spared (session.beginDesign folder out force) := by
    apply ReviewAction.Spares.bind (spares_existingFolder folder)
    intro root
    apply ReviewAction.Spares.bind (.onFiles _ (.createFolders _))
    intro _
    apply ReviewAction.Spares.bind (spares_takeLock (hlock _))
    intro _
    apply ReviewAction.Spares.bind (.onFiles _ (hresume _))
    intro start
    apply ReviewAction.Spares.pure
  have hfiles := hspares world hsound
  rw [h] at hfiles
  apply hfiles

/-- A run has begun: it can look at the folder of its documents, and has changed these only if it is forced,
by removing them. -/
structure HasBegun (force : Bool) (target : String) (world : World μ) (start : DesignRun) (next : World μ) :
    Prop where
  hasFolder : next.files.HasFolder target
  keeps : world.files.Keeps next.files
  startsIn : StartsIn next.files target start
  spares : force = false → FileTree.Spares documentNames world.files next.files
  removed : force = true → next.files.file? (detailPlace world.files target) = none
    ∧ next.files.file? (overviewPlace world.files target) = none

theorem hasBegun_of_beginDesign (hsound : world.files.Sound)
    (h : session.beginDesign folder out force world = (.ok (root, start), next)) :
  existingFolder folder world = (.ok root, world) ∧ HasBegun force (out.getD root) world start next
  := by
  have hspares (hforce : force = false) : FileTree.Spares documentNames world.files next.files := by
    subst hforce
    apply spares_of_beginDesign hsound session.avoids_designLock (spares_resume documentNames) h
  obtain ⟨found, middle, hroot, h⟩ := of_bind_eq_ok h
  obtain ⟨rfl, -, -⟩ := existingFolder_eq_ok_iff.mp hroot
  obtain ⟨_, created, hcreate, h⟩ := of_bind_eq_ok h
  obtain ⟨files, hcreated, rfl⟩ := of_onFiles_eq_ok hcreate
  obtain ⟨_, locked, hlock, h⟩ := of_bind_eq_ok h
  obtain ⟨run, resumed, hresume, h⟩ := of_bind_eq_ok h
  obtain ⟨last, hresumed, rfl⟩ := of_onFiles_eq_ok hresume
  obtain ⟨heq, rfl⟩ := of_pure_eq_ok h
  obtain ⟨rfl, rfl⟩ := Prod.mk.inj heq
  use hroot
  have hgrows := (FileAction.grows_of_createFolders hsound hcreated).1
  have htaken : FileTree.Keeps files locked.files := by
    have htaken :=
      spares_takeLock (session.avoids_designLock (out.getD found)) { world with files } hgrows.sound
    rw [hlock] at htaken
    apply htaken.toKeeps
  have hready := hgrows.toKeeps.trans htaken
  have hfolder := (FileTree.hasFolder_of_createFolders hsound hcreated).of_keeps htaken
  obtain ⟨hkeeps, hstarts, -, hremoved⟩ := of_resume_eq_ok hfolder hresumed
  refine ⟨hfolder.of_keeps hkeeps, hready.trans hkeeps, hstarts, hspares, ?_⟩
  rw [detailPlace_of_keeps hready, overviewPlace_of_keeps hready] at hremoved
  apply hremoved

/-- A run does not begin if a folder cannot be found or made, if the lock cannot be taken, or if the
documents cannot be removed. -/
theorem of_beginDesign_eq_error {e : ReviewError}
    (h : session.beginDesign folder out force world = (.error e, next)) :
  (∃ reason, e = .badPath folder reason) ∨ (∃ cause, e = .files cause) ∨ ∃ reason, e = .lock reason
  := by
  rcases of_bind h with ⟨e', hroot, heq⟩ | ⟨root, _, -, h⟩
  · obtain rfl := Except.error.inj heq
    exact .inl (of_existingFolder_eq_error hroot).2
  rcases of_bind h with ⟨e', hcreate, heq⟩ | ⟨_, _, -, h⟩
  · obtain rfl := Except.error.inj heq
    obtain ⟨cause, -, -, rfl, -⟩ := of_onFiles_eq_error hcreate
    exact .inr (.inl ⟨cause, rfl⟩)
  rcases of_bind h with ⟨e', hlock, heq⟩ | ⟨_, _, -, h⟩
  · obtain rfl := Except.error.inj heq
    exact .inr (of_takeLock_eq_error hlock)
  rcases of_bind h with ⟨e', hresume, heq⟩ | ⟨_, _, -, h⟩
  · obtain rfl := Except.error.inj heq
    obtain ⟨cause, -, -, rfl, -⟩ := of_onFiles_eq_error hresume
    exact .inr (.inl ⟨cause, rfl⟩)
  · cases h

end Session

end Scrutiny
