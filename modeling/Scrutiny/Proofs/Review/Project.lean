import Scrutiny.Proofs.Review.Artifacts
import Scrutiny.Proofs.Review.Regular
import Scrutiny.Proofs.Scan.Walk

/-!
# Audits of projects

The files of a project are audited one after the other.  The audit of each of them is written to a
file, and stays there until the end if no other file of the project has the same written audit.
-/

namespace Scrutiny

variable {μ : Type}

/-! ### Audits that are written -/

namespace FileAudit

/-- An audit of the file of a path is written to another file. -/
def IsWritten (tree : FileTree) (path artifact : String) : Prop :=
  ∃ audit : FileAudit, audit.file = path
    ∧ tree.read artifact = .ok (Text.bytesOf audit.toJson.pretty)

theorem IsWritten.of_spares {tree next : FileTree} {path artifact : String}
    (h : IsWritten tree path artifact) (hsound : tree.Sound) {spared : Set (List String)}
    (hspares : FileTree.Spares spared tree next) (hartifact : tree.namesOf artifact ∈ spared) :
  IsWritten next path artifact
  := by
  obtain ⟨audit, hfile, hread⟩ := h
  use audit, hfile
  apply FileTree.read_of_keeps hspares.toKeeps hsound (hspares.file?_eq _ hartifact) hread

/-- A write that leaves the old audit or a new one of the same file leaves one that is written. -/
theorem IsWritten.of_oldOrNew {tree next : FileTree} {path artifact : String}
    (h : IsWritten tree path artifact) (hsound : tree.Sound) {audit : FileAudit}
    (haudit : audit.file = path)
    (hold : FileTree.OldOrNew artifact (Text.bytesOf audit.toJson.pretty) tree next) :
  IsWritten next path artifact
  := by
  obtain ⟨before, hbefore, hread⟩ := h
  rcases hold.old_or_new with hsame | hnew
  · use before, hbefore
    apply FileTree.read_of_keeps hold.toKeeps hsound hsame hread
  · use audit, haudit
    obtain ⟨names, hresolve, -⟩ := FileTree.read_eq_ok_iff.mp hread
    obtain ⟨rfl, -⟩ := FileTree.of_resolve_eq_ok hsound hresolve
    apply FileTree.read_eq_ok_iff.mpr
    use tree.namesOf artifact, FileTree.resolve_of_keeps hold.toKeeps hresolve

theorem namesOf_temporary_notMem {path name : String} (hname : Path.fileName? path = some name)
    (tree : FileTree) :
  tree.namesOf (Path.temporary path) ∉ artifactNames
  := by
  obtain ⟨front, hfront⟩ := List.getLast?_eq_some_iff.mp (tree.getLast?_namesOf_temporary hname)
  apply notMem_artifactNames_of_isTemporary ⟨front, name, hfront⟩

/-- The names of files that audits are written to, but for those of one of them. -/
def otherArtifacts (place : List String) : Set (List String) :=
  {names | names ∈ artifactNames ∧ names ≠ place}

/-- Writing one file leaves the audits that were written to others, whatever comes of it. -/
theorem spares_writeJson {tree next : FileTree} (hsound : tree.Sound) {path name : String}
    (hname : Path.fileName? path = some name) {value : Json} {result : Except FileError Unit}
    (h : FileAction.writeJson path value tree = (result, next)) :
  FileTree.Spares (otherArtifacts (tree.namesOf path)) tree next
  := by
  apply (FileAction.oldOrNew_of_writeAtomic hsound hname h).1.spares
  · intro hnames
    apply hnames.2 rfl
  · intro hnames
    apply namesOf_temporary_notMem hname _ hnames.1

theorem IsBelow.namesOf_mem {root path : String} {names front : List String} {name : String}
    (h : IsBelow root path names front name) (tree : FileTree) (out : Option String) :
  tree.namesOf (artifactPath path root out) ∈ artifactNames
  := by
  rw [h.namesOf_artifactPath, ← List.append_assoc]
  exact ⟨_, _, rfl⟩

end FileAudit

namespace Session

open FileAudit

variable {session : Session μ} {world next : World μ} {root path : String} {force : Bool}
  {out : Option String} {progress progress' : AuditProgress}

/-- An audit tells the file by its absolute path. -/
theorem canonical_of_auditFile_eq_ok {audit : FileAudit}
    (h : session.auditFile path root force world = (.ok audit, next)) :
  world.files.canonical path = .ok audit.file
  := by
  rw [auditFile] at h
  obtain ⟨found, middle, hlook, h⟩ := ReviewAction.of_bind_eq_ok h
  obtain ⟨rfl, rfl⟩ := ReviewAction.of_look_eq_ok hlook
  obtain ⟨file, middle, hfound, h⟩ := ReviewAction.of_bind_eq_ok h
  obtain ⟨hcanonical, rfl⟩ := ReviewAction.of_ofExcept_eq_ok hfound
  obtain ⟨base, middle, -, h⟩ := ReviewAction.of_bind_eq_ok h
  obtain ⟨outcome, middle, -, h⟩ := ReviewAction.of_bind_eq_ok h
  have hfile {world : World μ} (h : (do
      let chunks ← session.auditChunks force Reviewer.auditors outcome.chunks
      return ({ file, chunks, degraded := outcome.degraded.map ChunkError.message } : FileAudit)) world
        = (.ok audit, next)) : file = audit.file := by
    obtain ⟨chunks, middle, -, h⟩ := ReviewAction.of_bind_eq_ok h
    obtain ⟨rfl, -⟩ := ReviewAction.of_pure_eq_ok h
    rfl
  rw [hcanonical]
  dsimp only at h
  split_ifs at h
  · obtain ⟨rfl, -⟩ := ReviewAction.of_pure_eq_ok h
    rfl
  · obtain ⟨_, middle, -, h⟩ := ReviewAction.of_bind_eq_ok h
    rw [hfile h]
  · rw [hfile h]

/-- The audit of one file of a project writes no files but those of the cache, and then it writes the
audit or not. -/
theorem of_auditMember_eq_ok
    (h : session.auditMember root force out progress path world = (.ok progress', next)) :
  ∃ result middle, session.auditFile path root force world = (result, middle)
    ∧ (next = middle ∧ progress'.audited = progress.audited
      ∨ ∃ audit written files, result = .ok audit
        ∧ FileAction.writeJson (artifactPath path root out) audit.toJson middle.files = (written, files)
        ∧ next = { middle with files }
        ∧ (progress'.audited = progress.audited
          ∨ written = .ok () ∧ ∃ summary : FileSummary, summary.file = Path.relativeTo path root
            ∧ progress'.audited = progress.audited ++ [summary]))
  := by
  rw [auditMember] at h
  rcases ReviewAction.of_tryCatch_eq_ok h with h | ⟨e, last, hattempt, h⟩
  · obtain ⟨audit, middle, hresult, h⟩ := ReviewAction.of_bind_eq_ok h
    refine ⟨.ok audit, middle, hresult, ?_⟩
    split_ifs at h
    · obtain ⟨rfl, rfl⟩ := ReviewAction.of_pure_eq_ok h
      exact .inl ⟨rfl, rfl⟩
    · obtain ⟨_, last, hwrite, h⟩ := ReviewAction.of_bind_eq_ok h
      obtain ⟨rfl, rfl⟩ := ReviewAction.of_pure_eq_ok h
      obtain ⟨files, hfiles, rfl⟩ := ReviewAction.of_onFiles_eq_ok hwrite
      exact .inr ⟨audit, .ok (), files, rfl, hfiles, rfl, .inr ⟨rfl, _, rfl, rfl⟩⟩
  · -- A failure that is handled leaves what was audited before.
    have hprogress : progress'.audited = progress.audited ∧ next = last := by
      split_ifs at h
      · cases congrArg Prod.fst h
      · obtain ⟨rfl, rfl⟩ := ReviewAction.of_pure_eq_ok h
        exact ⟨rfl, rfl⟩
    obtain ⟨haudited, rfl⟩ := hprogress
    rcases ReviewAction.of_bind hattempt with ⟨e', hresult, -⟩ | ⟨audit, middle, hresult, hattempt⟩
    · exact ⟨.error e', next, hresult, .inl ⟨rfl, haudited⟩⟩
    · refine ⟨.ok audit, middle, hresult, ?_⟩
      split_ifs at hattempt
      · cases congrArg Prod.fst hattempt
      · rcases ReviewAction.of_bind hattempt with ⟨e', hwrite, -⟩ | ⟨_, last, -, hreturn⟩
        · obtain ⟨written, files, hfiles, -, rfl⟩ := ReviewAction.of_onFiles hwrite
          exact .inr ⟨audit, written, files, rfl, hfiles, rfl, .inl haudited⟩
        · cases congrArg Prod.fst hreturn

section

variable {names front : List String} {name : String}

/-- The audit of one file of a project leaves the written audits of other files.  The audit of the file
itself is written if the file is counted, and if it was written before. -/
theorem isWritten_of_auditMember (hsound : world.files.Sound)
    (hbelow : IsBelow root path names front name)
    (h : session.auditMember root force out progress path world = (.ok progress', next)) :
  FileTree.Spares (otherArtifacts (world.files.namesOf (artifactPath path root out))) world.files
      next.files
    ∧ (IsWritten world.files path (artifactPath path root out) →
      IsWritten next.files path (artifactPath path root out))
    ∧ (progress'.audited = progress.audited
      ∨ ∃ summary : FileSummary, summary.file = Path.relativeTo path root
        ∧ progress'.audited = progress.audited ++ [summary]
        ∧ IsWritten next.files path (artifactPath path root out))
  := by
  have hartifact := hbelow.fileName?_artifactPath out
  have hmem := hbelow.namesOf_mem world.files out
  obtain ⟨result, middle, hresult, hcases⟩ := of_auditMember_eq_ok h
  have hspares := session.spares_auditFile (FileAudit.isApart_artifactNames session.cache) path root force
    world hsound
  rw [hresult] at hspares
  rcases hcases with ⟨rfl, haudited⟩ | ⟨audit, written, files, rfl, hwrite, rfl, haudited⟩
  · refine ⟨hspares.mono fun _ hnames => hnames.1, fun hbefore => ?_, .inl haudited⟩
    apply hbefore.of_spares hsound hspares hmem
  · have hfile := hbelow.eq_of_canonical hsound (canonical_of_auditFile_eq_ok hresult)
    obtain ⟨hold, hread⟩ := FileAction.oldOrNew_of_writeAtomic hspares.sound hartifact hwrite
    have hothers := spares_writeJson hspares.sound hartifact hwrite
    rw [hspares.namesOf_eq] at hothers
    refine ⟨(hspares.mono fun _ hnames => hnames.1).trans hothers, fun hbefore => ?_, ?_⟩
    · apply IsWritten.of_oldOrNew _ hspares.sound hfile hold
      apply hbefore.of_spares hsound hspares hmem
    · rcases haudited with haudited | ⟨hok, summary, hsummary, haudited⟩
      · left
        apply haudited
      · right
        exact ⟨summary, hsummary, haudited, audit, hfile, hread hok⟩

variable {files : List String}
  (hfiles : ∀ other ∈ files, ∃ front name, IsBelow root other names front name)

include hfiles

/-- A written audit stays while other files are audited, if theirs are written to other places. -/
theorem isWritten_of_foldlM (hsound : world.files.Sound) (hbelow : IsBelow root path names front name)
    (halone : ∀ other ∈ files, other ≠ path → ¬ SameStem other path)
    (hwritten : IsWritten world.files path (artifactPath path root out))
    (h : files.foldlM (session.auditMember root force out) progress world = (.ok progress', next)) :
  IsWritten next.files path (artifactPath path root out)
  := by
  induction files generalizing world progress with
  | nil =>
      obtain ⟨-, rfl⟩ := ReviewAction.of_pure_eq_ok h
      apply hwritten
  | cons first rest ih =>
      obtain ⟨hfirst, hrest⟩ := List.forall_mem_cons.mp hfiles
      obtain ⟨hother, halone⟩ := List.forall_mem_cons.mp halone
      rw [List.foldlM_cons] at h
      obtain ⟨later, middle, hmember, hlater⟩ := ReviewAction.of_bind_eq_ok h
      obtain ⟨front', name', hfirst⟩ := hfirst
      obtain ⟨hspares, hagain, -⟩ := isWritten_of_auditMember hsound hfirst hmember
      apply ih hrest hspares.sound halone _ hlater
      by_cases heq : first = path
      · subst heq
        apply hagain hwritten
      · apply hwritten.of_spares hsound hspares
        use hbelow.namesOf_mem _ out
        intro hnames
        apply hother heq
        apply (namesOf_artifactPath_eq_iff hfirst hbelow world.files out).mp hnames.symm

/-- The files that are counted are some of those of the project, in order.  Their audits are written, but
for those whose place another file has. -/
theorem exists_audited_of_foldlM (hsound : world.files.Sound)
    (h : files.foldlM (session.auditMember root force out) progress world = (.ok progress', next)) :
  world.files.Keeps next.files
    ∧ ∃ audited : List String, audited.Sublist files
      ∧ progress'.audited.map (·.file)
        = progress.audited.map (·.file) ++ audited.map (Path.relativeTo · root)
      ∧ ∀ path ∈ audited, (∀ other ∈ files, other ≠ path → ¬ SameStem other path) →
        IsWritten next.files path (artifactPath path root out)
  := by
  induction files generalizing world progress with
  | nil =>
      obtain ⟨rfl, rfl⟩ := ReviewAction.of_pure_eq_ok h
      exact ⟨.refl hsound, [], .slnil, (List.append_nil _).symm, fun _ hpath => by cases hpath⟩
  | cons first rest ih =>
      obtain ⟨⟨front, name, hfirst⟩, hrest⟩ := List.forall_mem_cons.mp hfiles
      rw [List.foldlM_cons] at h
      obtain ⟨later, middle, hmember, hlater⟩ := ReviewAction.of_bind_eq_ok h
      obtain ⟨hspares, -, hcounted⟩ := isWritten_of_auditMember hsound hfirst hmember
      obtain ⟨hkeeps, audited, hsublist, haudited, hwritten⟩ := ih hrest hspares.sound hlater
      use hspares.toKeeps.trans hkeeps
      rcases hcounted with hcounted | ⟨summary, hsummary, hcounted, hfirstWritten⟩
      · refine ⟨audited, hsublist.cons first, by rw [haudited, hcounted], ?_⟩
        intro path hpath halone
        apply hwritten path hpath fun other hother => halone other (List.mem_cons_of_mem _ hother)
      · refine ⟨first :: audited, hsublist.cons_cons first, ?_, ?_⟩
        · rw [haudited, hcounted, List.map_append, List.map_singleton, hsummary, List.append_assoc]
          rfl
        · intro path hpath halone
          have hothers : ∀ other ∈ rest, other ≠ path → ¬ SameStem other path :=
            fun other hother => halone other (List.mem_cons_of_mem _ hother)
          rcases List.mem_cons.mp hpath with rfl | hpath
          · apply isWritten_of_foldlM hrest hspares.sound hfirst hothers hfirstWritten hlater
          · apply hwritten path hpath hothers

end

/-! ### Projects -/

theorem existingFolder_eq (folder : String) (world : World μ) :
  existingFolder folder world
    = (match world.files.canonical folder with
        | .error e => .error (.badPath folder e.message)
        | .ok root =>
          if world.files.isFolder root then .ok root else .error (.badPath folder "not a directory"),
      world)
  := by
  have hlook : ReviewAction.look (·.canonical folder) world = (.ok (world.files.canonical folder), world) :=
    rfl
  rw [existingFolder, ReviewAction.bind_of_ok _ hlook]
  rcases world.files.canonical folder with e | root
  · rfl
  · have hok : ReviewAction.ofExcept (fun e : FileError => ReviewError.badPath folder e.message) (.ok root)
        world
        = (.ok root, world) := rfl
    have hlook : ReviewAction.look (·.isFolder root) world = (.ok (world.files.isFolder root), world) := rfl
    rw [ReviewAction.bind_of_ok _ hok, ReviewAction.bind_of_ok _ hlook]
    dsimp only
    split_ifs <;> rfl

theorem existingFolder_eq_ok_iff {folder : String} :
  existingFolder folder world = (.ok root, next)
    ↔ world = next ∧ world.files.canonical folder = .ok root ∧ world.files.isFolder root
  := by
  rw [existingFolder_eq, Prod.mk.injEq, and_comm]
  apply and_congr_right
  intro _
  rcases world.files.canonical folder with e | found
  · simp
  · dsimp only
    split_ifs with hfolder
    · constructor
      · rintro ⟨⟩
        exact ⟨rfl, hfolder⟩
      · rintro ⟨⟨⟩, -⟩
        rfl
    · simp only [false_iff]
      rintro ⟨⟨⟩, hother⟩
      apply hfolder hother

/-- A folder that cannot be found is told as a path that is of no use. -/
theorem of_existingFolder_eq_error {folder : String} {e : ReviewError}
    (h : existingFolder folder world = (.error e, next)) :
  world = next ∧ ∃ reason, e = .badPath folder reason
  := by
  rw [existingFolder_eq] at h
  obtain ⟨hresult, rfl⟩ := Prod.mk.inj h
  use rfl
  split at hresult
  · exact ⟨_, (Except.error.inj hresult).symm⟩
  · split_ifs at hresult
    exact ⟨_, (Except.error.inj hresult).symm⟩

/-- The folder of a project is a folder that exists, under the names of its absolute path. -/
theorem of_existingFolder_eq_ok (hsound : world.files.Sound) (hnamed : world.files.root.Named)
    {folder : String} (h : existingFolder folder world = (.ok root, next)) :
  world = next ∧ ∃ names entries, Sources.IsProject world.files root names entries
  := by
  obtain ⟨rfl, hcanonical, hfolder⟩ := existingFolder_eq_ok_iff.mp h
  obtain ⟨names, hresolve, hsome, rfl⟩ := FileTree.canonical_eq_ok_iff.mp hcanonical
  obtain ⟨node, hnode⟩ := Option.isSome_iff_exists.mp hsome
  obtain ⟨hnames, -⟩ := hnamed.of_at?_eq_some hnode
  use rfl
  obtain ⟨found, entries, hfound, hentries⟩ := FileTree.isFolder_iff.mp hfolder
  have hplace : world.files.namesOf ("/" ++ "/".intercalate names) = names :=
    Path.namesOf_absolute world.files hnames
  obtain rfl : found = names := by
    rw [(FileTree.of_resolve_eq_ok hsound hfound).1, hplace]
  exact ⟨found, entries, rfl, hnames, hfound, hentries⟩

/-- The folder of a project is found as long as no folder is lost. -/
theorem existingFolder_of_keeps {ν : Type} {later : World ν} (hsound : world.files.Sound)
    (hnamed : world.files.root.Named) {folder : String} (h : existingFolder folder world = (.ok root, next))
    (hkeeps : world.files.Keeps later.files) :
  existingFolder folder later = (.ok root, later)
  := by
  obtain ⟨-, names, entries, hproject⟩ := of_existingFolder_eq_ok hsound hnamed h
  obtain ⟨rfl, hcanonical, hfolder⟩ := existingFolder_eq_ok_iff.mp h
  obtain ⟨entries', hat⟩ := hkeeps.isFolderAt names ⟨entries, hproject.at?_eq⟩
  apply existingFolder_eq_ok_iff.mpr
  refine ⟨rfl, ?_, FileTree.isFolder_iff.mpr ⟨names, entries', ?_, hat⟩⟩
  · obtain ⟨found, hresolve, hsome, heq⟩ := FileTree.canonical_eq_ok_iff.mp hcanonical
    obtain ⟨node, hnode⟩ := Option.isSome_iff_exists.mp hsome
    obtain ⟨hnames, -⟩ := hnamed.of_at?_eq_some hnode
    -- Both the path of the folder and its absolute path lead to the same names.
    obtain rfl : found = names := by
      rw [← Path.namesOf_absolute world.files hnames, Path.absolute, heq, hproject.root_eq,
        Path.namesOf_absolute world.files hproject.isName]
    apply FileTree.canonical_eq_ok_iff.mpr
    exact ⟨found, FileTree.resolve_of_keeps hkeeps hresolve, Option.isSome_of_eq_some hat, heq⟩
  · apply FileTree.resolve_of_keeps hkeeps hproject.resolve_eq

theorem isBelow_of_mem_scan {tree : FileTree} {names : List String} {entries : List (String × FileNode)}
    (hsound : tree.Sound) (hnamed : tree.root.Named)
    (hproject : Sources.IsProject tree root names entries) (hpath : path ∈ Sources.scan tree root) :
  ∃ front name, IsBelow root path names front name
  := by
  obtain ⟨front, name, rfl, hrest, -, -⟩ := hproject.exists_of_mem_scan hsound hnamed hpath
  exact ⟨front, name, hproject.root_eq, rfl, List.forall_mem_append.mpr ⟨hproject.isName, hrest⟩⟩

/-- What the audit of a project does: it finds the files below the folder, audits one after the other,
and writes the summary. -/
theorem of_auditProject_eq_ok {last : World μ} {folder : String} {audit : ProjectAudit}
    (hsound : world.files.Sound) (hnamed : world.files.root.Named)
    (h : session.auditProject folder force out world = (.ok audit, last)) :
  ∃ names progress middle files,
    (∀ path ∈ Sources.scan world.files audit.folder,
      ∃ front name, IsBelow audit.folder path names front name)
    ∧ (Sources.scan world.files audit.folder).foldlM (session.auditMember audit.folder force out)
        { audited := [], failed := [], skipped := 0 } world = (.ok progress, middle)
    ∧ audit.files = progress.audited.mergeSort ProjectAudit.comesFirst
    ∧ audit.summaryPath = Path.join (out.getD audit.folder) ProjectAudit.summaryFile
    ∧ FileAction.writeJson audit.summaryPath audit.toJson middle.files = (.ok (), files)
    ∧ last = { middle with files }
  := by
  rw [auditProject] at h
  obtain ⟨root, middle, hroot, h⟩ := ReviewAction.of_bind_eq_ok h
  obtain ⟨rfl, names, entries, hproject⟩ := of_existingFolder_eq_ok hsound hnamed hroot
  obtain ⟨files, middle, hlook, h⟩ := ReviewAction.of_bind_eq_ok h
  obtain ⟨rfl, rfl⟩ := ReviewAction.of_look_eq_ok hlook
  obtain ⟨progress, middle, hrun, h⟩ := ReviewAction.of_bind_eq_ok h
  obtain ⟨_, later, hwrite, h⟩ := ReviewAction.of_bind_eq_ok h
  obtain ⟨rfl, rfl⟩ := ReviewAction.of_pure_eq_ok h
  obtain ⟨files, hfiles, rfl⟩ := ReviewAction.of_onFiles_eq_ok hwrite
  refine ⟨names, progress, middle, files, ?_, hrun, rfl, rfl, hfiles, rfl⟩
  intro path hpath
  apply isBelow_of_mem_scan hsound hnamed hproject hpath

/-- The audit of a project counts some of its files, and the audit of each of these is on disk when it has
ended, unless another file of the same folder has the same name but for its extension, or the file has
the name of the summary.  These are the files whose audits are written to the same place. -/
theorem auditProject_isWritten {last : World μ} {folder : String} {audit : ProjectAudit}
    (hsound : world.files.Sound) (hnamed : world.files.root.Named)
    (h : session.auditProject folder force out world = (.ok audit, last)) :
  let sources := Sources.scan world.files audit.folder
  let artifact := fun path => artifactPath path audit.folder out
  (∃ audited : List String, audited.Sublist sources
    ∧ (audit.files.map (·.file)).Perm (audited.map (Path.relativeTo · audit.folder))
    ∧ ∀ path ∈ audited, (∀ other ∈ sources, other ≠ path → ¬ SameStem other path) →
      ¬ HasSummaryName audit.folder path → IsWritten last.files path (artifact path))
    ∧ (∀ path ∈ sources, ∀ other ∈ sources, artifact path = artifact other ↔ SameStem path other)
    ∧ ∀ path ∈ sources, artifact path = audit.summaryPath ↔ HasSummaryName audit.folder path
  := by
  intro sources artifact
  obtain ⟨names, progress, middle, files, hbelow, hrun, hlist, hsummary, hwrite, rfl⟩ :=
    of_auditProject_eq_ok hsound hnamed h
  refine ⟨?_, ?_, ?_⟩
  · obtain ⟨hkeeps, audited, hsublist, haudited, hwritten⟩ := exists_audited_of_foldlM hbelow hsound hrun
    refine ⟨audited, hsublist, ?_, ?_⟩
    · rw [List.map_nil, List.nil_append] at haudited
      rw [← haudited, hlist]
      apply List.Perm.map
      apply List.mergeSort_perm
    · intro path hpath halone hname
      obtain ⟨front, name, hplace⟩ := hbelow path (hsublist.subset hpath)
      have hfile : Path.fileName? audit.summaryPath = some ProjectAudit.summaryFile := by
        rw [hsummary]
        apply Path.fileName?_join
        apply Path.isName_of_length <;> decide
      have hspares := spares_writeJson hkeeps.sound hfile hwrite
      apply (hwritten path hpath halone).of_spares hkeeps.sound hspares
      use hplace.namesOf_mem _ out
      rw [hsummary]
      intro hnames
      apply hname ((namesOf_artifactPath_eq_summary_iff hplace _ out).mp hnames)
  · intro path hpath other hother
    obtain ⟨front, name, hpath⟩ := hbelow path hpath
    obtain ⟨front', name', hother⟩ := hbelow other hother
    apply artifactPath_eq_iff hpath hother
  · intro path hpath
    obtain ⟨front, name, hpath⟩ := hbelow path hpath
    rw [hsummary]
    apply artifactPath_eq_summary_iff hpath

theorem named_lineTree :
  lineTree.root.Named
  := by
  apply FileNode.Named.folder
  · intro entry hentry
    obtain rfl := List.mem_singleton.mp hentry
    constructor <;> decide
  · intro entry hentry
    obtain rfl := List.mem_singleton.mp hentry
    apply FileNode.Named.file

/-- A session whose model never gives a usable reply. -/
def muteSession : Session Unit :=
  { quietSession with model := fun state _ => (.ok "", state) }

/-- The only file of a project is audited, and its audit is on disk. -/
theorem auditProject_isWritten_lineTree :
  ∃ audit last, muteSession.auditProject "/" false none (quietWorld lineTree) = (.ok audit, last)
    ∧ audit.files.map (·.file) = ["a.py"] ∧ IsWritten last.files "/a.py" "/a_audit.json"
  := by
  have hrun : (muteSession.auditProject "/" false none (quietWorld lineTree)).1.toOption.map
      (fun audit => (audit.folder, audit.files.map (·.file))) = some ("/", ["a.py"]) := by
    decide +kernel
  have hscan : Sources.scan lineTree "/" = ["/a.py"] := by
    decide +kernel
  generalize haudited : muteSession.auditProject "/" false none (quietWorld lineTree) = audited at hrun
  obtain ⟨result, last⟩ := audited
  obtain ⟨audit, hresult, hpair⟩ := Option.map_eq_some_iff.mp hrun
  obtain ⟨hfolder, hfiles⟩ := Prod.mk.inj hpair
  have hok : result = .ok audit := by
    cases result with
    | error e => cases hresult
    | ok found => exact congrArg Except.ok (Option.some.inj hresult)
  rw [hok] at haudited
  obtain ⟨⟨counted, hsublist, hperm, hwritten⟩, -, -⟩ :=
    auditProject_isWritten (sound_lineTree : (quietWorld lineTree).files.Sound) named_lineTree haudited
  have hsources : Sources.scan (quietWorld lineTree).files audit.folder = ["/a.py"] := by
    rw [hfolder]
    apply hscan
  rw [hsources] at hsublist hwritten
  rw [hfolder, hfiles] at hperm
  -- One file is counted, so it is the only one that there is.
  have hcounted : counted = ["/a.py"] := by
    apply hsublist.eq_of_length
    have hlength := hperm.length_eq
    rw [List.length_map] at hlength
    rw [← hlength]
    rfl
  refine ⟨audit, last, by rw [hok], hfiles, ?_⟩
  rw [hcounted, hfolder] at hwritten
  apply hwritten "/a.py" (List.mem_singleton_self _)
  · intro other hother hne
    cases hne (List.mem_singleton.mp hother)
  · rintro ⟨-, hstem⟩
    revert hstem
    decide

/-- A project with two files whose names differ by their extensions only. -/
def twinTree : FileTree where
  root := .folder [("a.js", .file (Text.bytesOf "let y = 2;\n")), ("a.py", .file (Text.bytesOf "x = 1\n"))]
  here := []

/-- The audits of two files of one project are written to the same place. -/
theorem not_injective_artifactPath :
  ∃ path ∈ Sources.scan twinTree "/", ∃ other ∈ Sources.scan twinTree "/", path ≠ other
    ∧ artifactPath path "/" none = artifactPath other "/" none
  := by
  have hmem : ∀ name ∈ ["a.js", "a.py"], Path.join "/" ("/".intercalate [name])
      ∈ Sources.scan twinTree "/" := by
    intro name hname
    have hresolve : twinTree.resolve "/" = .ok [] := by decide +kernel
    have hfound : ∀ name ∈ ["a.js", "a.py"], ∃ size ∈ [11, 6],
        ([name], size) ∈ Sources.walk (Sources.layersAbove twinTree []) [] twinTree.root
        ∧ Sources.isSource [name] ∧ size ≤ Sources.maxBytes
        ∧ (Sources.ignoreList twinTree "/").ignores
          (Path.relativeTo (Path.join "/" ("/".intercalate [name])) "/") = false := by
      decide +kernel
    obtain ⟨size, -, hwalk, hsource, hsize, hpasses⟩ := hfound name hname
    apply Sources.mem_scan hresolve rfl (List.cons_ne_nil _ _) hwalk hsource hsize hpasses
  refine ⟨_, hmem "a.js" (by decide), _, hmem "a.py" (by decide), ?_, ?_⟩
  · decide
  · decide

end Session

end Scrutiny
