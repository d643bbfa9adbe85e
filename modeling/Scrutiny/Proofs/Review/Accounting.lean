import Scrutiny.Proofs.Review.Project
import Scrutiny.Proofs.Review.Runs
import Scrutiny.Proofs.Scan.Walk

/-!
# The accounts of a project

The audit of a source file of a project comes to its end in one of five ways.  The summary of the project
counts each of its files once, by the way in which its audit has ended; an audit that ends the run leaves
the files after it alone, and there is no summary.
-/

namespace Scrutiny

variable {μ : Type}

/-! ### Ways to an end -/

/-- What becomes of a source file of a project. -/
inductive AuditExit where
  /-- Its audit ends the run. -/
  | fatal (cause : ReviewError)
  /-- It cannot be audited, or its audit cannot be written. -/
  | failed (reason : String)
  /-- It has no chunks. -/
  | empty
  /-- Its audit is written. -/
  | audited (audit : FileAudit)
  deriving DecidableEq, Repr

namespace AuditExit

/-- The audit that is written. -/
def audit? : AuditExit → Option FileAudit
  | .audited audit => some audit
  | _ => none

/-- What a summary says of a file whose audit is written. -/
def summary? (file : String) (exit : AuditExit) : Option FileSummary :=
  exit.audit?.map fun audit =>
    { file, totalIssues := audit.totalIssues, highSeverity := audit.highSeverity }

/-- What a summary says of a file that failed. -/
def failure? (file : String) : AuditExit → Option FailedFile
  | .failed reason => some { file, reason }
  | _ => none

/-- Whether the file has no chunks. -/
def isEmpty : AuditExit → Bool
  | .empty => true
  | _ => false

/-- Whether the run ends. -/
def isFatal : AuditExit → Bool
  | .fatal _ => true
  | _ => false

end AuditExit

/-- The progress that counts the files of a list, each by what became of it. -/
def AuditProgress.count (progress : AuditProgress) (root : String) (members : List (String × AuditExit)) :
    AuditProgress where
  audited := progress.audited
    ++ members.filterMap fun (path, exit) => exit.summary? (Path.relativeTo path root)
  failed := progress.failed
    ++ members.filterMap fun (path, exit) => exit.failure? (Path.relativeTo path root)
  skipped := progress.skipped + members.countP (·.2.isEmpty)

theorem AuditProgress.count_nil (progress : AuditProgress) (root : String) :
  progress.count root [] = progress
  := by
  simp [count]

theorem AuditProgress.count_append (progress : AuditProgress) (root : String)
    (members others : List (String × AuditExit)) :
  progress.count root (members ++ others) = (progress.count root members).count root others
  := by
  simp [count, Nat.add_assoc]

/-- The progress before any file is counted. -/
def AuditProgress.none : AuditProgress :=
  { audited := [], failed := [], skipped := 0 }

section

variable {root : String} {members : List (String × AuditExit)}

/-- Each file is counted once: as audited, as failed, or as one without chunks. -/
theorem perm_count_none (root : String) (hgoes : ∀ member ∈ members, member.2.isFatal = false) :
  let progress := AuditProgress.none.count root members
  (progress.audited.map (·.file) ++ progress.failed.map (·.file)
      ++ (members.filter (·.2.isEmpty)).map fun member => Path.relativeTo member.1 root).Perm
    (members.map fun member => Path.relativeTo member.1 root)
  := by
  induction members with
  | nil => apply List.Perm.nil
  | cons member members ih =>
      obtain ⟨path, exit⟩ := member
      obtain ⟨hgoes, hothers⟩ := List.forall_mem_cons.mp hgoes
      have ih := ih hothers
      simp only [AuditProgress.count, AuditProgress.none, List.nil_append] at ih ⊢
      -- The file is in one of the three lists, and in no other one.
      cases exit with
      | fatal e => cases hgoes
      | failed reason =>
          apply List.Perm.trans _ (ih.cons _)
          exact List.perm_middle.append_right _
      | empty =>
          apply List.Perm.trans _ (ih.cons _)
          exact List.perm_middle
      | audited audit => apply ih.cons

theorem total_filterMap_summary? (count : FileSummary → Nat) (count' : FileAudit → Nat)
    (hcount : ∀ file audit, count ⟨file, audit.totalIssues, audit.highSeverity⟩ = count' audit) :
  total count (members.filterMap fun (path, exit) => exit.summary? (Path.relativeTo path root))
    = total count' (members.filterMap (·.2.audit?))
  := by
  induction members with
  | nil => rfl
  | cons member members ih =>
      obtain ⟨path, exit⟩ := member
      cases exit with
      | audited audit =>
          change count _ + total count _ = count' audit + total count' _
          rw [ih, hcount]
      | _ => apply ih

end

/-! ### What a summary tells -/

namespace ProjectAudit

theorem pairwise_comesFirst (summaries : List FileSummary) :
  (summaries.mergeSort comesFirst).Pairwise fun a b =>
    b.totalIssues < a.totalIssues ∨ a.totalIssues = b.totalIssues ∧ a.file ≤ b.file
  := by
  have hsorted : (summaries.mergeSort comesFirst).Pairwise fun a b => comesFirst a b = true := by
    apply List.pairwise_mergeSort
    · intro a b c hab hbc
      simp only [comesFirst, Bool.or_eq_true, Bool.and_eq_true, decide_eq_true_eq, beq_iff_eq] at *
      rcases hab with hab | ⟨hab, hfile⟩
      · left
        omega
      · rcases hbc with hbc | ⟨hbc, hfile'⟩
        · left
          omega
        · right
          exact ⟨hab.trans hbc, hfile.trans hfile'⟩
    · intro a b
      simp only [comesFirst, Bool.or_eq_true, Bool.and_eq_true, decide_eq_true_eq, beq_iff_eq]
      rcases Nat.lt_trichotomy a.totalIssues b.totalIssues with hlt | heq | hlt
      · exact .inr (.inl hlt)
      · rcases le_total a.file b.file with hle | hle
        · exact .inl (.inr ⟨heq, hle⟩)
        · exact .inr (.inr ⟨heq.symm, hle⟩)
      · exact .inl (.inl hlt)
  apply hsorted.imp
  intro a b hab
  simpa [comesFirst] using hab

/-- A summary tells what became of the source files of a project: each of them is counted once, as it is
seen from the project. -/
structure Accounts (audit : ProjectAudit) (members : List (String × AuditExit)) : Prop where
  /-- All files are counted. -/
  totalFiles_eq : audit.totalFiles = members.length
  /-- The numbers of files that were audited, that have no chunks, and that failed. -/
  counted_eq : audit.totalFiles = audit.files.length + audit.skipped + audit.failed.length
  /-- Each file is in one of three lists. -/
  perm : (audit.files.map (·.file) ++ audit.failed.map (·.file)
      ++ (members.filter (·.2.isEmpty)).map fun member => Path.relativeTo member.1 audit.folder).Perm
    (members.map fun member => Path.relativeTo member.1 audit.folder)
  /-- The files are different ones. -/
  nodup : (audit.files.map (·.file) ++ audit.failed.map (·.file)).Nodup
  /-- The files that were audited. -/
  files_perm : audit.files.Perm
    (members.filterMap fun (path, exit) => exit.summary? (Path.relativeTo path audit.folder))
  /-- The files that failed. -/
  failed_eq : audit.failed
    = members.filterMap fun (path, exit) => exit.failure? (Path.relativeTo path audit.folder)
  /-- The number of issues is that of all audits. -/
  totalIssues_eq : audit.totalIssues = total FileAudit.totalIssues (members.filterMap (·.2.audit?))
  /-- So is the number of issues of high severity. -/
  highSeverity_eq : audit.highSeverity = total FileAudit.highSeverity (members.filterMap (·.2.audit?))
  /-- The files with the most issues come first, and those with as many issues by their names. -/
  sorted : audit.files.Pairwise fun a b =>
    b.totalIssues < a.totalIssues ∨ a.totalIssues = b.totalIssues ∧ a.file < b.file

/-- The summary that counts the source files of a project, each by what became of it. -/
def ofMembers (folder : String) (out : Option String) (members : List (String × AuditExit)) : ProjectAudit :=
  ofProgress folder members.length out (AuditProgress.none.count folder members)

theorem accounts_ofMembers {folder : String} (out : Option String) {members : List (String × AuditExit)}
    (hgoes : ∀ member ∈ members, member.2.isFatal = false)
    (hnodup : (members.map fun member => Path.relativeTo member.1 folder).Nodup) :
  (ofMembers folder out members).Accounts members
  := by
  have hperm := perm_count_none folder hgoes
  have hsort := List.mergeSort_perm (AuditProgress.none.count folder members).audited comesFirst
  have hfiles := ((hsort.map (·.file)).append_right _).append_right _ |>.trans hperm
  have hall := (hfiles.nodup_iff).mpr hnodup
  have hnames := (List.nodup_append.mp hall).1
  have hsummaries (count : FileSummary → Nat) (count' : FileAudit → Nat)
      (hcount : ∀ file audit, count ⟨file, audit.totalIssues, audit.highSeverity⟩ = count' audit) :
      total count ((AuditProgress.none.count folder members).audited.mergeSort comesFirst)
        = total count' (members.filterMap (·.2.audit?)) := by
    rw [total_eq_of_perm _ hsort, AuditProgress.count, AuditProgress.none, List.nil_append]
    apply total_filterMap_summary? count count' hcount
  constructor
  · rfl
  · have hlength := hfiles.length_eq
    simp only [List.length_append, List.length_map] at hlength
    rw [← List.countP_eq_length_filter] at hlength
    change members.length
      = ((AuditProgress.none.count folder members).audited.mergeSort comesFirst).length
        + (0 + members.countP (·.2.isEmpty)) + (AuditProgress.none.count folder members).failed.length
    omega
  · apply hfiles
  · apply hnames
  · apply hsort
  · rfl
  · apply hsummaries _ _ fun _ _ => rfl
  · apply hsummaries _ _ fun _ _ => rfl
  · -- Different files with as many issues have different names.
    have hdistinct := List.pairwise_map.mp (List.nodup_append.mp hnames).1
    apply ((pairwise_comesFirst _).and hdistinct).imp
    rintro a b ⟨hlt | ⟨heq, hle⟩, hne⟩
    · left
      apply hlt
    · right
      exact ⟨heq, lt_of_le_of_ne hle hne⟩

end ProjectAudit

namespace Session

open OrderedAction FileAudit

variable (session : Session μ) (root : String) (force : Bool) (out : Option String)

/-- A source file of a project is audited and its audit is written, and this ends in some way. -/
inductive Exits : RunState μ → String → AuditExit → RunState μ → Prop where
  /-- The audit ends the run. -/
  | fatal {world next : World μ} {order : List Nat} {rest : List (List Nat)} {path : String}
    {e : ReviewError} (haudit : session.auditFileBy? path root force order world = some (.error e, next))
    (hfatal : e.isFatal = true) :
    Exits (world, order :: rest) path (.fatal e) (next, rest)
  /-- The audit fails, and the run goes on. -/
  | failed {world next : World μ} {order : List Nat} {rest : List (List Nat)} {path : String}
    {e : ReviewError} (haudit : session.auditFileBy? path root force order world = some (.error e, next))
    (hfatal : e.isFatal = false) :
    Exits (world, order :: rest) path (.failed e.message) (next, rest)
  /-- There are no chunks. -/
  | empty {world next : World μ} {order : List Nat} {rest : List (List Nat)} {path : String}
    {audit : FileAudit} (haudit : session.auditFileBy? path root force order world = some (.ok audit, next))
    (hempty : audit.isEmpty = true) :
    Exits (world, order :: rest) path .empty (next, rest)
  /-- The audit cannot be written. -/
  | unwritten {world middle next : World μ} {order : List Nat} {rest : List (List Nat)} {path : String}
    {audit : FileAudit} {e : ReviewError}
    (haudit : session.auditFileBy? path root force order world = some (.ok audit, middle))
    (hempty : audit.isEmpty = false)
    (hwrite : audit.write (artifactPath path root out) middle = (.error e, next)) :
    Exits (world, order :: rest) path (.failed e.message) (next, rest)
  /-- The audit is written. -/
  | audited {world middle next : World μ} {order : List Nat} {rest : List (List Nat)} {path : String}
    {audit : FileAudit}
    (haudit : session.auditFileBy? path root force order world = some (.ok audit, middle))
    (hempty : audit.isEmpty = false)
    (hwrite : audit.write (artifactPath path root out) middle = (.ok (), next)) :
    Exits (world, order :: rest) path (.audited audit) (next, rest)

/-- Files of a project are audited one after the other, and none of them ends the run. -/
inductive Works : RunState μ → List (String × AuditExit) → RunState μ → Prop where
  /-- There are no files. -/
  | nil {state : RunState μ} : Works state [] state
  /-- One file comes before the others. -/
  | cons {state middle last : RunState μ} {path : String} {exit : AuditExit}
    {members : List (String × AuditExit)} (hexit : Exits session root force out state path exit middle)
    (hgoes : exit.isFatal = false) (hworks : Works middle members last) :
    Works state ((path, exit) :: members) last

variable {session root force out} {state next last : RunState μ} {path : String} {exit : AuditExit}
  {members : List (String × AuditExit)} {progress : AuditProgress} {e : ReviewError}
  {result : Except ReviewError AuditProgress}

/-! ### What a run does -/

theorem isFatal_of_write_eq_error {audit : FileAudit} {path : String} {world later : World μ}
    (h : audit.write path world = (.error e, later)) :
  e.isFatal = false
  := by
  obtain ⟨found, files, -, hfound, -⟩ := ReviewAction.of_onFiles h
  cases found with
  | error cause =>
      rw [← Except.error.inj hfound]
      rfl
  | ok a => cases hfound

/-- What a run makes of a file, by what becomes of it. -/
def resultOf (root path : String) (progress : AuditProgress) : AuditExit → Except ReviewError AuditProgress
  | .fatal e => .error e
  | exit => .ok (progress.count root [(path, exit)])

theorem resultOf_failed (reason : String) :
  resultOf root path progress (.failed reason)
    = .ok { progress with failed := progress.failed ++ [⟨Path.relativeTo path root, reason⟩] }
  := by
  simp [resultOf, AuditProgress.count, AuditExit.summary?, AuditExit.audit?, AuditExit.failure?,
    AuditExit.isEmpty]

theorem resultOf_empty :
  resultOf root path progress .empty = .ok { progress with skipped := progress.skipped + 1 }
  := by
  simp [resultOf, AuditProgress.count, AuditExit.summary?, AuditExit.audit?, AuditExit.failure?,
    AuditExit.isEmpty]

theorem resultOf_audited (audit : FileAudit) :
  resultOf root path progress (.audited audit)
    = .ok { progress with
        audited := progress.audited
          ++ [⟨Path.relativeTo path root, audit.totalIssues, audit.highSeverity⟩] }
  := by
  simp [resultOf, AuditProgress.count, AuditExit.summary?, AuditExit.audit?, AuditExit.failure?,
    AuditExit.isEmpty]

theorem auditMemberInOrder_of_exits (progress : AuditProgress)
    (h : Exits session root force out state path exit next) :
  session.auditMemberInOrder root force out progress path state
    = some (resultOf root path progress exit, next)
  := by
  rw [auditMemberInOrder]
  cases h with
  | fatal haudit hfatal =>
      rw [tryCatch_of_error _ (bind_of_error _ (group_of_eq_some haudit _)), if_pos hfatal]
      rfl
  | failed haudit hfatal =>
      rw [tryCatch_of_error _ (bind_of_error _ (group_of_eq_some haudit _)), hfatal, resultOf_failed]
      rfl
  | empty haudit hempty =>
      rw [resultOf_empty]
      apply tryCatch_of_ok
      rw [bind_of_ok _ (group_of_eq_some haudit _), if_pos hempty]
      rfl
  | unwritten haudit hempty hwrite =>
      rw [resultOf_failed, tryCatch_of_error]
      · rw [isFatal_of_write_eq_error hwrite]
        rfl
      · rw [bind_of_ok _ (group_of_eq_some haudit _), hempty, if_neg Bool.false_ne_true]
        apply bind_of_error _ (lift_of_eq hwrite _)
  | audited haudit hempty hwrite =>
      rw [resultOf_audited]
      apply tryCatch_of_ok
      rw [bind_of_ok _ (group_of_eq_some haudit _), hempty, if_neg Bool.false_ne_true,
        bind_of_ok _ (lift_of_eq hwrite _)]
      rfl

/-- An audit that comes to an end comes to one of the five. -/
theorem exists_exits {world middle : World μ} {order : List Nat} {found : Except ReviewError FileAudit}
    (h : session.auditFileBy? path root force order world = some (found, middle)) (rest : List (List Nat)) :
  ∃ exit next, Exits session root force out (world, order :: rest) path exit next
  := by
  rcases found with e | audit
  · cases hfatal : e.isFatal with
    | true => exact ⟨_, _, .fatal h hfatal⟩
    | false => exact ⟨_, _, .failed h hfatal⟩
  · cases hempty : audit.isEmpty with
    | true => exact ⟨_, _, .empty h hempty⟩
    | false =>
        rcases hwrite : (audit.write (artifactPath path root out) : ReviewAction μ Unit) middle
          with ⟨e | ⟨⟩, last⟩
        · exact ⟨_, _, .unwritten h hempty hwrite⟩
        · exact ⟨_, _, .audited h hempty hwrite⟩

/-- One file of a project is audited, and its audit is written. -/
theorem auditMemberInOrder_eq_some_iff :
  session.auditMemberInOrder root force out progress path state = some (result, next)
    ↔ ∃ exit, Exits session root force out state path exit next ∧ result = resultOf root path progress exit
  := by
  constructor
  · intro h
    have hgroup : ∃ found middle,
        group (session.auditFileBy? path root force) state = some (found, middle) := by
      rw [auditMemberInOrder, tryCatch_eq, bind_eq] at h
      obtain ⟨_, hattempt, -⟩ := Option.bind_eq_some_iff.mp h
      obtain ⟨⟨found, middle⟩, hgroup, -⟩ := Option.bind_eq_some_iff.mp hattempt
      exact ⟨found, middle, hgroup⟩
    obtain ⟨found, middle, hgroup⟩ := hgroup
    obtain ⟨order, horders, haudit⟩ := of_group hgroup
    obtain ⟨world, orders⟩ := state
    obtain rfl := horders
    obtain ⟨exit, last, hexit⟩ := exists_exits haudit middle.2
    rw [auditMemberInOrder_of_exits progress hexit] at h
    obtain ⟨rfl, rfl⟩ := Prod.mk.inj (Option.some.inj h)
    exact ⟨exit, hexit, rfl⟩
  · rintro ⟨exit, hexit, rfl⟩
    apply auditMemberInOrder_of_exits progress hexit

theorem resultOf_of_not_isFatal (hgoes : exit.isFatal = false) :
  resultOf root path progress exit = .ok (progress.count root [(path, exit)])
  := by
  cases exit with
  | fatal e => cases hgoes
  | _ => rfl

theorem foldlM_of_works (h : Works session root force out state members next) :
  (members.map (·.1)).foldlM (session.auditMemberInOrder root force out) progress state
    = some (.ok (progress.count root members), next)
  := by
  induction h generalizing progress with
  | nil =>
      rw [AuditProgress.count_nil]
      rfl
  | @cons state middle last path exit members hexit hgoes hworks ih =>
      have hmember := auditMemberInOrder_of_exits progress hexit
      rw [resultOf_of_not_isFatal hgoes] at hmember
      rw [List.map_cons, List.foldlM_cons, bind_of_ok _ hmember, ih, ← AuditProgress.count_append]
      rfl

/-- A run over files comes to the end of the list, or to a file whose audit ends it. -/
theorem of_foldlM {files : List String}
    (h : files.foldlM (session.auditMemberInOrder root force out) progress state = some (result, next)) :
  (∃ members, files = members.map (·.1) ∧ Works session root force out state members next
      ∧ result = .ok (progress.count root members))
    ∨ ∃ members path back e middle, files = members.map (·.1) ++ path :: back
      ∧ Works session root force out state members middle
      ∧ Exits session root force out middle path (.fatal e) next ∧ result = .error e
  := by
  induction files generalizing state progress with
  | nil =>
      obtain ⟨rfl, rfl⟩ := of_pure h
      left
      exact ⟨[], rfl, .nil, by rw [AuditProgress.count_nil]⟩
  | cons first rest ih =>
      rw [List.foldlM_cons] at h
      rcases of_bind h with ⟨e, hmember, rfl⟩ | ⟨progress', middle, hmember, h⟩
      · obtain ⟨exit, hexit, hresult⟩ := auditMemberInOrder_eq_some_iff.mp hmember
        right
        cases exit with
        | fatal e' =>
            obtain rfl := Except.error.inj hresult
            exact ⟨[], first, rest, e, state, rfl, .nil, hexit, rfl⟩
        | _ => cases hresult
      · obtain ⟨exit, hexit, hresult⟩ := auditMemberInOrder_eq_some_iff.mp hmember
        have hgoes : exit.isFatal = false := by
          cases exit with
          | fatal e => cases hresult
          | _ => rfl
        rw [resultOf_of_not_isFatal hgoes] at hresult
        obtain rfl := Except.ok.inj hresult
        rcases ih h with
            ⟨members, rfl, hworks, rfl⟩
          | ⟨members, path, back, e, last, rfl, hworks, hfatal, rfl⟩
        · left
          refine ⟨(first, exit) :: members, rfl, .cons hexit hgoes hworks, ?_⟩
          rw [← AuditProgress.count_append]
          rfl
        · right
          exact ⟨(first, exit) :: members, path, back, e, last, rfl, .cons hexit hgoes hworks, hfatal, rfl⟩

/-- A file whose audit ends the run ends it, whatever files come after it. -/
theorem foldlM_of_fatal (h : Works session root force out state members next)
    (hfatal : Exits session root force out next path (.fatal e) last) (back : List String) :
  (members.map (·.1) ++ path :: back).foldlM (session.auditMemberInOrder root force out) progress state
    = some (.error e, last)
  := by
  rw [List.foldlM_append, bind_of_ok _ (foldlM_of_works h), List.foldlM_cons]
  apply bind_of_error _ (auditMemberInOrder_of_exits _ hfatal)

theorem not_isFatal_of_works (h : Works session root force out state members next) :
  ∀ member ∈ members, member.2.isFatal = false
  := by
  induction h with
  | nil => exact fun _ hmember => absurd hmember List.not_mem_nil
  | cons hexit hgoes hworks ih => exact List.forall_mem_cons.mpr ⟨hgoes, ih⟩

/-! ### Which files are written -/

/-- The names of files that audits are written to, but for those of some source files. -/
def artifactsBeside (tree : FileTree) (root : String) (out : Option String) (paths : List String) :
    Set (List String) :=
  {names | names ∈ artifactNames ∧ ∀ path ∈ paths, names ≠ tree.namesOf (artifactPath path root out)}

section

variable {names : List String} {entries : List (String × FileNode)} (hsound : state.1.files.Sound)

include hsound

theorem spares_of_auditExit {front : List String} {name : String}
    (hbelow : IsBelow root path names front name)
    (h : Exits session root force out state path exit next) :
  FileTree.Spares (otherArtifacts (state.1.files.namesOf (artifactPath path root out))) state.1.files
    next.1.files
  := by
  have hapart := isApart_artifactNames session.cache
  have hwritten {world middle later : World μ} {order : List Nat} {audit : FileAudit}
      {result : Except ReviewError Unit} (hsound : world.files.Sound)
      (haudit : session.auditFileBy? path root force order world = some (.ok audit, middle))
      (hwrite : audit.write (artifactPath path root out) middle = (result, later)) :
      FileTree.Spares (otherArtifacts (world.files.namesOf (artifactPath path root out))) world.files
        later.files := by
    have hspares := spares_of_auditFileBy? hapart hsound haudit
    obtain ⟨found, files, hfiles, -, rfl⟩ := ReviewAction.of_onFiles hwrite
    have hothers := spares_writeJson hspares.sound (hbelow.fileName?_artifactPath out) hfiles
    rw [hspares.namesOf_eq] at hothers
    apply (hspares.mono fun _ hnames => hnames.1).trans hothers
  have hunwritten {world later : World μ} {order : List Nat} {found : Except ReviewError FileAudit}
      (hsound : world.files.Sound)
      (haudit : session.auditFileBy? path root force order world = some (found, later)) :
      FileTree.Spares (otherArtifacts (world.files.namesOf (artifactPath path root out))) world.files
        later.files :=
    (spares_of_auditFileBy? hapart hsound haudit).mono fun _ hnames => hnames.1
  cases h with
  | fatal haudit _ => apply hunwritten hsound haudit
  | failed haudit _ => apply hunwritten hsound haudit
  | empty haudit _ => apply hunwritten hsound haudit
  | unwritten haudit _ hwrite => apply hwritten hsound haudit hwrite
  | audited haudit _ hwrite => apply hwritten hsound haudit hwrite

/-- An audit that ends the run writes no audit. -/
theorem spares_of_fatal (h : Exits session root force out state path (.fatal e) next) :
  FileTree.Spares artifactNames state.1.files next.1.files
  := by
  cases h with
  | fatal haudit _ => apply spares_of_auditFileBy? (isApart_artifactNames session.cache) hsound haudit

/-- A run over files writes no audits but theirs. -/
theorem spares_of_works (hbelow : ∀ member ∈ members, ∃ front name, IsBelow root member.1 names front name)
    (h : Works session root force out state members next) :
  FileTree.Spares (artifactsBeside state.1.files root out (members.map (·.1))) state.1.files next.1.files
  := by
  induction h with
  | nil => apply FileTree.Spares.refl hsound
  | cons hexit hgoes hworks ih =>
      obtain ⟨⟨front, name, hfirst⟩, hothers⟩ := List.forall_mem_cons.mp hbelow
      have hspares := spares_of_auditExit hsound hfirst hexit
      have hlater := ih hspares.sound hothers
      rw [List.map_cons]
      apply (hspares.mono _).trans (hlater.mono _)
      · rintro place ⟨hplace, hne⟩
        exact ⟨hplace, hne _ List.mem_cons_self⟩
      · rintro place ⟨hplace, hne⟩
        use hplace
        intro other hother
        rw [hspares.namesOf_eq]
        apply hne other (List.mem_cons_of_mem _ hother)

end

/-! ### Projects -/

theorem isBelow_of_scan_eq {tree : FileTree} {names : List String} {entries : List (String × FileNode)}
    (hsound : tree.Sound) (hnamed : tree.root.Named)
    (hproject : Sources.IsProject tree root names entries) {back : List String}
    (hfiles : Sources.scan tree root = members.map (·.1) ++ back) :
  ∀ member ∈ members, ∃ front name, IsBelow root member.1 names front name
  := by
  intro member hmember
  apply isBelow_of_mem_scan hsound hnamed hproject
  rw [hfiles]
  apply List.mem_append_left _ (List.mem_map_of_mem hmember)

theorem summaryPlace_mem_artifactNames (tree : FileTree) (folder : String) :
  tree.namesOf (Path.join folder ProjectAudit.summaryFile) ∈ artifactNames
  := by
  rw [namesOf_summaryPath]
  exact ⟨_, "_summary", rfl⟩

/-- The audit of a project ends without a folder, at a file whose audit ends the run, or with a summary
that is written or not. -/
theorem of_auditProjectInOrder {folder : String} {result : Except ReviewError ProjectAudit}
    (hsound : state.1.files.Sound) (hnamed : state.1.files.root.Named)
    (h : session.auditProjectInOrder folder force out state = some (result, last)) :
  (∃ e, existingFolder folder state.1 = (.error e, last.1) ∧ result = .error e)
    ∨ ∃ root names entries, existingFolder folder state.1 = (.ok root, state.1)
      ∧ Sources.IsProject state.1.files root names entries
      ∧ ((∃ members path back e middle,
          Sources.scan state.1.files root = members.map (·.1) ++ path :: back
          ∧ Works session root force out state members middle
          ∧ Exits session root force out middle path (.fatal e) last ∧ result = .error e)
        ∨ ∃ members middle written files, Sources.scan state.1.files root = members.map (·.1)
          ∧ Works session root force out state members middle
          ∧ FileAction.writeJson (ProjectAudit.ofMembers root out members).summaryPath
              (ProjectAudit.ofMembers root out members).toJson middle.1.files = (written, files)
          ∧ last.1 = { middle.1 with files }
          ∧ result = (written.mapError ReviewAction.cacheFailure).map
              fun _ => ProjectAudit.ofMembers root out members)
  := by
  rw [auditProjectInOrder] at h
  rcases of_bind h with ⟨e, hroot, rfl⟩ | ⟨root, start, hroot, h⟩
  · left
    exact ⟨e, (of_lift hroot).1, rfl⟩
  right
  obtain ⟨hroot, horders⟩ := of_lift hroot
  obtain ⟨heq, names, entries, hproject⟩ := of_existingFolder_eq_ok hsound hnamed hroot
  obtain rfl : state = start := Prod.ext heq horders
  refine ⟨root, names, entries, hroot, hproject, ?_⟩
  rw [look_bind] at h
  rcases of_bind h with ⟨e, hrun, rfl⟩ | ⟨progress, middle, hrun, h⟩
  · rcases of_foldlM hrun with ⟨_, -, -, hresult⟩ | ⟨members, path, back, e', middle, hfiles, hrest⟩
    · cases hresult
    · obtain ⟨hworks, hfatal, hresult⟩ := hrest
      obtain rfl := Except.error.inj hresult
      left
      exact ⟨members, path, back, e, middle, hfiles, hworks, hfatal, rfl⟩
  · rcases of_foldlM hrun with ⟨members, hfiles, hworks, hresult⟩ | ⟨_, _, _, _, _, -, -, -, hresult⟩
    · obtain rfl := Except.ok.inj hresult
      right
      have hlength : (Sources.scan state.1.files root).length = members.length := by
        rw [hfiles, List.length_map]
      rw [hlength] at h
      change (lift _ >>= fun _ => pure (ProjectAudit.ofMembers root out members)) middle = _ at h
      rcases of_bind h with ⟨e, hwrite, rfl⟩ | ⟨_, written, hwrite, h⟩
      · obtain ⟨found, files, hfound, heq, hlast⟩ := ReviewAction.of_onFiles (of_lift hwrite).1
        refine ⟨members, middle, found, files, hfiles, hworks, hfound, hlast, ?_⟩
        rw [heq]
        rfl
      · obtain ⟨rfl, rfl⟩ := of_pure h
        obtain ⟨found, files, hfound, heq, hlast⟩ := ReviewAction.of_onFiles (of_lift hwrite).1
        refine ⟨members, middle, found, files, hfiles, hworks, hfound, hlast, ?_⟩
        rw [heq]
        rfl
    · cases hresult

/-- The summary of a project counts each of its source files once, by the way in which its audit has
ended, and is on disk when the run has succeeded.  If the audit of a file ends the run, then the run ends
with its error: no file after it is audited, no summary is written, and no audits but those of the files
before it. -/
theorem auditProjectInOrder_accounts {folder : String} {result : Except ReviewError ProjectAudit}
    (hsound : state.1.files.Sound) (hnamed : state.1.files.root.Named)
    (h : session.auditProjectInOrder folder force out state = some (result, last)) :
  (∀ audit, result = .ok audit → ∃ members middle,
      Sources.scan state.1.files audit.folder = members.map (·.1)
      ∧ Works session audit.folder force out state members middle
      ∧ audit.Accounts members
      ∧ last.1.files.read audit.summaryPath = .ok (Text.bytesOf audit.toJson.pretty))
    ∧ ∀ root members path back middle e next, existingFolder folder state.1 = (.ok root, state.1) →
      Sources.scan state.1.files root = members.map (·.1) ++ path :: back →
      Works session root force out state members middle →
      Exits session root force out middle path (.fatal e) next →
      result = .error e ∧ last = next
        ∧ FileTree.Spares artifactNames middle.1.files last.1.files
        ∧ FileTree.Spares (artifactsBeside state.1.files root out (members.map (·.1))) state.1.files
            last.1.files
        ∧ ((∀ member ∈ members, ¬ HasSummaryName root member.1) →
          let summary := state.1.files.namesOf (Path.join (out.getD root) ProjectAudit.summaryFile)
          last.1.files.file? summary = state.1.files.file? summary)
  := by
  constructor
  · rintro audit rfl
    rcases of_auditProjectInOrder hsound hnamed h with
        ⟨e, -, hresult⟩
      | ⟨root, names, entries, -, hproject, h⟩
    · cases hresult
    rcases h with ⟨_, _, _, _, _, -, -, -, hresult⟩ | ⟨members, middle, written, files, hfiles, hrest⟩
    · cases hresult
    obtain ⟨hworks, hwrite, hlast, hresult⟩ := hrest
    cases written with
    | error e => cases hresult
    | ok u =>
        obtain rfl := Except.ok.inj hresult
        refine ⟨members, middle, hfiles, hworks, ?_, ?_⟩
        · apply ProjectAudit.accounts_ofMembers out (not_isFatal_of_works hworks)
          have hnodup := hproject.nodup_scan hsound hnamed
          rw [hfiles, List.map_map] at hnodup
          apply hnodup
        · have hbelow := isBelow_of_scan_eq hsound hnamed hproject (hfiles.trans (List.append_nil _).symm)
          have hmiddle := (spares_of_works hsound hbelow hworks).sound
          have hname : Path.IsName ProjectAudit.summaryFile := by
            apply Path.isName_of_length <;> decide
          have hread :=
            (FileAction.oldOrNew_of_writeAtomic hmiddle (Path.fileName?_join _ hname) hwrite).2 rfl
          rw [hlast]
          apply hread
  · intro root members path back middle e next hroot hfiles hworks hfatal
    obtain ⟨-, names, entries, hproject⟩ := of_existingFolder_eq_ok hsound hnamed hroot
    have hbelow := isBelow_of_scan_eq hsound hnamed hproject hfiles
    have hbefore := spares_of_works hsound hbelow hworks
    have hlast := spares_of_fatal hbefore.sound hfatal
    have hspares : FileTree.Spares (artifactsBeside state.1.files root out (members.map (·.1)))
        state.1.files next.1.files := hbefore.trans (hlast.mono fun _ hnames => hnames.1)
    have hrun : session.auditProjectInOrder folder force out state = some (.error e, next) := by
      rw [auditProjectInOrder, bind_of_ok _ (lift_of_eq hroot state.2), look_bind, hfiles]
      apply bind_of_error _ (foldlM_of_fatal hworks hfatal back)
    rw [hrun] at h
    obtain ⟨rfl, rfl⟩ := Prod.mk.inj (Option.some.inj h)
    refine ⟨rfl, rfl, hlast, hspares, fun hnames => ?_⟩
    apply hspares.file?_eq
    use summaryPlace_mem_artifactNames _ _
    intro place hplace heq
    obtain ⟨member, hmember, rfl⟩ := List.mem_map.mp hplace
    obtain ⟨front, name, hmemberBelow⟩ := hbelow member hmember
    apply hnames member hmember
    apply (namesOf_artifactPath_eq_summary_iff hmemberBelow state.1.files out).mp heq.symm

/-- A session whose model tells that its credentials are wrong. -/
def barredSession : Session Unit :=
  { quietSession with model := fun state _ => (.error (.configuration "no key"), state) }

theorem scan_lineTree :
  Sources.scan lineTree "/" = ["/a.py"]
  := by
  decide +kernel

theorem existingFolder_lineTree :
  (existingFolder "/" (quietWorld lineTree)).1 = .ok "/"
  := by
  decide +kernel

/-- There is no file before the only one. -/
theorem eq_nil_of_scan_lineTree {root path : String} {front back : List String} {world : World Unit}
    (hroot : existingFolder "/" (quietWorld lineTree) = (.ok root, world))
    (h : Sources.scan lineTree root = front ++ path :: back) :
  front = []
  := by
  have hfound := existingFolder_lineTree
  rw [hroot] at hfound
  obtain rfl := Except.ok.inj hfound
  have hlength := congrArg List.length (scan_lineTree.symm.trans h)
  simp only [List.length_append, List.length_cons, List.length_nil] at hlength
  apply List.length_eq_zero_iff.mp
  omega

/-- The only file of a project is counted, and an audit that ends the run writes nothing. -/
theorem auditProjectInOrder_accounts_lineTree :
  (∃ orders audit last members,
      muteSession.auditProjectInOrder "/" false none (quietWorld lineTree, orders) = some (.ok audit, last)
      ∧ members.map (·.1) = ["/a.py"] ∧ audit.Accounts members)
    ∧ ∃ orders last,
      barredSession.auditProjectInOrder "/" false none (quietWorld lineTree, orders)
        = some (.error (.inference (.configuration "no key")), last)
      ∧ FileTree.Spares artifactNames lineTree last.1.files
  := by
  constructor
  · have hrun : (muteSession.auditProject "/" false none (quietWorld lineTree)).1.toOption.map (·.folder)
        = some "/" := by
      decide +kernel
    obtain ⟨orders, horders⟩ := muteSession.follows_auditProject "/" false none (quietWorld lineTree)
    have h := horders []
    generalize muteSession.auditProject "/" false none (quietWorld lineTree) = audited at hrun h
    obtain ⟨e | audit, last⟩ := audited
    · cases hrun
    · obtain ⟨hsummary, -⟩ := auditProjectInOrder_accounts sound_lineTree named_lineTree h
      obtain ⟨members, middle, hfiles, -, haccounts, -⟩ := hsummary audit rfl
      have hfolder : audit.folder = "/" := Option.some.inj hrun
      refine ⟨orders ++ [], audit, (last, []), members, h, ?_, haccounts⟩
      rw [← hfiles, hfolder]
      apply scan_lineTree
  · have hrun : (barredSession.auditProject "/" false none (quietWorld lineTree)).1
        = .error (.inference (.configuration "no key")) := by
      decide +kernel
    obtain ⟨orders, horders⟩ := barredSession.follows_auditProject "/" false none (quietWorld lineTree)
    have h := horders []
    rw [hrun] at h
    refine ⟨orders ++ [], _, h, ?_⟩
    rcases of_auditProjectInOrder sound_lineTree named_lineTree h with
        ⟨e, hroot, -⟩
      | ⟨root, _, _, hroot, -, hends⟩
    · have hfound := existingFolder_lineTree
      rw [hroot] at hfound
      cases hfound
    · rcases hends with
          ⟨members, path, back, e, middle, hfiles, hworks, hfatal, -⟩
        | ⟨_, _, written, _, -, -, -, -, hresult⟩
      · obtain ⟨-, hends⟩ := auditProjectInOrder_accounts sound_lineTree named_lineTree h
        obtain ⟨-, -, hspares, -⟩ := hends root members path back middle e _ hroot hfiles hworks hfatal
        obtain rfl := List.map_eq_nil_iff.mp (eq_nil_of_scan_lineTree hroot hfiles)
        cases hworks
        apply hspares
      · cases written <;> cases hresult

end Session

end Scrutiny
