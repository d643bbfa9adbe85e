import Scrutiny.Proofs.Documents.Requests
import Scrutiny.Proofs.Documents.Stages
import Scrutiny.Proofs.Review.Regular
import Mathlib.Logic.Relation

/-!
# Design documents that are taken up again

A run of writing a design document ends before its first stage, in one of its two stages, or with both
documents.  The files tell the next run where this was, so that it goes on after the last stage that is
finished.
-/

namespace Scrutiny

open Scrutiny.Path DesignRun

variable {μ : Type}

/-! ### Steps -/

/-- The states from a state on. -/
def DesignState.onwards (state : DesignState) : List DesignState :=
  all.dropWhile (· != state)

/-- The run in its next state. -/
def DesignRun.advanced (run : DesignRun) (state : DesignState) : DesignRun :=
  { run with state, transitions := run.transitions ++ [state] }

/-- What a run tells when both documents are written. -/
def DesignRun.report (start : DesignRun) : DesignReport where
  detailPath := start.detailPath
  overviewPath := start.overviewPath
  detailSkipped := start.state == .detailDone
  transitions := start.state.onwards

/-- A report tells a chain of allowed steps, from a state to the last one. -/
def DesignReport.Tells (state : DesignState) (report : DesignReport) : Prop :=
  report.transitions.head? = some state
    ∧ report.transitions.IsChain (fun state next => state.canAdvance next)
    ∧ report.transitions.getLast? = some .overviewDone

theorem DesignRun.tells_report {start : DesignRun}
    (h : start.state = .notStarted ∨ start.state = .detailDone) :
  start.report.Tells start.state
  := by
  rw [DesignReport.Tells, report]
  dsimp only
  rcases h with h | h <;> rw [h] <;> decide

/-- Where a run ends. -/
inductive DesignExit where
  /-- Before its first stage. -/
  | before (cause : ReviewError)
  /-- In the stage of the detailed design. -/
  | detail (cause : ReviewError)
  /-- In the stage of the overview. -/
  | overview (cause : ReviewError)
  /-- When both documents are written. -/
  | done (report : DesignReport)
  deriving DecidableEq, Repr

/-- What comes of a run. -/
def DesignExit.result : DesignExit → Except ReviewError DesignReport
  | .before cause | .detail cause | .overview cause => .error cause
  | .done report => .ok report

namespace Session

open ReviewAction

variable (session : Session μ) (folder : String) (out : Option String) (force : Bool)

/-- The detailed design is there: it was there already, or the first stage writes it. -/
inductive Details (root : String) (start : DesignRun) : World μ → World μ → Prop where
  /-- It was there. -/
  | resumed {world : World μ} (hstate : start.state = .detailDone) : Details root start world world
  /-- It is written. -/
  | written {world next : World μ} (hstate : start.state = .notStarted)
    (hdetail : session.writeDetail root start.detailPath world = (.ok (), next)) :
    Details root start world next

/-- A run ends somewhere. -/
inductive Designs (world : World μ) : DesignExit → World μ → Prop where
  /-- It does not begin. -/
  | before {next : World μ} {e : ReviewError}
    (hbegin : session.beginDesign folder out force world = (.error e, next)) :
    Designs world (.before e) next
  /-- The detailed design cannot be written. -/
  | detail {begun next : World μ} {root : String} {start : DesignRun} {e : ReviewError}
    (hbegin : session.beginDesign folder out force world = (.ok (root, start), begun))
    (hstate : start.state = .notStarted)
    (hdetail : session.writeDetail root start.detailPath begun = (.error e, next)) :
    Designs world (.detail e) next
  /-- The overview cannot be written. -/
  | overview {begun detailed next : World μ} {root : String} {start : DesignRun} {e : ReviewError}
    (hbegin : session.beginDesign folder out force world = (.ok (root, start), begun))
    (hdetails : Details session root start begun detailed)
    (hoverview : session.writeOverview start.detailPath start.overviewPath detailed = (.error e, next)) :
    Designs world (.overview e) next
  /-- Both documents are written. -/
  | done {begun detailed next : World μ} {root : String} {start : DesignRun}
    (hbegin : session.beginDesign folder out force world = (.ok (root, start), begun))
    (hdetails : Details session root start begun detailed)
    (hoverview : session.writeOverview start.detailPath start.overviewPath detailed = (.ok (), next)) :
    Designs world (.done start.report) next

variable {session folder out force} {world next last : World μ} {root : String} {start : DesignRun}
  {result : Except ReviewError DesignReport} {exit : DesignExit}

theorem advanceRun_eq {run : DesignRun} {state : DesignState} (h : run.state.canAdvance state) :
  (advanceRun run state : ReviewAction μ DesignRun) = pure (run.advanced state)
  := by
  rw [advanceRun, DesignRun.advance, if_pos h]
  rfl

theorem runDetail_eq (root : String) {run : DesignRun} (hstate : run.state = .notStarted) :
  session.runDetail root run
    = (session.writeDetail root run.detailPath >>= fun _ =>
        pure ((run.advanced .detailRunning).advanced .detailDone))
  := by
  have hrunning : run.state.canAdvance .detailRunning := by
    rw [hstate]
    rfl
  have hdone : (run.advanced .detailRunning).state.canAdvance .detailDone := rfl
  rw [runDetail, advanceRun_eq hrunning, pure_bind, advanceRun_eq hdone]
  rfl

theorem runOverview_eq {run : DesignRun} (hstate : run.state = .detailDone) :
  session.runOverview run
    = (session.writeOverview run.detailPath run.overviewPath >>= fun _ =>
        pure ((run.advanced .overviewRunning).advanced .overviewDone))
  := by
  have hrunning : run.state.canAdvance .overviewRunning := by
    rw [hstate]
    rfl
  have hdone : (run.advanced .overviewRunning).state.canAdvance .overviewDone := rfl
  rw [runOverview, advanceRun_eq hrunning, pure_bind, advanceRun_eq hdone]
  rfl

section

variable (htransitions : start.transitions = [start.state])

include htransitions

/-- The stages of a run that starts with the second one. -/
theorem runStages_of_detailDone (hstate : start.state = .detailDone) :
  session.runStages root start
    = (session.writeOverview start.detailPath start.overviewPath >>= fun _ => pure start.report)
  := by
  have hskipped : (start.state == .detailDone) = true := by
    rw [hstate]
    rfl
  have hreport : start.report = ⟨start.detailPath, start.overviewPath, true,
      ((start.advanced .overviewRunning).advanced .overviewDone).transitions⟩ := by
    rw [report, hskipped, advanced, advanced, htransitions, hstate]
    rfl
  rw [runStages, hskipped, if_pos rfl, pure_bind]
  dsimp only
  rw [runOverview_eq hstate, bind_assoc, hreport]
  rfl

/-- The stages of a run that starts with the first one. -/
theorem runStages_of_notStarted (hstate : start.state = .notStarted) :
  session.runStages root start
    = (session.writeDetail root start.detailPath >>= fun _ =>
        session.writeOverview start.detailPath start.overviewPath >>= fun _ => pure start.report)
  := by
  have hskipped : (start.state == .detailDone) = false := by
    rw [hstate]
    rfl
  have hreport : start.report = ⟨start.detailPath, start.overviewPath, false,
      ((((start.advanced .detailRunning).advanced .detailDone).advanced .overviewRunning).advanced
        .overviewDone).transitions⟩ := by
    rw [report, hskipped, advanced, advanced, advanced, advanced, htransitions, hstate]
    rfl
  have hdetailed : ((start.advanced .detailRunning).advanced .detailDone).state = .detailDone := rfl
  rw [runStages, hskipped, if_neg Bool.false_ne_true, runDetail_eq root hstate, bind_assoc, hreport]
  congr
  funext _
  rw [pure_bind]
  dsimp only
  rw [runOverview_eq hdetailed, bind_assoc]
  rfl

end

/-- A run ends before its first stage, or in one of its two stages, or with both documents. -/
theorem of_writeDesign (hsound : world.files.Sound)
    (h : session.writeDesign folder out force world = (result, last)) :
  ∃ exit, exit.result = result ∧ Designs session folder out force world exit last
  := by
  rcases of_bind h with ⟨e, hbegin, rfl⟩ | ⟨⟨root, start⟩, begun, hbegin, h⟩
  · exact ⟨.before e, rfl, .before hbegin⟩
  obtain ⟨-, hbegun⟩ := hasBegun_of_beginDesign hsound hbegin
  have htransitions := hbegun.startsIn.transitions_eq
  dsimp only at h
  rcases hbegun.startsIn.state with ⟨hstate, -⟩ | hstate
  · rw [runStages_of_notStarted htransitions hstate] at h
    rcases of_bind h with ⟨e, hdetail, rfl⟩ | ⟨_, detailed, hdetail, h⟩
    · exact ⟨.detail e, rfl, .detail hbegin hstate hdetail⟩
    rcases of_bind h with ⟨e, hoverview, rfl⟩ | ⟨_, written, hoverview, h⟩
    · exact ⟨.overview e, rfl, .overview hbegin (.written hstate hdetail) hoverview⟩
    · obtain ⟨rfl, rfl⟩ := Prod.mk.inj h
      exact ⟨.done start.report, rfl, .done hbegin (.written hstate hdetail) hoverview⟩
  · rw [runStages_of_detailDone htransitions hstate] at h
    rcases of_bind h with ⟨e, hoverview, rfl⟩ | ⟨_, written, hoverview, h⟩
    · exact ⟨.overview e, rfl, .overview hbegin (.resumed hstate) hoverview⟩
    · obtain ⟨rfl, rfl⟩ := Prod.mk.inj h
      exact ⟨.done start.report, rfl, .done hbegin (.resumed hstate) hoverview⟩

/-! ### What stages leave alone -/

section

variable {target : String} {begun detailed : World μ}

theorem notMem_singleton {names others : List String} (h : names.getLast? ≠ others.getLast?) :
  names ∉ ({others} : Set (List String))
  := by
  rintro rfl
  apply h rfl

/-- The first stage leaves the overview alone. -/
theorem spares_of_details (hbegun : HasBegun force target world start begun)
    (h : Details session root start begun detailed) :
  FileTree.Spares {overviewPlace begun.files target} begun.files detailed.files
  := by
  cases h with
  | resumed => apply FileTree.Spares.refl hbegun.hasFolder.sound
  | written hstate hdetail =>
      have hname := fileName?_join target isName_detailFile
      rw [hbegun.startsIn.detailPath_eq] at hdetail
      apply (session.writes_writeDetail _ _ _ hdetail).spares hbegun.hasFolder.sound hname
      · apply notMem_singleton
        rw [← detailPlace, getLast?_detailPlace, getLast?_overviewPlace]
        decide
      · apply notMem_singleton
        rw [FileTree.getLast?_namesOf_temporary _ hname, getLast?_overviewPlace]
        decide

/-- The second stage leaves the detailed design alone. -/
theorem spares_of_writeOverview (hsound : world.files.Sound) {detailPath : String}
    {result : Except ReviewError Unit}
    (h : session.writeOverview detailPath (join target overviewFile) world = (result, next)) :
  FileTree.Spares {detailPlace world.files target} world.files next.files
  := by
  have hname := fileName?_join target isName_overviewFile
  rcases session.of_writeOverview _ _ _ h with ⟨cause, -, rfl⟩ | ⟨detail, -, hwrites⟩
  · apply FileTree.Spares.refl hsound
  · apply hwrites.spares hsound hname
    · apply notMem_singleton
      rw [← overviewPlace, getLast?_detailPlace, getLast?_overviewPlace]
      decide
    · apply notMem_singleton
      rw [FileTree.getLast?_namesOf_temporary _ hname, getLast?_detailPlace]
      decide

end

/-! ### What a run leaves behind -/

/-- The overview is the one that was there before, if it has not been removed with `force`. -/
def KeepsOverview (force : Bool) (target : String) (world last : World μ) : Prop :=
  last.files.file? (overviewPlace world.files target)
    = if force then none else world.files.file? (overviewPlace world.files target)

/-- There is a detailed design: the one that was there before, or the one that the first stage has asked
for. -/
def LeavesDetail (session : Session μ) (folder : String) (out : Option String) (force : Bool)
    (target : String) (world last : World μ) : Prop :=
  ∃ bytes, last.files.file? (detailPlace world.files target) = some bytes
    ∧ (force = false ∧ world.files.file? (detailPlace world.files target) = some bytes
      ∨ ∃ root start begun text middle,
        session.beginDesign folder out force world = (.ok (root, start), begun)
        ∧ start.state = .notStarted ∧ session.detailText root begun = (.ok text, middle)
        ∧ bytes = Text.bytesOf text)

section

variable {target : String} {begun detailed : World μ} {bytes : List UInt8} {e : ReviewError}

/-- A run that is not forced goes on after the detailed design, if there is one. -/
theorem HasBegun.of_file?_eq (h : HasBegun false target world start begun)
    (hfile : world.files.file? (detailPlace world.files target) = some bytes) :
  begun.files.file? (detailPlace world.files target) = some bytes ∧ start.state = .detailDone
  := by
  have hbegun : begun.files.file? (detailPlace world.files target) = some bytes := by
    rw [(h.spares rfl).file?_eq _ (detailPlace_mem_documentNames _ target), hfile]
  use hbegun
  rcases h.startsIn.state with ⟨-, hnone⟩ | hstate
  · rw [detailPlace_of_keeps h.keeps, hbegun] at hnone
    cases hnone
  · apply hstate

theorem HasBegun.keepsOverview (h : HasBegun force target world start begun) :
  KeepsOverview force target world begun
  := by
  cases force with
  | false => apply (h.spares rfl).file?_eq _ (overviewPlace_mem_documentNames _ target)
  | true => apply (h.removed rfl).2

/-- A run that is ended in its first stage changes the files no more. -/
theorem of_writeDetail_of_isFatal (hbegun : HasBegun force target world start begun)
    (hstate : start.state = .notStarted) (hfatal : e.isFatal = true)
    (h : session.writeDetail root start.detailPath begun = (.error e, last)) :
  last.files.file? (detailPlace world.files target) = none ∧ KeepsOverview force target world last
  := by
  rw [KeepsOverview, (session.writes_writeDetail _ _ _ h).files_eq_of_isFatal hfatal]
  constructor
  · rcases hbegun.startsIn.state with ⟨-, hnone⟩ | hdone
    · rw [← detailPlace_of_keeps hbegun.keeps, hnone]
    · rw [hdone] at hstate
      cases hstate
  · apply hbegun.keepsOverview

variable (hbegun : HasBegun force target world start begun)
  (hdetails : Details session root start begun detailed)

include hbegun hdetails

theorem hasFolder_of_details :
  detailed.files.HasFolder target
  := hbegun.hasFolder.of_keeps (spares_of_details hbegun hdetails).toKeeps

theorem keeps_of_details :
  world.files.Keeps detailed.files
  := hbegun.keeps.trans (spares_of_details hbegun hdetails).toKeeps

theorem keepsOverview_of_details :
  KeepsOverview force target world detailed
  := by
  have hspares := spares_of_details hbegun hdetails
  rw [overviewPlace_of_keeps hbegun.keeps] at hspares
  rw [KeepsOverview, hspares.file?_eq _ (Set.mem_singleton _)]
  apply hbegun.keepsOverview

/-- The detailed design that a run leaves was there before, or the first stage has written it. -/
theorem leavesDetail_of_details
    (hbegin : session.beginDesign folder out force world = (.ok (root, start), begun))
    (hfile : detailed.files.file? (detailPlace world.files target) = some bytes) :
  LeavesDetail session folder out force target world detailed
  := by
  use bytes, hfile
  cases hdetails with
  | resumed =>
      left
      cases force with
      | false =>
          use rfl
          rw [← (hbegun.spares rfl).file?_eq _ (detailPlace_mem_documentNames _ target), hfile]
      | true =>
          rw [(hbegun.removed rfl).1] at hfile
          cases hfile
  | written hstate hdetail =>
      right
      rw [hbegun.startsIn.detailPath_eq] at hdetail
      obtain ⟨text, middle, hdocument, hwritten⟩ := (session.writes_writeDetail _ _ _ hdetail).file?_eq
        hbegun.hasFolder.sound (fileName?_join target isName_detailFile)
      rw [← detailPlace, detailPlace_of_keeps hbegun.keeps, hfile] at hwritten
      exact ⟨root, start, begun, text, middle, hbegin, hstate, hdocument, Option.some.inj hwritten⟩

variable {result : Except ReviewError Unit}
  (hoverview : session.writeOverview start.detailPath start.overviewPath detailed = (result, last))

include hoverview

/-- The second stage leaves the detailed design as it is. -/
theorem file?_detailPlace_of_writeOverview :
  last.files.file? (detailPlace world.files target) = detailed.files.file? (detailPlace world.files target)
  := by
  rw [hbegun.startsIn.overviewPath_eq] at hoverview
  rw [← detailPlace_of_keeps (keeps_of_details hbegun hdetails)]
  apply (spares_of_writeOverview (hasFolder_of_details hbegun hdetails).sound hoverview).file?_eq
  apply Set.mem_singleton

/-- The second stage ends the run only if there is a detailed design, and then it writes nothing. -/
theorem of_writeOverview_of_isFatal (hresult : result = .error e) (hfatal : e.isFatal = true) :
  last.files = detailed.files ∧ ∃ bytes, detailed.files.file? (detailPlace world.files target) = some bytes
  := by
  subst hresult
  rcases session.of_writeOverview _ _ _ hoverview with ⟨cause, hcause, -⟩ | ⟨detail, hdetail, hwrites⟩
  · obtain rfl := Except.error.inj hcause
    cases hfatal
  · use hwrites.files_eq_of_isFatal hfatal
    rw [FileTree.readText, hbegun.startsIn.detailPath_eq] at hdetail
    rw [← detailPlace_of_keeps (keeps_of_details hbegun hdetails), detailPlace,
      ← (hasFolder_of_details hbegun hdetails).toOption_read_join isName_detailFile
        utf8ByteSize_detailFile_le]
    cases hread : detailed.files.read (join target detailFile) with
    | error cause =>
        rw [hread] at hdetail
        cases hdetail
    | ok bytes => exact ⟨bytes, rfl⟩

end

/-- A run of writing a design document keeps the files sound. -/
theorem Designs.sound (hsound : world.files.Sound) (h : Designs session folder out force world exit last) :
  last.files.Sound
  := by
  cases h with
  | before hbegin =>
      have hlock (target : String) : Avoids ∅ (session.designLock target) :=
        fun _ => ⟨Set.notMem_empty _, Set.notMem_empty _⟩
      apply (spares_of_beginDesign hsound hlock (fun target => spares_resume_empty target force) hbegin).sound
  | detail hbegin _ hdetail =>
      obtain ⟨-, hbegun⟩ := hasBegun_of_beginDesign hsound hbegin
      rw [hbegun.startsIn.detailPath_eq] at hdetail
      have hspares := (session.writes_writeDetail _ _ _ hdetail).spares hbegun.hasFolder.sound
        (fileName?_join _ isName_detailFile) (Set.notMem_empty _) (Set.notMem_empty _)
      apply hspares.sound
  | overview hbegin hdetails hoverview | done hbegin hdetails hoverview =>
      obtain ⟨-, hbegun⟩ := hasBegun_of_beginDesign hsound hbegin
      rw [hbegun.startsIn.overviewPath_eq] at hoverview
      apply (spares_of_writeOverview (hasFolder_of_details hbegun hdetails).sound hoverview).sound

/-! ### What a run asks for -/

theorem sends_beginDesign {P : ChatRequest → Prop} (session : Session μ) (folder : String)
    (out : Option String) (force : Bool) :
  Sends P (session.beginDesign folder out force) (session.recorded.beginDesign folder out force)
  := by
  apply Sends.bind (Sends.existingFolder folder)
  intro root
  apply Sends.bind (Sends.onFiles _ _)
  intro _
  apply Sends.bind (Sends.takeLock _)
  intro _
  apply Sends.bind (Sends.onFiles _ _)
  intro start
  apply Sends.pure

theorem sends_writeOverview (session : Session μ) (detailPath path : String) :
  Sends (IsFor .overviewDesigner) (session.writeOverview detailPath path)
    (session.recorded.writeOverview detailPath path)
  := by
  apply Sends.bind (Sends.look _)
  intro found
  apply Sends.bind (Sends.ofExcept _ found)
  intro detail
  apply Sends.bind
  · apply Sends.bind (session.sends_documentOr _ _ _)
    intro text
    apply Sends.pure
  · intro text
    apply Sends.onFiles

/-- A run that goes on after the detailed design asks for the overview only. -/
theorem exists_requests_writeDesign {target : String} {bytes : List UInt8} (hsound : world.files.Sound)
    (htarget : ∀ root, existingFolder folder world = (.ok root, world) → out.getD root = target)
    (hfile : world.files.file? (detailPlace world.files target) = some bytes)
    (h : session.writeDesign folder out false world = (result, last)) (log : List ChatRequest) :
  ∃ requests, (∀ request ∈ requests, IsFor .overviewDesigner request)
    ∧ session.recorded.writeDesign folder out false (world.noting log)
      = (result, last.noting (log ++ requests))
  := by
  obtain ⟨requests, hrequests, hnoted⟩ :=
    session.sends_beginDesign (P := IsFor .overviewDesigner) folder out false world log
  rcases hbegin : session.beginDesign folder out false world with ⟨e | ⟨root, start⟩, begun⟩
  · rw [hbegin] at hnoted
    rw [writeDesign, bind_of_error _ hbegin] at h
    obtain ⟨rfl, rfl⟩ := Prod.mk.inj h
    use requests, hrequests
    rw [writeDesign, bind_of_error _ hnoted]
  · obtain ⟨hroot, hbegun⟩ := hasBegun_of_beginDesign hsound hbegin
    rw [htarget root hroot] at hbegun
    obtain ⟨-, hstate⟩ := hbegun.of_file?_eq hfile
    have htransitions := hbegun.startsIn.transitions_eq
    rw [hbegin] at hnoted
    rw [writeDesign, bind_of_ok _ hbegin] at h
    dsimp only at h
    rw [runStages_of_detailDone htransitions hstate] at h
    have hsends : Sends (IsFor .overviewDesigner)
        (session.writeOverview start.detailPath start.overviewPath >>= fun _ => pure start.report)
        (session.recorded.writeOverview start.detailPath start.overviewPath >>= fun _ =>
          pure start.report) := by
      apply Sends.bind (session.sends_writeOverview _ _)
      intro _
      apply Sends.pure
    obtain ⟨others, hothers, hstages⟩ := hsends begun (log ++ requests)
    rw [h] at hstages
    use requests ++ others, List.forall_mem_append.mpr ⟨hrequests, hothers⟩
    rw [writeDesign, bind_of_ok _ hnoted]
    dsimp only
    rw [runStages_of_detailDone htransitions hstate, hstages, List.append_assoc]

theorem not_isFor_detailDesigner {request : ChatRequest} (h : IsFor .overviewDesigner request) :
  ¬ IsFor .detailDesigner request
  := by
  rw [IsFor] at h ⊢
  rw [h]
  decide

/-! ### What a run keeps to -/

/-- The folder that the documents of a run are written to. -/
def IsTarget (folder : String) (out : Option String) (world : World μ) (target : String) : Prop :=
  out = some target ∨ out = none ∧ (existingFolder folder world).1 = .ok target

theorem IsTarget.getD_eq {target : String} (h : IsTarget folder out world target)
    (hroot : existingFolder folder world = (.ok root, world)) :
  out.getD root = target
  := by
  rcases h with rfl | ⟨rfl, htarget⟩
  · rfl
  · rw [hroot] at htarget
    apply Except.ok.inj htarget

theorem IsTarget.hasBegun {target : String} {begun : World μ} (h : IsTarget folder out world target)
    (hsound : world.files.Sound)
    (hbegin : session.beginDesign folder out force world = (.ok (root, start), begun)) :
  HasBegun force target world start begun
  := by
  obtain ⟨hroot, hbegun⟩ := hasBegun_of_beginDesign hsound hbegin
  rw [h.getD_eq hroot] at hbegun
  apply hbegun

/-- What holds when a run has ended. -/
structure KeepsToStages (session : Session μ) (folder : String) (out : Option String) (force : Bool)
    (world : World μ) (exit : DesignExit) (last : World μ) : Prop where
  /-- All steps are allowed. -/
  not_transition : ∀ cause, exit.result ≠ .error (.transition cause)
  /-- A run that succeeds tells all of its steps, from where it started. -/
  tells : ∀ report, exit = .done report → ∃ root start begun,
    session.beginDesign folder out force world = (.ok (root, start), begun) ∧ report.Tells start.state
  /-- A run that is not forced goes on after the detailed design, if there is one: it leaves it as it is, and
  does not ask for another. -/
  resumed : ∀ target bytes, IsTarget folder out world target → force = false →
    world.files.file? (detailPlace world.files target) = some bytes →
    last.files.file? (detailPlace world.files target) = some bytes
    ∧ (∀ report, exit = .done report → report.detailSkipped = true)
    ∧ ∀ log, ∃ requests, (∀ request ∈ requests, ¬ IsFor .detailDesigner request)
      ∧ session.recorded.writeDesign folder out force (world.noting log)
        = (exit.result, last.noting (log ++ requests))
  /-- A run that is ended in its first stage leaves no detailed design, and no overview but the one that was
  there before. -/
  detail : ∀ target e, IsTarget folder out world target → exit = .detail e → e.isFatal = true →
    last.files.file? (detailPlace world.files target) = none ∧ KeepsOverview force target world last
  /-- A run that is ended in its second stage leaves the detailed design, and no overview but the one that was
  there before. -/
  overview : ∀ target e, IsTarget folder out world target → exit = .overview e → e.isFatal = true →
    LeavesDetail session folder out force target world last ∧ KeepsOverview force target world last
  /-- The next run goes on with the second stage, whatever it is told to write about. -/
  next : ∀ target e, IsTarget folder out world target → exit = .overview e → e.isFatal = true →
    (∃ run, resume target false last.files = (.ok run, last.files) ∧ run.state = .detailDone)
    ∧ ∀ (again : Session μ) folder' out' root' run begun,
      again.beginDesign folder' out' false last = (.ok (root', run), begun) → out'.getD root' = target →
      run.state = .detailDone

section

variable (hdesigns : Designs session folder out force world exit last)

include hdesigns

theorem not_transition (cause : BadTransition) :
  exit.result ≠ .error (.transition cause)
  := by
  intro hresult
  cases hdesigns with
  | before hbegin =>
      obtain rfl := Except.error.inj hresult
      rcases of_beginDesign_eq_error hbegin with ⟨_, heq⟩ | ⟨_, heq⟩ | ⟨_, heq⟩ <;> cases heq
  | detail _ _ hdetail =>
      obtain rfl := Except.error.inj hresult
      rcases (session.writes_writeDetail _ _ _ hdetail).exists_cause with ⟨_, heq⟩ | ⟨_, heq⟩ <;> cases heq
  | overview _ _ hoverview =>
      obtain rfl := Except.error.inj hresult
      rcases session.of_writeOverview _ _ _ hoverview with ⟨_, heq, -⟩ | ⟨_, -, hwrites⟩
      · cases heq
      · rcases hwrites.exists_cause with ⟨_, heq⟩ | ⟨_, heq⟩ <;> cases heq
  | done => cases hresult

variable (hsound : world.files.Sound)

include hsound

theorem exists_tells {report : DesignReport} (hexit : exit = .done report) :
  ∃ root start begun, session.beginDesign folder out force world = (.ok (root, start), begun)
    ∧ report.Tells start.state
  := by
  cases hdesigns with
  | before | detail | overview => cases hexit
  | @done begun _ _ root start hbegin =>
      obtain rfl := DesignExit.done.inj hexit
      obtain ⟨-, hbegun⟩ := hasBegun_of_beginDesign hsound hbegin
      use root, start, begun, hbegin
      apply tells_report
      rcases hbegun.startsIn.state with ⟨hstate, -⟩ | hstate
      · exact .inl hstate
      · exact .inr hstate

variable {target : String} {e : ReviewError} {bytes : List UInt8} (htarget : IsTarget folder out world target)

include htarget

/-- A run that goes on after the detailed design leaves it as it is. -/
theorem of_file?_detailPlace (hforce : force = false)
    (hfile : world.files.file? (detailPlace world.files target) = some bytes) :
  last.files.file? (detailPlace world.files target) = some bytes
    ∧ ∀ report, exit = .done report → report.detailSkipped = true
  := by
  subst hforce
  have hstages {begun detailed : World μ} {root : String} {start : DesignRun}
      {result : Except ReviewError Unit}
      (hbegin : session.beginDesign folder out false world = (.ok (root, start), begun))
      (hdetails : Details session root start begun detailed)
      (hoverview : session.writeOverview start.detailPath start.overviewPath detailed = (result, last)) :
      last.files.file? (detailPlace world.files target) = some bytes ∧ start.state = .detailDone := by
    have hbegun := htarget.hasBegun hsound hbegin
    obtain ⟨hbytes, hdone⟩ := hbegun.of_file?_eq hfile
    rw [file?_detailPlace_of_writeOverview hbegun hdetails hoverview]
    cases hdetails with
    | resumed => exact ⟨hbytes, hdone⟩
    | written hstate =>
        rw [hdone] at hstate
        cases hstate
  cases hdesigns with
  | before hbegin =>
      refine ⟨?_, fun _ hexit => by cases hexit⟩
      have hspares :=
        spares_of_beginDesign hsound session.avoids_designLock (spares_resume documentNames) hbegin
      rw [hspares.file?_eq _ (detailPlace_mem_documentNames _ target), hfile]
  | detail hbegin hstate =>
      obtain ⟨-, hdone⟩ := (htarget.hasBegun hsound hbegin).of_file?_eq hfile
      rw [hdone] at hstate
      cases hstate
  | overview hbegin hdetails hoverview =>
      exact ⟨(hstages hbegin hdetails hoverview).1, fun _ hexit => by cases hexit⟩
  | done hbegin hdetails hoverview =>
      obtain ⟨hbytes, hdone⟩ := hstages hbegin hdetails hoverview
      use hbytes
      intro report hexit
      obtain rfl := DesignExit.done.inj hexit
      rw [DesignRun.report, hdone]
      rfl

theorem of_exit_detail (hexit : exit = .detail e) (hfatal : e.isFatal = true) :
  last.files.file? (detailPlace world.files target) = none ∧ KeepsOverview force target world last
  := by
  cases hdesigns with
  | before | overview | done => cases hexit
  | detail hbegin hstate hdetail =>
      obtain rfl := DesignExit.detail.inj hexit
      apply of_writeDetail_of_isFatal (htarget.hasBegun hsound hbegin) hstate hfatal hdetail

theorem of_exit_overview (hexit : exit = .overview e) (hfatal : e.isFatal = true) :
  LeavesDetail session folder out force target world last ∧ KeepsOverview force target world last
    ∧ world.files.Keeps last.files ∧ last.files.HasFolder target
  := by
  cases hdesigns with
  | before | detail | done => cases hexit
  | overview hbegin hdetails hoverview =>
      obtain rfl := DesignExit.overview.inj hexit
      have hbegun := htarget.hasBegun hsound hbegin
      obtain ⟨hfiles, bytes, hfile⟩ := of_writeOverview_of_isFatal hbegun hdetails hoverview rfl hfatal
      rw [LeavesDetail, KeepsOverview, hfiles]
      exact ⟨leavesDetail_of_details hbegun hdetails hbegin hfile, keepsOverview_of_details hbegun hdetails,
        keeps_of_details hbegun hdetails, hasFolder_of_details hbegun hdetails⟩

/-- After a run that was ended in its second stage the next one goes on with this stage. -/
theorem next_of_exit_overview (hexit : exit = .overview e) (hfatal : e.isFatal = true) :
  (∃ run, resume target false last.files = (.ok run, last.files) ∧ run.state = .detailDone)
    ∧ ∀ (again : Session μ) folder' out' root' run begun,
      again.beginDesign folder' out' false last = (.ok (root', run), begun) → out'.getD root' = target →
      run.state = .detailDone
  := by
  obtain ⟨⟨bytes, hfile, -⟩, -, hkeeps, hfolder⟩ := of_exit_overview hdesigns hsound htarget hexit hfatal
  rw [← detailPlace_of_keeps hkeeps] at hfile
  use exists_resume_eq hfolder hfile
  intro again folder' out' root' run begun hbegin htarget'
  obtain ⟨-, hbegun⟩ := hasBegun_of_beginDesign hfolder.sound hbegin
  rw [htarget'] at hbegun
  apply (hbegun.of_file?_eq hfile).2

end

/-- A run of some session leads from one world to the next. -/
def WritesDesign (world next : World μ) : Prop :=
  ∃ (session : Session μ) (folder : String) (out : Option String) (force : Bool)
    (result : Except ReviewError DesignReport), session.writeDesign folder out force world = (result, next)

/-- One run after another keeps the files sound. -/
theorem sound_of_runs {first : World μ} (hsound : first.files.Sound)
    (hruns : Relation.ReflTransGen WritesDesign first world) :
  world.files.Sound
  := by
  induction hruns with
  | refl => apply hsound
  | tail _ hrun ih =>
      obtain ⟨session, folder, out, force, result, h⟩ := hrun
      obtain ⟨exit, -, hdesigns⟩ := of_writeDesign ih h
      apply hdesigns.sound ih

/-- Over any runs, all steps are allowed, a run goes on after the last stage that is finished, and a run that
is ended leaves the documents for the next one to go on with. -/
theorem keepsToStages_of_writeDesign {first : World μ} (hsound : first.files.Sound)
    (hruns : Relation.ReflTransGen WritesDesign first world)
    (h : session.writeDesign folder out force world = (result, last)) :
  ∃ exit, exit.result = result ∧ Designs session folder out force world exit last
    ∧ KeepsToStages session folder out force world exit last
  := by
  have hready := sound_of_runs hsound hruns
  obtain ⟨exit, hresult, hdesigns⟩ := of_writeDesign hready h
  refine ⟨exit, hresult, hdesigns, ?_⟩
  constructor
  case not_transition => apply not_transition hdesigns
  case tells =>
    intro report
    apply exists_tells hdesigns hready
  case resumed =>
    intro target bytes htarget hforce hfile
    obtain ⟨hlast, hskipped⟩ := of_file?_detailPlace hdesigns hready htarget hforce hfile
    refine ⟨hlast, hskipped, fun log => ?_⟩
    subst hforce
    obtain ⟨requests, hrequests, hnoted⟩ :=
      exists_requests_writeDesign hready (fun _ => htarget.getD_eq) hfile h log
    use requests, fun request hrequest => not_isFor_detailDesigner (hrequests request hrequest)
    rw [hnoted, hresult]
  case detail =>
    intro target e htarget
    apply of_exit_detail hdesigns hready htarget
  case overview =>
    intro target e htarget hexit hfatal
    obtain ⟨hdetail, hoverview, -⟩ := of_exit_overview hdesigns hready htarget hexit hfatal
    exact ⟨hdetail, hoverview⟩
  case next =>
    intro target e htarget
    apply next_of_exit_overview hdesigns hready htarget

/-- A session whose model answers the questions for the detailed design only. -/
def haltedSession : Session Unit :=
  { quietSession with
    model := fun state request =>
      (if request.system = Reviewer.detailDesigner.prompt then .ok "It keeps a number."
        else .error (.configuration "no key"), state) }

/-- After a run that was ended in its second stage the next one writes the overview. -/
theorem keepsToStages_of_writeDesign_lineTree :
  ∃ halted report last,
    haltedSession.writeDesign "/" (some "docs") false (quietWorld lineTree)
      = (.error (.inference (.configuration "no key")), halted)
    ∧ wordySession.writeDesign "/" (some "docs") false halted = (.ok report, last)
    ∧ report.transitions = [.detailDone, .overviewRunning, .overviewDone]
    ∧ KeepsToStages wordySession "/" (some "docs") false halted (.done report) last
  := by
  have hboth :
      let halted := haltedSession.writeDesign "/" (some "docs") false (quietWorld lineTree)
      (halted.1, (wordySession.writeDesign "/" (some "docs") false halted.2).1.toOption.map (·.transitions))
        = (.error (.inference (.configuration "no key")),
          some [.detailDone, .overviewRunning, .overviewDone]) := by
    decide +kernel
  obtain ⟨hfirst, hsecond⟩ := Prod.mk.inj hboth
  rcases hhalted : haltedSession.writeDesign "/" (some "docs") false (quietWorld lineTree) with
    ⟨result, halted⟩
  rw [hhalted] at hfirst hsecond
  obtain rfl := hfirst
  rcases h : wordySession.writeDesign "/" (some "docs") false halted with ⟨e | report, last⟩
  · rw [h] at hsecond
    cases hsecond
  · rw [h] at hsecond
    have hsound : (quietWorld lineTree).files.Sound := sound_lineTree
    obtain ⟨exit, hexit, -, hkeeps⟩ := keepsToStages_of_writeDesign hsound
      (.single ⟨haltedSession, "/", some "docs", false, _, hhalted⟩) h
    obtain rfl : exit = .done report := by
      cases exit with
      | before | detail | overview => cases hexit
      | done told => rw [Except.ok.inj hexit]
    exact ⟨halted, report, last, rfl, h, Option.some.inj hsecond, hkeeps⟩

end Session

end Scrutiny
