import Scrutiny.Proofs.Cache.Writing
import Scrutiny.Proofs.Inference.Attempts
import Scrutiny.Proofs.Review.Readback
import Scrutiny.Proofs.Schedule.Contents
import Scrutiny.Review.Release

/-!
# What reviews keep

What a review keeps of a usable reply is a value that can be written, and gives the same result when
it is read back.  Whether the review of one auditor can read a value does not depend on the auditor.
-/

namespace Scrutiny

variable {μ α β : Type} {session : Session μ} {refresh : Bool} {chunk : Chunk} {reviewer : Reviewer}
  {state : μ} {kept : Json}

theorem of_judged_eq_ok {asked : Asked α μ} {judge : α → Judgement β} {judgement : Judgement β}
    (h : (asked.judged judge).result = .ok judgement) :
  ∃ a, asked.result = .ok a ∧ judge a = judgement
  := by
  rw [Asked.judged] at h
  dsimp only at h
  cases hasked : asked.result with
  | error e =>
      rw [hasked] at h
      cases h
  | ok a =>
      rw [hasked] at h
      exact ⟨a, rfl, Except.ok.inj h⟩

/-- A usable reply to an auditor is an object with issues, and is kept as it is. -/
theorem of_ask_issueReview {issues : List Issue}
    (h : ((session.issueReview refresh chunk reviewer).ask state).result = .ok (.usable issues kept)) :
  Issue.ofReply? kept reviewer.issueType = some issues
    ∧ ∃ reply : String, Reply.objectIn? reply.toList = some kept
  := by
  obtain ⟨value, hvalue, hjudge⟩ := of_judged_eq_ok h
  obtain ⟨reply, hreply⟩ := Inference.exists_accept_of_attempt hvalue
  rw [Session.judgeIssues] at hjudge
  split at hjudge
  · rename_i found hfound
    obtain ⟨rfl, rfl⟩ := Judgement.usable.inj hjudge
    use hfound, reply
    rw [Inference.acceptObject] at hreply
    split at hreply
    · rename_i object hobject
      rw [hobject, Except.ok.inj hreply]
    · cases hreply
  · cases hjudge

theorem isRegular_issueReview (session : Session μ) (refresh : Bool) (chunk : Chunk)
    (reviewer : Reviewer) :
  (session.issueReview refresh chunk reviewer).IsRegular
  := by
  constructor
  · apply Fingerprint.isValid_compute
  · intro state issues kept h
    obtain ⟨-, reply, hreply⟩ := of_ask_issueReview h
    obtain ⟨hnormal, hfits, -⟩ := Reply.of_objectIn?_eq_some hreply
    exact ⟨hnormal, hfits⟩

/-- The issues of a usable reply are those that are read back. -/
theorem readBack?_issueReview {issues : List Issue}
    (h : ((session.issueReview refresh chunk reviewer).ask state).result = .ok (.usable issues kept)) :
  (session.issueReview refresh chunk reviewer).readBack? kept.reread = some issues
  := by
  obtain ⟨hissues, reply, hreply⟩ := of_ask_issueReview h
  obtain ⟨-, hfits, -⟩ := Reply.of_objectIn?_eq_some hreply
  rw [← hissues]
  apply Issue.ofReply?_reread hfits

theorem isFaithful_issueReview (session : Session μ) (refresh : Bool) (chunk : Chunk)
    (reviewer : Reviewer) :
  (session.issueReview refresh chunk reviewer).IsFaithful
  := by
  use isRegular_issueReview session refresh chunk reviewer
  intro state issues kept husable
  apply readBack?_issueReview husable

/-- Whether there are issues in a value does not depend on who reads it. -/
theorem isSome_readBack?_issueReview (session : Session μ) (refresh : Bool) (chunk : Chunk)
    (reviewer : Reviewer) (kept : Json) :
  ((session.issueReview refresh chunk reviewer).readBack? kept).isSome
    = ((kept.field? "issues").bind Json.array?).isSome
  := Option.isSome_map

/-- What is kept of an explanation is its text. -/
theorem of_ask_rationaleReview {outcome : RationaleOutcome}
    (h : ((session.rationaleReview refresh chunk).ask state).result = .ok (.usable outcome kept)) :
  ∃ text, kept = Session.rationaleJson text
  := by
  obtain ⟨value, -, hjudge⟩ := of_judged_eq_ok h
  obtain ⟨-, rfl⟩ := Judgement.usable.inj hjudge
  exact ⟨_, rfl⟩

theorem isRegular_rationaleReview (session : Session μ) (refresh : Bool) (chunk : Chunk) :
  (session.rationaleReview refresh chunk).IsRegular
  := by
  constructor
  · apply Fingerprint.isValid_compute
  · intro state outcome kept h
    obtain ⟨text, rfl⟩ := of_ask_rationaleReview h
    constructor
    · apply Json.IsNormal.object
      · apply List.pairwise_singleton
      · intro field hfield
        obtain rfl := List.mem_singleton.mp hfield
        apply Json.IsNormal.string
    · intro n hn
      cases hn

/-- An explanation that was kept can be read back by all. -/
theorem isSome_readBack?_rationaleReview {outcome : RationaleOutcome}
    (h : ((session.rationaleReview refresh chunk).ask state).result = .ok (.usable outcome kept))
    (other : Bool) (chunk' : Chunk) :
  ((session.rationaleReview other chunk').readBack? kept.reread).isSome
  := by
  obtain ⟨text, rfl⟩ := of_ask_rationaleReview h
  rfl

/-! ### Other forms of results -/

theorem of_ask_map {review : CachedReview μ α} {f : α → β} {result : β}
    (h : ((review.map f).ask state).result = .ok (.usable result kept)) :
  ∃ found, (review.ask state).result = .ok (.usable found kept) ∧ f found = result
  := by
  obtain ⟨judgement, hjudgement, hmap⟩ := of_judged_eq_ok h
  cases judgement with
  | usable found value =>
      obtain ⟨hfound, rfl⟩ := Judgement.usable.inj hmap
      use found
  | useless reason => cases hmap

theorem CachedReview.IsRegular.map {review : CachedReview μ α} (h : review.IsRegular) (f : α → β) :
  (review.map f).IsRegular
  := by
  use h.isValid
  intro state result kept husable
  obtain ⟨found, hfound, -⟩ := of_ask_map husable
  apply h.of_usable state found kept hfound

/-! ### A model that finds nothing -/

/-- A session whose model never finds an issue. -/
def quietSession : Session Unit where
  config := .ofModel "" "m"
  model := fun state _ => (.ok "\x7b\"issues\": []\x7d", state)
  settings := { dataFolder := "", charLimit := 100, concurrency := 2 }
  cache := ⟨"cache"⟩
  clock := { seconds := 0, date := "", instant := "" }

/-- A session whose model always has an explanation. -/
def wordySession : Session Unit :=
  { quietSession with model := fun state _ => (.ok "It keeps a number.", state) }

/-- A chunk in which there is nothing to be found. -/
def quietChunk : Chunk := .ofFile "a.py" "f" "def f(): pass" 0 .function

/-- The world of such a session. -/
def quietWorld (tree : FileTree) : World Unit :=
  { files := tree, model := (), tally := { calls := 0, hits := 0, failures := 0 } }

/-- A file with a single line. -/
def lineTree : FileTree where
  root := .folder [("a.py", .file (Text.bytesOf "x = 1\n"))]
  here := []

theorem sound_lineTree :
  lineTree.Sound
  := by
  constructor
  · apply FileNode.Ordered.folder
    · apply List.pairwise_singleton
    · intro entry hentry
      obtain rfl := List.mem_singleton.mp hentry
      apply FileNode.Ordered.file
  · exact ⟨_, rfl⟩

theorem exists_objectIn?_quiet :
  ∃ reply, Reply.objectIn? "\x7b\"issues\": []\x7d".toList = some reply
    ∧ (∀ type, Issue.ofReply? reply type = some []) ∧ reply.depth ≤ 126
  := by
  have hshape : (Reply.objectIn? "\x7b\"issues\": []\x7d".toList).map
      (fun reply => (((reply.field? "issues").bind Json.array?).map List.length, reply.depth))
      = some (some 0, 2) := by
    decide +kernel
  obtain ⟨reply, hreply, hpair⟩ := Option.map_eq_some_iff.mp hshape
  obtain ⟨hissues, hdepth⟩ := Prod.mk.inj hpair
  use reply, hreply
  constructor
  · intro type
    obtain ⟨items, hitems, hlength⟩ := Option.map_eq_some_iff.mp hissues
    rw [Issue.ofReply?, hitems, List.eq_nil_of_length_eq_zero hlength]
    rfl
  · omega

/-- A session whose model always gives the same reply. -/
def replyingSession (text : String) : Session Unit :=
  { quietSession with model := fun state _ => (.ok text, state) }

/-- An object with a list of issues is a usable reply to the first question. -/
theorem ask_replyingSession {text : String} {reply : Json} {reviewer : Reviewer} {issues : List Issue}
    (hreply : Reply.objectIn? text.toList = some reply)
    (hissues : Issue.ofReply? reply reviewer.issueType = some issues) (refresh : Bool) (chunk : Chunk) :
  (((replyingSession text).issueReview refresh chunk reviewer).ask ()).result
    = .ok (.usable issues reply)
  := by
  have hasked (ask : Nat → ChatRequest) :
      (Inference.run (replyingSession text).config (replyingSession text).model ask
        Inference.acceptObject ()).result = .ok reply := by
    have haccept : Inference.acceptObject text = .ok reply := by
      rw [Inference.acceptObject, hreply]
    change (Inference.attempt _ _ ask _ 3 1 _ _ ()).result = _
    rw [Inference.attempt]
    dsimp only [replyingSession, Except.bind]
    rw [haccept]
  change Except.map _ _ = _
  rw [Inference.object, hasked]
  change Except.ok (Session.judgeIssues reviewer.issueType reply) = _
  rw [Session.judgeIssues, hissues]

theorem exists_ask_quietSession :
  ∃ reply : Json, reply.depth ≤ 126 ∧ ∀ refresh chunk reviewer,
    ((quietSession.issueReview refresh chunk reviewer).ask ()).result = .ok (.usable [] reply)
  := by
  obtain ⟨reply, hreply, hissues, hdepth⟩ := exists_objectIn?_quiet
  use reply, hdepth
  intro refresh chunk reviewer
  apply ask_replyingSession hreply (hissues reviewer.issueType) refresh chunk

end Scrutiny
