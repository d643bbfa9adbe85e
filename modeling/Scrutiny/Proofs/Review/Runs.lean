import Scrutiny.Proofs.Review.Concurrent
import Scrutiny.Review.Runs

/-!
# Runs in some order

A run that carries out one review after the other is one of the runs with groups of reviews.  What each
action and each group keeps of the files, a run keeps.
-/

namespace Scrutiny

variable {μ α β : Type}

/-- The world of a run, and the orders that its groups still take. -/
abbrev RunState (μ : Type) := World μ × List (List Nat)

namespace OrderedAction

theorem bind_eq (action : OrderedAction μ α) (later : α → OrderedAction μ β)
    (state : RunState μ) :
  (action >>= later) state
    = (action state).bind fun
      | (.ok a, next) => later a next
      | (.error e, next) => some (.error e, next)
  := by
  change (action state).bind _ = _
  congr
  funext ⟨result, next⟩
  cases result <;> rfl

theorem tryCatch_eq (action : OrderedAction μ α) (handler : ReviewError → OrderedAction μ α)
    (state : RunState μ) :
  tryCatch action handler state
    = (action state).bind fun
      | (.ok a, next) => some (.ok a, next)
      | (.error e, next) => handler e next
  := by
  change (action state).bind _ = _
  congr
  funext ⟨result, next⟩
  cases result <;> rfl

section

variable {action : OrderedAction μ α} {later : α → OrderedAction μ β} {a : α} {e : ReviewError}
  {state next : RunState μ}

theorem bind_of_ok (later : α → OrderedAction μ β) (h : action state = some (.ok a, next)) :
  (action >>= later) state = later a next
  := by
  rw [bind_eq, h]
  rfl

theorem bind_of_error (later : α → OrderedAction μ β) (h : action state = some (.error e, next)) :
  (action >>= later) state = some (.error e, next)
  := by
  rw [bind_eq, h]
  rfl

theorem of_bind {result : Except ReviewError β} (h : (action >>= later) state = some (result, next)) :
  (∃ e, action state = some (.error e, next) ∧ result = .error e)
    ∨ ∃ a middle, action state = some (.ok a, middle) ∧ later a middle = some (result, next)
  := by
  rw [bind_eq] at h
  obtain ⟨⟨found, middle⟩, hfound, h⟩ := Option.bind_eq_some_iff.mp h
  cases found with
  | error e =>
      obtain ⟨rfl, rfl⟩ := Prod.mk.inj (Option.some.inj h)
      exact .inl ⟨e, hfound, rfl⟩
  | ok a => exact .inr ⟨a, middle, hfound, h⟩

section

variable {handler : ReviewError → OrderedAction μ α}

theorem tryCatch_of_ok (handler : ReviewError → OrderedAction μ α) (h : action state = some (.ok a, next)) :
  tryCatch action handler state = some (.ok a, next)
  := by
  rw [tryCatch_eq, h]
  rfl

theorem tryCatch_of_error (handler : ReviewError → OrderedAction μ α)
    (h : action state = some (.error e, next)) :
  tryCatch action handler state = handler e next
  := by
  rw [tryCatch_eq, h]
  rfl

end

theorem of_pure {result : Except ReviewError α}
    (h : (pure a : OrderedAction μ α) state = some (result, next)) :
  result = .ok a ∧ state = next
  := by
  obtain ⟨rfl, rfl⟩ := Prod.mk.inj (Option.some.inj h)
  exact ⟨rfl, rfl⟩

theorem of_lift {lifted : ReviewAction μ α} {result : Except ReviewError α}
    (h : lift lifted state = some (result, next)) :
  lifted state.1 = (result, next.1) ∧ state.2 = next.2
  := by
  obtain ⟨rfl, rfl⟩ := Prod.mk.inj (Option.some.inj h)
  exact ⟨rfl, rfl⟩

theorem lift_of_eq {lifted : ReviewAction μ α} {world later : World μ} {result : Except ReviewError α}
    (h : lifted world = (result, later)) (orders : List (List Nat)) :
  lift lifted (world, orders) = some (result, later, orders)
  := by
  change some ((lifted world).1, (lifted world).2, orders) = _
  rw [h]

theorem look_bind (view : FileTree → α) (later : α → OrderedAction μ β) (state : RunState μ) :
  (lift (ReviewAction.look view) >>= later) state = later (view state.1.files) state
  := bind_of_ok later rfl

theorem of_group {grouped : List Nat → World μ → Option (Except ReviewError α × World μ)}
    {result : Except ReviewError α} (h : group grouped state = some (result, next)) :
  ∃ order, state.2 = order :: next.2 ∧ grouped order state.1 = some (result, next.1)
  := by
  obtain ⟨world, orders⟩ := state
  cases orders with
  | nil => cases h
  | cons order rest =>
      obtain ⟨⟨found, last⟩, hfound, heq⟩ := Option.map_eq_some_iff.mp h
      cases heq
      exact ⟨order, rfl, hfound⟩

theorem group_congr {grouped grouped' : List Nat → World μ → Option (Except ReviewError α × World μ)}
    {world : World μ} (h : ∀ order, grouped order world = grouped' order world)
    (orders : List (List Nat)) :
  group grouped (world, orders) = group grouped' (world, orders)
  := by
  cases orders with
  | nil => rfl
  | cons order rest =>
      change (grouped order world).map _ = (grouped' order world).map _
      rw [h]

theorem group_of_eq_some {grouped : List Nat → World μ → Option (Except ReviewError α × World μ)}
    {result : Except ReviewError α} {world last : World μ} {order : List Nat}
    (h : grouped order world = some (result, last)) (rest : List (List Nat)) :
  group grouped (world, order :: rest) = some (result, last, rest)
  := by
  change (grouped order world).map _ = _
  rw [h]
  rfl

end

/-! ### One review after the other -/

/-- An action does what another one with groups does if these take certain orders. -/
def Follows (action : ReviewAction μ α) (ordered : OrderedAction μ α) : Prop :=
  ∀ world, ∃ orders, ∀ rest,
    ordered (world, orders ++ rest) = some ((action world).1, (action world).2, rest)

namespace Follows

theorem lift (action : ReviewAction μ α) :
  Follows action (lift action)
  := fun _ => ⟨[], fun _ => rfl⟩

theorem pure (a : α) :
  Follows (pure a) (pure a : OrderedAction μ α)
  := fun _ => ⟨[], fun _ => rfl⟩

theorem throw (e : ReviewError) :
  Follows (throw e) (throw e : OrderedAction μ α)
  := fun _ => ⟨[], fun _ => rfl⟩

theorem group {action : ReviewAction μ α}
    {grouped : List Nat → World μ → Option (Except ReviewError α × World μ)}
    (h : ∀ world, ∃ order, grouped order world = some (action world)) :
  Follows action (group grouped)
  := by
  intro world
  obtain ⟨order, horder⟩ := h world
  use [order]
  intro rest
  apply group_of_eq_some horder

theorem bind {action : ReviewAction μ α} {later : α → ReviewAction μ β} {ordered : OrderedAction μ α}
    {orderedLater : α → OrderedAction μ β} (h : Follows action ordered)
    (hlater : ∀ a, Follows (later a) (orderedLater a)) :
  Follows (action >>= later) (ordered >>= orderedLater)
  := by
  intro world
  obtain ⟨orders, horders⟩ := h world
  rcases haction : action world with ⟨e | a, middle⟩
  · use orders
    intro rest
    rw [bind_eq, horders, haction, ReviewAction.bind_of_error later haction]
    rfl
  · obtain ⟨orders', horders'⟩ := hlater a middle
    use orders ++ orders'
    intro rest
    rw [bind_eq, List.append_assoc, horders, haction, ReviewAction.bind_of_ok later haction]
    apply horders'

theorem tryCatch {action : ReviewAction μ α} {handler : ReviewError → ReviewAction μ α}
    {ordered : OrderedAction μ α} {orderedHandler : ReviewError → OrderedAction μ α}
    (h : Follows action ordered) (hhandler : ∀ e, Follows (handler e) (orderedHandler e)) :
  Follows (tryCatch action handler) (tryCatch ordered orderedHandler)
  := by
  intro world
  obtain ⟨orders, horders⟩ := h world
  rcases haction : action world with ⟨e | a, middle⟩
  · obtain ⟨orders', horders'⟩ := hhandler e middle
    use orders ++ orders'
    intro rest
    rw [tryCatch_eq, List.append_assoc, horders, haction, ReviewAction.tryCatch_of_error haction]
    apply horders'
  · use orders
    intro rest
    rw [tryCatch_eq, horders, haction, ReviewAction.tryCatch_of_ok haction]
    rfl

theorem foldlM {f : β → α → ReviewAction μ β} {ordered : β → α → OrderedAction μ β}
    (h : ∀ b a, Follows (f b a) (ordered b a)) (list : List α) (start : β) :
  Follows (list.foldlM f start) (list.foldlM ordered start)
  := by
  induction list generalizing start with
  | nil => apply pure
  | cons a rest ih =>
      rw [List.foldlM_cons, List.foldlM_cons]
      apply bind (h start a)
      intro next
      apply ih

end Follows

/-! ### What is kept of the files -/

/-- What holds of the files before an action holds of them afterwards, in any order and whatever comes
of it. -/
def Maintains (P : FileTree → Prop) (action : OrderedAction μ α) : Prop :=
  ∀ world orders result later rest, P world.files →
    action (world, orders) = some (result, later, rest) → P later.files

namespace Maintains

variable {P : FileTree → Prop}

theorem lift {action : ReviewAction μ α} (h : ∀ world, P world.files → P (action world).2.files) :
  Maintains P (lift action)
  := by
  intro world orders result later rest hfiles haction
  cases haction
  apply h world hfiles

theorem pure (a : α) :
  Maintains P (pure a : OrderedAction μ α)
  := @lift μ α P (Pure.pure a) fun _ h => h

theorem throw (e : ReviewError) :
  Maintains P (throw e : OrderedAction μ α)
  := @lift μ α P (MonadExcept.throw e) fun _ h => h

theorem group {action : List Nat → World μ → Option (Except ReviewError α × World μ)}
    (h : ∀ order world result later, P world.files →
      action order world = some (result, later) → P later.files) :
  Maintains P (group action)
  := by
  intro world orders result later rest hfiles haction
  cases orders with
  | nil => cases haction
  | cons order others =>
      obtain ⟨⟨found, next⟩, hfound, heq⟩ := Option.map_eq_some_iff.mp haction
      cases heq
      apply h order world result later hfiles hfound

theorem bind {action : OrderedAction μ α} {later : α → OrderedAction μ β} (h : Maintains P action)
    (hlater : ∀ a, Maintains P (later a)) :
  Maintains P (action >>= later)
  := by
  intro world orders result last rest hfiles haction
  rw [bind_eq] at haction
  obtain ⟨⟨found, middle, others⟩, hfound, haction⟩ := Option.bind_eq_some_iff.mp haction
  have hmiddle := h world orders found middle others hfiles hfound
  cases found with
  | error e =>
      cases haction
      apply hmiddle
  | ok a => apply hlater a middle others result last rest hmiddle haction

theorem tryCatch {action : OrderedAction μ α} {handler : ReviewError → OrderedAction μ α}
    (h : Maintains P action) (hhandler : ∀ e, Maintains P (handler e)) :
  Maintains P (tryCatch action handler)
  := by
  intro world orders result last rest hfiles haction
  rw [tryCatch_eq] at haction
  obtain ⟨⟨found, middle, others⟩, hfound, haction⟩ := Option.bind_eq_some_iff.mp haction
  have hmiddle := h world orders found middle others hfiles hfound
  cases found with
  | error e => apply hhandler e middle others result last rest hmiddle haction
  | ok a =>
      cases haction
      apply hmiddle

theorem foldlM {f : β → α → OrderedAction μ β} (h : ∀ b a, Maintains P (f b a)) (list : List α)
    (start : β) :
  Maintains P (list.foldlM f start)
  := by
  induction list generalizing start with
  | nil => apply pure
  | cons a rest ih =>
      rw [List.foldlM_cons]
      apply bind (h start a)
      intro next
      apply ih

end Maintains

end OrderedAction

/-! ### Runs that carry out one review after the other -/

namespace Session

open OrderedAction

/-- The audit of a file that carries out one review after the other is one of those in some order. -/
theorem follows_auditSingle (session : Session μ) (path : String) (force : Bool) (out : Option String) :
  Follows (session.auditSingle path force out) (session.auditSingleInOrder path force out)
  := by
  apply Follows.bind (Follows.group (session.exists_auditFileBy?_eq path _ force))
  intro audit
  split
  · apply Follows.pure
  · apply Follows.bind (Follows.lift _)
    intro _
    apply Follows.pure

theorem follows_auditMember (session : Session μ) (root : String) (force : Bool) (out : Option String)
    (progress : AuditProgress) (path : String) :
  Follows (session.auditMember root force out progress path)
    (session.auditMemberInOrder root force out progress path)
  := by
  apply Follows.tryCatch
  · apply Follows.bind (Follows.group (session.exists_auditFileBy?_eq path root force))
    intro audit
    split
    · apply Follows.pure
    · apply Follows.bind (Follows.lift _)
      intro _
      apply Follows.pure
  · intro e
    split
    · apply Follows.throw
    · apply Follows.pure

/-- The audit of a project that carries out one review after the other is one of those in some order. -/
theorem follows_auditProject (session : Session μ) (folder : String) (force : Bool)
    (out : Option String) :
  Follows (session.auditProject folder force out) (session.auditProjectInOrder folder force out)
  := by
  apply Follows.bind (Follows.lift _)
  intro root
  apply Follows.bind (Follows.lift _)
  intro files
  apply Follows.bind (Follows.foldlM (session.follows_auditMember root force out) files _)
  intro progress
  apply Follows.bind (Follows.lift _)
  intro _
  apply Follows.pure

theorem exists_explainChunksBy?_eq (session : Session μ) (refresh : Bool) (chunks : List Chunk)
    (world : World μ) :
  ∃ order, session.explainChunksBy? refresh chunks order world
    = some (chunks.mapM (session.explainChunk refresh) world)
  := by
  obtain ⟨order, last, hrun, hworld, houtcome⟩ :=
    Schedule.exists_run?_eq_mapM session world (chunks.map (session.rationaleReview refresh))
  use order
  rw [explainChunksBy?, hrun, Option.bind_eq_bind, Option.bind_some, houtcome, hworld, List.mapM_map]
  rfl

theorem follows_explainFile (session : Session μ) (root storePath : String) (force : Bool)
    (progress : RationaleProgress) (path : String) :
  Follows (session.explainFile root storePath force progress path)
    (session.explainFileInOrder root storePath force progress path)
  := by
  apply Follows.bind (Follows.lift _)
  rintro (_ | chunks)
  · apply Follows.pure
  · dsimp only
    split
    · apply Follows.pure
    · apply Follows.bind (Follows.group (session.exists_explainChunksBy?_eq force _))
      intro outcomes
      apply Follows.bind (Follows.lift _)
      intro _
      apply Follows.pure

/-- The extraction that explains one chunk after the other is one of those in some order. -/
theorem follows_extractRationale (session : Session μ) (folder : String) (force : Bool) :
  Follows (session.extractRationale folder force) (session.extractRationaleInOrder folder force)
  := by
  apply Follows.bind (Follows.lift _)
  intro root
  apply Follows.bind (Follows.lift _)
  intro _
  apply Follows.bind (Follows.lift _)
  intro store
  apply Follows.bind (Follows.lift _)
  intro files
  apply Follows.bind (Follows.foldlM (session.follows_explainFile root _ force) files _)
  intro progress
  apply Follows.pure

end Session

end Scrutiny
