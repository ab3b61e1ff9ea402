import CoverageTracker.Controller
set_option autoImplicit false

/-!
# Transitions of a controller

The parts of transitions as single changes of the controller (`untrack_eq`, `track_eq`), what all
transitions have in common (`Renders`), the two things that can become of a completion
(`computed_of_fresh`, `computed_of_stale`), and a poll as the loop that it is: one completion is
taken out of the queue, handed over, and the rest of the queue is polled (`poll_of_cons`).
-/

namespace CoverageTracker

/-- Cancels the computation of a request, if there is one. -/
def Pool.cancelOf {ρ : Type} (request : Option Request) (p : Pool ρ) : Pool ρ :=
  match request with
  | some r => p.cancel r.ticket
  | none => p

namespace Controller

variable {ρ : Type} {c : Controller ρ} {x : Completion}

/-! ## Tracking -/

theorem cancelPending_eq (c : Controller ρ) :
    c.cancelPending =
      { c with
        state := { c.state with pending := none }
        pool := c.pool.cancelOf c.state.pending } := by
  unfold cancelPending
  cases hpending : c.state.pending with
  | some r => rfl
  | none =>
    have hstate : { c.state with pending := none } = c.state := by rw [← hpending]
    rw [hstate]
    rfl

theorem untrack_eq (c : Controller ρ) :
    c.untrack =
      { c with
        state := { c.state with active := none, coverage := none, pending := none }
        pool := c.pool.cancelOf c.state.pending } := by
  rw [untrack, cancelPending_eq]

theorem track_eq (d : Document) (c : Controller ρ) :
    c.track d =
      { c with
        state := { c.state with
          active := some d
          coverage := if c.state.active.any (Document.same · d) then c.state.coverage else none
          pending := some ⟨(c.pool.cancelOf c.state.pending).tasks.length, ⟨c.issued + 1⟩, d⟩ }
        issued := c.issued + 1
        pool := ((c.pool.cancelOf c.state.pending).start ⟨c.issued + 1⟩ d).2 } := by
  rw [track, cancelPending_eq]
  rfl

/-! ## Rendering -/

/-- What a transition does: nothing to a disposed controller; otherwise it makes its changes, tells
the views nothing and applies nothing meanwhile, and renders once at the end. -/
inductive Renders (c : Controller ρ) : Controller ρ → Prop
  | disposed : c.disposed = true → Renders c c
  | once (changed : Controller ρ) : c.disposed = false → changed.disposed = false →
      changed.sinks = c.sinks → changed.applied = c.applied → Renders c changed.render

/-- What tracking leaves as it is. -/
theorem activate_keeps (s : Settings) (d : Option Document) (c : Controller ρ) :
    (c.activate s d).disposed = c.disposed ∧ (c.activate s d).sinks = c.sinks ∧
      (c.activate s d).applied = c.applied := by
  unfold activate
  split
  · split
    · rw [track_eq]
      exact ⟨rfl, rfl, rfl⟩
    · rw [untrack_eq]
      exact ⟨rfl, rfl, rfl⟩
  · rw [untrack_eq]
    exact ⟨rfl, rfl, rfl⟩

theorem renders_activated (s : Settings) (d : Option Document) (c : Controller ρ) :
    Renders c (c.activated s d) := by
  unfold activated
  split
  · rename_i hdisposed
    exact .disposed hdisposed
  · rename_i hdisposed
    have hdisposed : c.disposed = false := by simpa using hdisposed
    obtain ⟨hsame, hsinks, happlied⟩ := c.activate_keeps s d
    exact .once _ hdisposed (hsame.trans hdisposed) hsinks happlied

theorem renders_connection (s : Settings) (connected : Bool) (focus : Option Document)
    (c : Controller ρ) : Renders c (c.connection s connected focus) := by
  unfold connection
  split
  · rename_i hdisposed
    exact .disposed hdisposed
  · rename_i hdisposed
    have hdisposed : c.disposed = false := by simpa using hdisposed
    have hactivate :=
      ({ c with state := { c.state with connected } } : Controller ρ).activate_keeps s
    simp only
    split
    · obtain ⟨hsame, hsinks, happlied⟩ := hactivate none
      exact .once _ hdisposed (hsame.trans hdisposed) hsinks happlied
    · split
      · obtain ⟨hsame, hsinks, happlied⟩ := hactivate focus
        exact .once _ hdisposed (hsame.trans hdisposed) hsinks happlied
      · exact .once _ hdisposed hdisposed rfl rfl

theorem renders_toggle (c : Controller ρ) : Renders c c.toggle := by
  unfold toggle
  split
  · rename_i hdisposed
    exact .disposed hdisposed
  · rename_i hdisposed
    have hdisposed : c.disposed = false := by simpa using hdisposed
    exact .once _ hdisposed hdisposed rfl rfl

theorem Renders.disposed_eq {c' : Controller ρ} (h : c.Renders c') : c'.disposed = c.disposed := by
  cases h with
  | disposed _ => rfl
  | once changed hdisposed hused _ _ => exact hused.trans hdisposed.symm

/-! ## Connectivity and disposal -/

section Connectivity

variable {settings : Settings}

theorem activated_of_used (hdisposed : c.disposed = false) (d : Option Document) :
    c.activated settings d = (c.activate settings d).render := by
  simp [activated, hdisposed]

/-- The controller without its backend. -/
def offline (c : Controller ρ) : Controller ρ :=
  { c with state := { c.state with connected := false } }

/-- A disconnect forgets everything. -/
theorem connection_lost (focus : Option Document) (hdisposed : c.disposed = false) :
    c.connection settings false focus = c.offline.untrack.render := by
  simp [connection, hdisposed, activate, offline]

/-- While the backend stays available nothing changes. -/
theorem connection_still (focus : Option Document) (hdisposed : c.disposed = false)
    (hconnected : c.state.connected = true) :
    c.connection settings true focus = c.render := by
  have hstate : { c.state with connected := true } = c.state := by rw [← hconnected]
  unfold connection
  rw [if_neg (by simp [hdisposed])]
  simp [hconnected, hstate]

theorem connected_activate (d : Option Document) (c : Controller ρ) :
    (c.activate settings d).state.connected = c.state.connected := by
  unfold activate
  split
  · split
    · rw [track_eq]
    · rw [untrack_eq]
  · rw [untrack_eq]

theorem connected_activated (d : Option Document) (c : Controller ρ) :
    (c.activated settings d).state.connected = c.state.connected := by
  unfold activated
  split
  · rfl
  · exact connected_activate d c

/-- A controller in use has the connectivity that was applied. -/
theorem connected_connection (hdisposed : c.disposed = false) (connected : Bool)
    (focus : Option Document) :
    (c.connection settings connected focus).state.connected = connected := by
  unfold connection
  rw [if_neg (by simp [hdisposed])]
  simp only [render]
  split
  · exact connected_activate none _
  · split
    · exact connected_activate focus _
    · rfl

theorem connected_toggle (c : Controller ρ) : c.toggle.state.connected = c.state.connected := by
  unfold toggle
  split <;> rfl

theorem connected_dispose (c : Controller ρ) :
    (c.dispose settings).state.connected = c.state.connected := by
  unfold dispose
  split
  · rfl
  · rw [cancelPending_eq]

theorem disposed_dispose (c : Controller ρ) : (c.dispose settings).disposed = true := by
  unfold dispose
  split
  · assumption
  · rw [cancelPending_eq]

end Connectivity

/-! ## Completions -/

/-- What the application of a completion changes: the completion takes the place of the pending
computation. -/
def accept (x : Completion) (c : Controller ρ) : Controller ρ :=
  { c with
    state := { c.state with pending := none, coverage := x.result }
    applied := c.applied ++ [x] }

theorem computed_of_fresh (hdisposed : c.disposed = false)
    (hfresh : c.pool.isCancelled x.request.ticket = false) :
    c.computed x = (true, (c.accept x).render) := by
  simp [computed, hdisposed, Pool.openCompletion, hfresh, accept]

theorem computed_of_stale
    (hstale : c.disposed = true ∨ c.pool.isCancelled x.request.ticket = true) :
    c.computed x = (false, c) := by
  cases hdisposed : c.disposed with
  | true => simp [computed, hdisposed]
  | false =>
    have hcancelled := hstale.resolve_left (by simp [hdisposed])
    simp [computed, hdisposed, Pool.openCompletion, hcancelled]

/-- A completion is fresh or stale. -/
theorem fresh_or_stale (x : Completion) (c : Controller ρ) :
    (c.disposed = false ∧ c.pool.isCancelled x.request.ticket = false) ∨
      (c.disposed = true ∨ c.pool.isCancelled x.request.ticket = true) := by
  cases c.disposed <;> cases c.pool.isCancelled x.request.ticket <;> simp

/-- What the application of a completion leaves as it is. -/
theorem computed_keeps (x : Completion) (c : Controller ρ) :
    (c.computed x).2.disposed = c.disposed ∧
      (c.computed x).2.state.connected = c.state.connected ∧
      (c.computed x).2.state.active = c.state.active := by
  rcases c.fresh_or_stale x with ⟨hdisposed, hfresh⟩ | hstale
  · rw [c.computed_of_fresh hdisposed hfresh]
    exact ⟨rfl, rfl, rfl⟩
  · rw [c.computed_of_stale hstale]
    exact ⟨rfl, rfl, rfl⟩

/-! ## Polling -/

/-- A controller with another queue of completions. -/
def requeue (queue : List Completion) (c : Controller ρ) : Controller ρ :=
  { c with pool := { c.pool with completions := queue } }

/-- What becomes of a completion does not depend on those behind it. -/
theorem computed_requeue (queue : List Completion) (x : Completion) (c : Controller ρ) :
    (c.requeue queue).computed x = ((c.computed x).1, (c.computed x).2.requeue queue) := by
  rcases fresh_or_stale x c with ⟨hdisposed, hfresh⟩ | hstale
  · rw [computed_of_fresh hdisposed hfresh,
      computed_of_fresh (c := c.requeue queue) hdisposed hfresh]
    rfl
  · rw [computed_of_stale hstale, computed_of_stale (c := c.requeue queue) hstale]

theorem foldl_count_add (k : Nat) : ∀ (queue : List Completion) (n : Nat) (c : Controller ρ),
    queue.foldl count (k + n, c) =
      (k + (queue.foldl count (n, c)).1, (queue.foldl count (n, c)).2) := by
  intro queue
  induction queue with
  | nil =>
    intro n c
    rfl
  | cons x queue ih =>
    intro n c
    have hcount : count (k + n, c) x = (k + (count (n, c) x).1, (count (n, c) x).2) := by
      simp only [count]
      split
      · rfl
      · rfl
    rw [List.foldl_cons, List.foldl_cons, hcount, ih]

theorem poll_of_nil (h : c.pool.completions = []) : c.poll = (0, c) := by
  have hqueue : { c.pool with completions := [] } = c.pool := by rw [← h]
  rw [poll, h, hqueue]
  rfl

/-- The oldest completion is handed over, and then the others are polled. -/
theorem poll_of_cons {rest : List Completion} (h : c.pool.completions = x :: rest) :
    c.poll =
      ((if ((c.requeue rest).computed x).1 then 1 else 0) + ((c.requeue rest).computed x).2.poll.1,
        ((c.requeue rest).computed x).2.poll.2) := by
  have hfirst : c.poll =
      rest.foldl count ((if (c.computed x).1 then 1 else 0) + 0, (c.computed x).2.requeue []) := by
    have hcomputed := computed_requeue [] x c
    rw [requeue] at hcomputed
    rw [poll, h, List.foldl_cons, count, hcomputed]
    simp
  have hrest : ((c.requeue rest).computed x).2.poll =
      rest.foldl count (0, (c.computed x).2.requeue []) := by
    rw [computed_requeue]
    rfl
  rw [hfirst, foldl_count_add, hrest, computed_requeue]

/-- The completions that a poll hands over, each with the controller that it is handed to. -/
def handed : List Completion → Controller ρ → List (Completion × Controller ρ)
  | [], _ => []
  | x :: rest, c => (x, c.requeue rest) :: handed rest ((c.requeue rest).computed x).2

/-- Handing a completion over is no business of the pool. -/
theorem pool_computed (x : Completion) (c : Controller ρ) : (c.computed x).2.pool = c.pool := by
  rcases fresh_or_stale x c with ⟨hdisposed, hfresh⟩ | hstale
  · rw [computed_of_fresh hdisposed hfresh]
    rfl
  · rw [computed_of_stale hstale]

theorem completions_computed (x : Completion) (c : Controller ρ) :
    (c.computed x).2.pool.completions = c.pool.completions := by
  rw [pool_computed]

/-- A poll empties the queue and leaves the rest of the pool alone. -/
theorem pool_poll (c : Controller ρ) : c.poll.2.pool = { c.pool with completions := [] } := by
  generalize hqueue : c.pool.completions = queue
  induction queue generalizing c with
  | nil =>
    rw [poll_of_nil hqueue, ← hqueue]
  | cons x rest ih =>
    rw [poll_of_cons hqueue, ih _ (completions_computed x _), pool_computed]
    rfl

end Controller

end CoverageTracker
