import CoverageTracker.Proofs.Pool.Schedule
import CoverageTracker.Proofs.Session.Exclusive
set_option autoImplicit false

/-!
# What holds of a controller throughout every session

`Holding.Sound` collects the invariants of a controller and its computations: the line of the
backend, the turns of the tasks, and the completions that count.  Every step and every
disturbance keeps it, so every session does (`sound_playAll`).
-/

namespace CoverageTracker

variable {ρ : Type} {m : Meaning ρ} {settings : Settings}

namespace Pool

variable {p : Pool ρ} {request : Option Request}

theorem Lined.cancelOf (h : p.Lined) : (p.cancelOf request).Lined := by
  cases request with
  | none => exact h
  | some r => exact h.cancel r.ticket

theorem Scheduled.cancelOf (h : p.Scheduled) : (p.cancelOf request).Scheduled := by
  cases request with
  | none => exact h
  | some r => exact h.cancel r.ticket

theorem grows_cancelOf (request : Option Request) (p : Pool ρ) : Grows p (p.cancelOf request) := by
  cases request with
  | none => exact grows_of_tasks_eq rfl
  | some r => exact grows_cancel r.ticket p

@[simp] theorem isOpen_cancelOf : (p.cancelOf request).isOpen = p.isOpen := by
  cases request <;> rfl

@[simp] theorem completions_cancelOf : (p.cancelOf request).completions = p.completions := by
  cases request <;> rfl

end Pool

namespace Holding

/-- What holds of a controller and its computations throughout. -/
structure Sound (a : Holding ρ) : Prop where
  isOpen : a.controller.pool.isOpen = !a.dropped
  /-- a controller that is not used any more has no pending request -/
  ended : a.controller.disposed = true ∨ a.dropped = true → a.controller.state.pending = none
  lined : a.controller.pool.Lined
  scheduled : a.controller.pool.Scheduled
  exclusive : Exclusive a.controller.pool.tasks a.controller.state.pending a.outstanding

variable {a b : Holding ρ} {c : Controller ρ} {dropped : Bool} {held : List Completion}

theorem sound_create (showUncovered : Bool) :
    Sound (⟨Controller.create showUncovered, false, []⟩ : Holding ρ) where
  isOpen := rfl
  ended := fun _ => rfl
  lined := .empty
  scheduled := .empty
  exclusive := .empty

/-- A held completion that is not cancelled is the one of the pending request. -/
theorem Sound.pending_of_fresh {x : Completion} (h : Sound a) (hx : x ∈ a.held)
    (hfresh : a.controller.pool.isCancelled x.ticket = false) :
    a.controller.state.pending = some x.request :=
  h.exclusive.pending_eq (List.mem_append_right _ hx) hfresh

/-! ## Steps -/

theorem Sound.evolve {q : Pool ρ} (h : Sound ⟨c, dropped, held⟩)
    (hevolves : Pool.Evolves m c.pool q) (hlined : q.Lined) (hscheduled : q.Scheduled) :
    Sound ⟨{ c with pool := q }, dropped, held⟩ where
  isOpen := hevolves.isOpen.trans h.isOpen
  ended := h.ended
  lined := hlined
  scheduled := hscheduled
  exclusive := h.exclusive.evolve hevolves

/-- The pending request is cancelled and forgotten, whatever else changes. -/
theorem Sound.release (m : Meaning ρ) {state : State} {disposed : Bool}
    (h : Sound ⟨c, dropped, held⟩) (hpending : state.pending = none) :
    Sound ⟨{ c with state, disposed, pool := c.pool.cancelOf c.state.pending }, dropped, held⟩ where
  isOpen := Pool.isOpen_cancelOf.trans h.isOpen
  ended := fun _ => hpending
  lined := h.lined.cancelOf
  scheduled := h.scheduled.cancelOf
  exclusive := by
    have hexclusive := h.exclusive.cancelOf m
    simp only [outstanding, Pool.completions_cancelOf, hpending] at hexclusive ⊢
    exact hexclusive

theorem Sound.track (m : Meaning ρ) (h : Sound ⟨c, false, held⟩) (d : Document)
    (hdisposed : c.disposed = false) : Sound ⟨c.track d, false, held⟩ := by
  have hrelease : Sound ⟨{ c with
      state := { c.state with pending := none }
      pool := c.pool.cancelOf c.state.pending }, false, held⟩ := h.release m rfl
  rw [Controller.track_eq]
  refine ⟨hrelease.isOpen, ?_, hrelease.lined.start _ d, hrelease.scheduled.start _ d,
    hrelease.exclusive.start _ d⟩
  simp [hdisposed]

theorem Sound.step (h : Sound a) (hstep : Step settings m a b) : Sound b := by
  cases hstep with
  | progress t c dropped held =>
    exact h.evolve (Pool.evolves_progress (m := m) t c.pool) (h.lined.progress t)
      (h.scheduled.progress t)
  | resolve uri reply c dropped held =>
    exact h.evolve (Pool.evolves_resolve (m := m) h.lined uri reply) (h.lined.resolve uri reply).1
      (h.scheduled.resolve h.lined uri reply)
  | answer t reply c dropped held =>
    exact h.evolve (Pool.evolves_answer (m := m) t reply c.pool) (h.lined.answer t reply)
      (h.scheduled.answer t reply)
  | display _ _ c held => exact ⟨h.isOpen, h.ended, h.lined, h.scheduled, h.exclusive⟩
  | connect c held _ => exact ⟨h.isOpen, h.ended, h.lined, h.scheduled, h.exclusive⟩
  | disconnect c held _ =>
    rw [Controller.untrack_eq]
    exact h.release m rfl
  | untrack c held _ =>
    rw [Controller.untrack_eq]
    exact h.release m rfl
  | track d c held hdisposed _ _ => exact h.track m d hdisposed
  | receive x rest c held hqueue =>
    refine ⟨h.isOpen, h.ended, h.lined.congr rfl fun _ _ => Iff.rfl, h.scheduled.congr rfl rfl, ?_⟩
    refine h.exclusive.perm ?_
    have hperm : ([x] ++ (rest ++ held)).Perm (rest ++ held ++ [x]) := List.perm_append_comm
    simp only [outstanding, hqueue, Controller.requeue, ← List.append_assoc]
    exact hperm
  | accept x c before after hdisposed hfresh =>
    refine ⟨h.isOpen, fun _ => rfl, h.lined, h.scheduled, ?_⟩
    have hexclusive := h.exclusive
    simp only [outstanding, Controller.accept, ← List.append_assoc] at hexclusive ⊢
    exact hexclusive.consume hfresh
  | ignore x c before after _ =>
    refine ⟨h.isOpen, h.ended, h.lined, h.scheduled, h.exclusive.sublist ?_⟩
    exact ((List.sublist_cons_self x after).append_left before).append_left _
  | dispose c held _ =>
    rw [Controller.cancelPending_eq]
    exact h.release m rfl
  | drop c held =>
    have hrelease : Sound ⟨{ c with
        state := { c.state with pending := none }
        pool := c.pool.cancelOf c.state.pending }, false, held⟩ := h.release m rfl
    unfold Controller.drop
    rw [Controller.cancelPending_eq]
    refine ⟨rfl, fun _ => rfl, hrelease.lined.congr rfl fun _ _ => Iff.rfl,
      hrelease.scheduled.congr rfl rfl, hrelease.exclusive.sublist ?_⟩
    exact List.sublist_append_right _ held

/-- Tasks only become what tasks can become. -/
theorem Sound.grows_step (h : Sound a) (hstep : Step settings m a b) :
    a.controller.pool.Grows b.controller.pool := by
  cases hstep with
  | progress t c dropped held => exact (Pool.evolves_progress (m := m) t c.pool).grows
  | resolve uri reply c dropped held =>
    exact (Pool.evolves_resolve (m := m) h.lined uri reply).grows
  | answer t reply c dropped held => exact (Pool.evolves_answer (m := m) t reply c.pool).grows
  | display _ _ c held => exact Pool.grows_of_tasks_eq rfl
  | connect c held _ => exact Pool.grows_of_tasks_eq rfl
  | disconnect c held _ =>
    rw [Controller.untrack_eq]
    exact Pool.grows_cancelOf _ c.pool
  | untrack c held _ =>
    rw [Controller.untrack_eq]
    exact Pool.grows_cancelOf _ c.pool
  | track d c held _ _ _ =>
    rw [Controller.track_eq]
    exact (Pool.grows_cancelOf _ c.pool).trans (Pool.grows_start _ d _)
  | receive x rest c held _ => exact Pool.grows_of_tasks_eq rfl
  | accept x c before after _ _ => exact Pool.grows_of_tasks_eq rfl
  | ignore x c before after _ => exact Pool.grows_of_tasks_eq rfl
  | dispose c held _ =>
    rw [Controller.cancelPending_eq]
    exact Pool.grows_cancelOf _ c.pool
  | drop c held =>
    rw [Controller.drop, Controller.cancelPending_eq]
    exact (Pool.grows_cancelOf _ c.pool).trans (Pool.grows_of_tasks_eq rfl)

theorem grows_disturb (hdisturbance : Disturbance a b) :
    a.controller.pool.Grows b.controller.pool := by
  cases hdisturbance with
  | cancel r c held _ => exact Pool.grows_cancel r.ticket c.pool
  | forget x c dropped before after => exact Pool.grows_of_tasks_eq rfl

theorem Sound.disturb (m : Meaning ρ) (h : Sound a) (hdisturbance : Disturbance a b) : Sound b := by
  cases hdisturbance with
  | cancel r c held _ =>
    exact h.evolve (Pool.evolves_cancel (m := m) r.ticket c.pool) (h.lined.cancel r.ticket)
      (h.scheduled.cancel r.ticket)
  | forget x c dropped before after =>
    refine ⟨h.isOpen, h.ended, h.lined, h.scheduled, h.exclusive.sublist ?_⟩
    exact ((List.sublist_cons_self x after).append_left before).append_left _

end Holding

namespace Session

variable {s : Session ρ}

/-- Whatever every step of a sound controller and every disturbance keeps, every session keeps. -/
theorem playAll_keeps_of_sound {P : Holding ρ → Prop} (moves : List (Move ρ))
    (hsound : s.holding.Sound)
    (hstep : ∀ a b, a.Sound → Holding.Step settings m a b → P a → P b)
    (hdisturbance : ∀ a b, Holding.Disturbance a b → P a → P b) (h : P s.holding) :
    (s.playAll settings m moves).holding.Sound ∧ P (s.playAll settings m moves).holding := by
  refine playAll_keeps (P := fun a => a.Sound ∧ P a) moves ?_ ?_ ⟨hsound, h⟩
  · rintro a b hab ⟨hsound, ha⟩
    exact ⟨hsound.step hab, hstep a b hsound hab ha⟩
  · rintro a b hab ⟨hsound, ha⟩
    exact ⟨hsound.disturb m hab, hdisturbance a b hab ha⟩

theorem sound_playAll (settings : Settings) (m : Meaning ρ) (showUncovered : Bool)
    (moves : List (Move ρ)) :
    ((create showUncovered).playAll settings m moves).holding.Sound :=
  (playAll_keeps_of_sound (P := fun _ => True) moves (Holding.sound_create showUncovered)
    (fun _ _ _ _ _ => trivial) (fun _ _ _ _ => trivial) trivial).1

/-- Between two moments of a session tasks only become what tasks can become. -/
theorem grows_playAll (hsound : s.holding.Sound) (moves : List (Move ρ)) :
    s.controller.pool.Grows (s.playAll settings m moves).controller.pool :=
  (playAll_keeps_of_sound (P := fun a => s.controller.pool.Grows a.controller.pool) moves hsound
    (fun _ _ hsound hstep h => h.trans (hsound.grows_step hstep))
    (fun _ _ hdisturbance h => h.trans (Holding.grows_disturb hdisturbance))
    (Pool.grows_of_tasks_eq rfl)).2

end Session

end CoverageTracker
