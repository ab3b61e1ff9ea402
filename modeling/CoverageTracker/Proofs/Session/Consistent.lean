import CoverageTracker.Proofs.Session.Sound
set_option autoImplicit false

/-!
# The fields of a controller agree

A document is tracked only while the backend is available, a result and a pending request are of
the tracked document, and the pending request is the last one that was issued.  The numbers of
requests and the tickets of their tasks run in step, so a request that was issued later has the
greater number.
-/

namespace CoverageTracker

variable {ρ : Type} {m : Meaning ρ} {settings : Settings}

namespace Controller

/-- The fields of a controller agree with each other and with its tasks. -/
structure Consistent (c : Controller ρ) : Prop where
  connected : ∀ d, c.state.active = some d → c.state.connected = true
  active : ∀ r, c.state.coverage = some r → ∃ d, c.state.active = some d
  pending : ∀ r, c.state.pending = some r →
    c.state.active = some r.document ∧ r.id.number = c.issued
  issued : c.issued = c.pool.tasks.length
  numbered : ∀ (t : Ticket) (a : Task ρ), c.pool.tasks[t]? = some a → a.id.number = t + 1

namespace Consistent

variable {c : Controller ρ}

theorem create (showUncovered : Bool) : (create showUncovered : Controller ρ).Consistent where
  connected := by
    intro d hd
    cases hd
  active := by
    intro r hr
    cases hr
  pending := by
    intro r hr
    cases hr
  issued := rfl
  numbered := by
    intro t a ha
    simp [Controller.create, Pool.empty] at ha

/-- While the backend is not available no document is tracked. -/
theorem active_of_disconnected (h : c.Consistent) (hdisconnected : c.state.connected = false) :
    c.state.active = none := by
  refine Option.eq_none_iff_forall_ne_some.mpr fun d hd => ?_
  rw [h.connected d hd] at hdisconnected
  cases hdisconnected

/-- Without a tracked document nothing is known and nothing is pending. -/
theorem idle_of_untracked (h : c.Consistent) (huntracked : c.state.active = none) :
    c.state.coverage = none ∧ c.state.pending = none := by
  refine ⟨Option.eq_none_iff_forall_ne_some.mpr fun r hr => ?_,
    Option.eq_none_iff_forall_ne_some.mpr fun r hr => ?_⟩
  · obtain ⟨d, hd⟩ := h.active r hr
    rw [huntracked] at hd
    cases hd
  · have hactive := (h.pending r hr).1
    rw [huntracked] at hactive
    cases hactive

theorem evolve {q : Pool ρ} (h : c.Consistent) (hevolves : Pool.Evolves m c.pool q) :
    { c with pool := q }.Consistent where
  connected := h.connected
  active := h.active
  pending := h.pending
  issued := h.issued.trans hevolves.length.symm
  numbered := by
    intro t b hb
    obtain ⟨a, ha, hab⟩ := hevolves.becomes_of_later hb
    rw [hab.id]
    exact h.numbered t a ha

theorem cancelOf (m : Meaning ρ) (h : c.Consistent) (request : Option Request) :
    { c with pool := c.pool.cancelOf request }.Consistent := by
  cases request with
  | none => exact h
  | some r => exact h.evolve (Pool.evolves_cancel (m := m) r.ticket c.pool)

theorem untrack (m : Meaning ρ) (h : c.Consistent) (connected : Bool) :
    { c with state := { c.state with connected } }.untrack.Consistent := by
  rw [untrack_eq]
  have hpool := h.cancelOf m c.state.pending
  refine ⟨?_, ?_, ?_, hpool.issued, hpool.numbered⟩
  · intro d hd
    cases hd
  · intro r hr
    cases hr
  · intro r hr
    cases hr

theorem track (m : Meaning ρ) (h : c.Consistent) (d : Document)
    (hconnected : c.state.connected = true) : (c.track d).Consistent := by
  have hpool := h.cancelOf m c.state.pending
  rw [track_eq]
  refine ⟨fun _ _ => hconnected, fun _ _ => ⟨d, rfl⟩, ?_, ?_, ?_⟩
  · intro r hr
    cases hr
    exact ⟨rfl, rfl⟩
  · have hissued := hpool.issued
    simp only [Pool.start, List.length_append, List.length_singleton] at hissued ⊢
    omega
  · intro t a ha
    rcases Pool.getElem?_start.mp ha with ha | ⟨rfl, rfl⟩
    · exact hpool.numbered t a ha
    · have hissued := hpool.issued
      simp only at hissued ⊢
      omega

/-- A fresh completion is of the active document, so its result may be shown. -/
theorem accept {x : Completion} (h : c.Consistent) (hpending : c.state.pending = some x.request) :
    (c.accept x).Consistent where
  connected := h.connected
  active := fun _ _ => ⟨_, (h.pending _ hpending).1⟩
  pending := by
    intro r hr
    cases hr
  issued := h.issued
  numbered := h.numbered

/-- Only the pending request is given up. -/
theorem cancelPending (m : Meaning ρ) (h : c.Consistent) (disposed : Bool) :
    { c with disposed }.cancelPending.Consistent := by
  rw [cancelPending_eq]
  have hpool := h.cancelOf m c.state.pending
  refine ⟨h.connected, h.active, ?_, hpool.issued, hpool.numbered⟩
  intro r hr
  cases hr

end Consistent

end Controller

namespace Holding

variable {a b : Holding ρ}

theorem Sound.consistent_step (hsound : Sound a) (h : a.controller.Consistent)
    (hstep : Step settings m a b) : b.controller.Consistent := by
  cases hstep with
  | progress t c dropped held => exact h.evolve (Pool.evolves_progress (m := m) t c.pool)
  | resolve uri reply c dropped held =>
    exact h.evolve (Pool.evolves_resolve (m := m) hsound.lined uri reply)
  | answer t reply c dropped held =>
    exact h.evolve (Pool.evolves_answer (m := m) t reply c.pool)
  | display _ _ c held => exact ⟨h.connected, h.active, h.pending, h.issued, h.numbered⟩
  | connect c held _ => exact ⟨fun _ _ => rfl, h.active, h.pending, h.issued, h.numbered⟩
  | disconnect c held _ => exact h.untrack m false
  | untrack c held _ => exact h.untrack m c.state.connected
  | track d c held _ hconnected _ => exact h.track m d hconnected
  | receive x rest c held _ => exact ⟨h.connected, h.active, h.pending, h.issued, h.numbered⟩
  | accept x c before after _ hfresh =>
    exact h.accept (hsound.pending_of_fresh (by simp) hfresh)
  | ignore x c before after _ => exact h
  | dispose c held _ => exact h.cancelPending m true
  | drop c held =>
    have hcancelled := h.cancelPending m c.disposed
    exact ⟨hcancelled.connected, hcancelled.active, hcancelled.pending, hcancelled.issued,
      hcancelled.numbered⟩

/-- Whatever every step of a sound and consistent controller keeps, any number of steps keeps. -/
theorem Steps.keeps_of_consistent {P : Holding ρ → Prop} (h : Steps settings m a b)
    (hstep : ∀ a b, a.Sound → a.controller.Consistent → Step settings m a b → P a → P b)
    (hsound : a.Sound) (hconsistent : a.controller.Consistent) (ha : P a) :
    b.Sound ∧ b.controller.Consistent ∧ P b := by
  refine h.induction (P := fun a => a.Sound ∧ a.controller.Consistent ∧ P a) ?_
    ⟨hsound, hconsistent, ha⟩
  rintro a b hab ⟨hsound, hconsistent, ha⟩
  exact ⟨hsound.step hab, hsound.consistent_step hconsistent hab,
    hstep a b hsound hconsistent hab ha⟩

theorem consistent_disturb (m : Meaning ρ) (h : a.controller.Consistent)
    (hdisturbance : Disturbance a b) : b.controller.Consistent := by
  cases hdisturbance with
  | cancel r c held _ => exact h.evolve (Pool.evolves_cancel (m := m) r.ticket c.pool)
  | forget x c dropped before after => exact h

end Holding

namespace Session

open Holding

variable {s : Session ρ}

/-- Whatever every step of a sound and consistent controller keeps, every session keeps. -/
theorem playAll_keeps_of_consistent {P : Holding ρ → Prop} (moves : List (Move ρ))
    (hsound : s.holding.Sound) (hconsistent : s.controller.Consistent)
    (hstep : ∀ a b, a.Sound → a.controller.Consistent → Step settings m a b → P a → P b)
    (hdisturbance : ∀ a b, Disturbance a b → P a → P b) (h : P s.holding) :
    (s.playAll settings m moves).controller.Consistent ∧
      P (s.playAll settings m moves).holding := by
  refine (playAll_keeps_of_sound (P := fun a => a.controller.Consistent ∧ P a) moves hsound ?_ ?_
    ⟨hconsistent, h⟩).2
  · rintro a b hsound hab ⟨hconsistent, ha⟩
    exact ⟨hsound.consistent_step hconsistent hab, hstep a b hsound hconsistent hab ha⟩
  · rintro a b hab ⟨hconsistent, ha⟩
    exact ⟨consistent_disturb m hconsistent hab, hdisturbance a b hab ha⟩

theorem consistent_playAll (settings : Settings) (m : Meaning ρ) (showUncovered : Bool)
    (moves : List (Move ρ)) :
    ((create showUncovered).playAll settings m moves).controller.Consistent :=
  (playAll_keeps_of_consistent (P := fun _ => True) moves (sound_create showUncovered)
    (.create showUncovered) (fun _ _ _ _ _ _ => trivial) (fun _ _ _ _ => trivial) trivial).1

end Session

end CoverageTracker
