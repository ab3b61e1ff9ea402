import CoverageTracker.Proofs.Session.Consistent
import CoverageTracker.Proofs.Session.SingleFlight
set_option autoImplicit false

/-!
# What is tracked, and what is pending

`Consistent` says that the fields of a controller agree.  Here are the two facts that it leaves
open: the tracked document is one that may be tracked (`Eligible`), and the computation of the
pending request was not cancelled (`Unspoiled`).  The first holds whatever happens.  The second
holds as long as nobody cancels the pending request without telling the controller: every
transition that cancels a request forgets it in the same step.
-/

namespace CoverageTracker

variable {ρ : Type} {m : Meaning ρ} {settings : Settings}

namespace Controller

/-- Only a document that may be tracked is tracked. -/
def Eligible (settings : Settings) (c : Controller ρ) : Prop :=
  ∀ d, c.state.active = some d → settings.eligible d = true

/-- The computation of the pending request was not cancelled. -/
def Unspoiled (c : Controller ρ) : Prop :=
  ∀ r, c.state.pending = some r → c.pool.isCancelled r.ticket = false

variable {c : Controller ρ}

theorem eligible_of_no_active (h : c.state.active = none) : c.Eligible settings := by
  intro d hd
  rw [h] at hd
  cases hd

theorem unspoiled_of_no_pending (h : c.state.pending = none) : c.Unspoiled := by
  intro r hr
  rw [h] at hr
  cases hr

/-- The tasks go on and cancel nobody. -/
theorem Unspoiled.evolve {q : Pool ρ} {dropped : Bool} {held : List Completion}
    (h : c.Unspoiled) (hsound : Holding.Sound ⟨c, dropped, held⟩)
    (hevolves : Pool.Evolves m c.pool q) (hspares : Pool.Spares c.pool q) :
    { c with pool := q }.Unspoiled := by
  intro r hr
  obtain ⟨a, ha, _⟩ := hsound.exclusive.known r hr
  obtain ⟨b, hb, _⟩ := hevolves.becomes _ a ha
  have hcancelled := h r hr
  rw [Pool.isCancelled_of_task ha] at hcancelled
  rw [Pool.isCancelled_of_task hb]
  exact hspares _ a b ha hb hcancelled

theorem unspoiled_track (d : Document) (c : Controller ρ) : (c.track d).Unspoiled := by
  rw [track_eq]
  intro r hr
  cases hr
  rw [Pool.isCancelled_of_task (Pool.getElem?_start.mpr (Or.inr ⟨rfl, rfl⟩))]

end Controller

namespace Holding

variable {a b : Holding ρ}

theorem eligible_step (h : a.controller.Eligible settings) (hstep : Step settings m a b) :
    b.controller.Eligible settings := by
  cases hstep with
  | progress t c dropped held => exact h
  | resolve uri reply c dropped held => exact h
  | answer t reply c dropped held => exact h
  | display _ _ c held => exact h
  | connect c held _ => exact h
  | disconnect c held _ =>
    rw [Controller.untrack_eq]
    exact Controller.eligible_of_no_active rfl
  | untrack c held _ =>
    rw [Controller.untrack_eq]
    exact Controller.eligible_of_no_active rfl
  | track d c held _ _ heligible =>
    rw [Controller.track_eq]
    intro e he
    cases he
    exact heligible
  | receive x rest c held _ => exact h
  | accept x c before after _ _ => exact h
  | ignore x c before after _ => exact h
  | dispose c held _ =>
    rw [Controller.cancelPending_eq]
    exact h
  | drop c held =>
    unfold Controller.drop
    rw [Controller.cancelPending_eq]
    exact h

theorem eligible_disturb (h : a.controller.Eligible settings) (hdisturbance : Disturbance a b) :
    b.controller.Eligible settings := by
  cases hdisturbance with
  | cancel r c held _ => exact h
  | forget x c dropped before after => exact h

theorem Sound.unspoiled_step (hsound : Sound a) (hcancels : ∀ reply, m.cancels reply = none)
    (h : a.controller.Unspoiled) (hstep : Step settings m a b) : b.controller.Unspoiled := by
  cases hstep with
  | progress t c dropped held =>
    exact h.evolve hsound (Pool.evolves_progress (m := m) t c.pool)
      (Pool.spares_progress hcancels t c.pool)
  | resolve uri reply c dropped held =>
    exact h.evolve hsound (Pool.evolves_resolve (m := m) hsound.lined uri reply)
      (Pool.spares_resolve uri reply c.pool)
  | answer t reply c dropped held =>
    exact h.evolve hsound (Pool.evolves_answer (m := m) t reply c.pool)
      (Pool.spares_answer t reply c.pool)
  | display _ _ c held => exact h
  | connect c held _ => exact h
  | disconnect c held _ =>
    rw [Controller.untrack_eq]
    exact Controller.unspoiled_of_no_pending rfl
  | untrack c held _ =>
    rw [Controller.untrack_eq]
    exact Controller.unspoiled_of_no_pending rfl
  | track d c held _ _ _ => exact c.unspoiled_track d
  | receive x rest c held _ => exact h
  | accept x c before after _ _ => exact Controller.unspoiled_of_no_pending rfl
  | ignore x c before after _ => exact h
  | dispose c held _ =>
    rw [Controller.cancelPending_eq]
    exact Controller.unspoiled_of_no_pending rfl
  | drop c held =>
    unfold Controller.drop
    rw [Controller.cancelPending_eq]
    exact Controller.unspoiled_of_no_pending rfl

end Holding

namespace Session

open Holding

variable {s s' : Session ρ} {move : Move ρ} {answer : Answer}

/-- What becomes of a held completion elsewhere is no business of the controller. -/
theorem controller_play_of_uncalm (hcalm : move.isCalm = false) (hmove : move ≠ .cancelPending)
    (h : s.play settings m move = some (answer, s')) : s'.controller = s.controller := by
  unfold play at h
  cases move with
  | cancelPending => exact absurd rfl hmove
  | openHeld slot =>
    simp only at h
    split at h
    · cases h
    · cases h
      rfl
  | discard slot =>
    cases h
    rfl
  | _ => cases hcalm

theorem eligible_playAll (settings : Settings) (m : Meaning ρ) (showUncovered : Bool)
    (moves : List (Move ρ)) :
    ((create showUncovered).playAll settings m moves).controller.Eligible settings :=
  playAll_keeps (P := fun a => a.controller.Eligible settings) moves
    (fun _ _ hstep h => eligible_step h hstep)
    (fun _ _ hdisturbance h => eligible_disturb h hdisturbance)
    (Controller.eligible_of_no_active rfl)

/-- Whatever every step of a sound controller keeps, every session keeps in which nobody cancels the
pending request behind its back. -/
theorem playAll_keeps_of_spared {Q : Controller ρ → Prop} {moves : List (Move ρ)}
    (hmoves : ∀ move ∈ moves, move ≠ .cancelPending)
    (hstep : ∀ a b, a.Sound → Step settings m a b → Q a.controller → Q b.controller)
    (hsound : s.holding.Sound) (h : Q s.controller) : Q (s.playAll settings m moves).controller := by
  have hall : (s.playAll settings m moves).holding.Sound ∧
      Q (s.playAll settings m moves).controller := by
    refine playAll_induction (P := fun s => s.holding.Sound ∧ Q s.controller) moves ?_ ⟨hsound, h⟩
    rintro s s' move answer hmem hplay ⟨hsound, hs⟩
    cases hcalm : move.isCalm with
    | true =>
      exact (steps_play hcalm hplay).induction (P := fun a => a.Sound ∧ Q a.controller)
        (fun a b hab h => ⟨h.1.step hab, hstep a b h.1 hab h.2⟩) ⟨hsound, hs⟩
    | false =>
      refine ⟨?_, by rw [controller_play_of_uncalm hcalm (hmoves move hmem) hplay]; exact hs⟩
      rcases disturbance_play hcalm hplay with hsame | hdisturbed
      · rw [hsame]
        exact hsound
      · exact hsound.disturb m hdisturbed
  exact hall.2

theorem unspoiled_playAll (settings : Settings) (hcancels : ∀ reply, m.cancels reply = none)
    (showUncovered : Bool) {moves : List (Move ρ)} (hmoves : ∀ move ∈ moves, move ≠ .cancelPending) :
    ((create showUncovered).playAll settings m moves).controller.Unspoiled :=
  playAll_keeps_of_spared hmoves
    (fun _ _ hsound hstep h => hsound.unspoiled_step hcancels h hstep)
    (sound_create showUncovered) (Controller.unspoiled_of_no_pending rfl)

/-- The fields of the state agree.  While the backend is not available no document is tracked;
without a tracked document nothing is known and nothing is pending; a tracked document is eligible.
A pending request is the handle of a task that was started for exactly the tracked document, and
the last one that was issued.  If replies cancel no requests and nobody cancels the pending one
behind the controller's back, that task was not cancelled. -/
theorem fields_agree (settings : Settings) (m : Meaning ρ) (showUncovered : Bool)
    (moves : List (Move ρ)) :
    let c := ((create showUncovered).playAll settings m moves).controller
    (c.state.connected = false → c.state.active = none) ∧
    (c.state.active = none → c.state.coverage = none ∧ c.state.pending = none) ∧
    (∀ d, c.state.active = some d → settings.eligible d = true) ∧
    ∀ r, c.state.pending = some r →
      c.state.active = some r.document ∧
      r.id.number = c.issued ∧ c.issued = c.pool.tasks.length ∧
      (∃ task, c.pool.tasks[r.ticket]? = some task ∧ task.request r.ticket = r) ∧
      ((∀ reply, m.cancels reply = none) → (∀ move ∈ moves, move ≠ .cancelPending) →
        c.pool.isCancelled r.ticket = false) := by
  intro c
  have hsound := sound_playAll settings m showUncovered moves
  have hconsistent := consistent_playAll settings m showUncovered moves
  refine ⟨hconsistent.active_of_disconnected, hconsistent.idle_of_untracked,
    eligible_playAll settings m showUncovered moves, ?_⟩
  intro r hr
  obtain ⟨hactive, hnumber⟩ := hconsistent.pending r hr
  obtain ⟨task, htask, hrequest⟩ := hsound.exclusive.known r hr
  exact ⟨hactive, hnumber, hconsistent.issued, ⟨task, htask, hrequest.symm⟩,
    fun hcancels hmoves => unspoiled_playAll settings hcancels showUncovered hmoves r hr⟩

/-- The second computation of a document replaces the first one and is not cancelled. -/
theorem fields_agree_of_save :
    let d : Document := ⟨⟨"file:///a.js", rfl⟩, "javascript", none⟩
    let c := ((create true).playAll ⟨fun _ => true, .clear⟩ Meaning.direct
      [.connection true, .activate (some d), .run, .save d]).controller
    c.state.pending = some ⟨1, ⟨2⟩, d⟩ ∧ c.state.active = some d ∧ c.pool.isCancelled 0 = true ∧
      c.pool.isCancelled 1 = false := by
  intro d c
  have hpending : c.state.pending = some ⟨1, ⟨2⟩, d⟩ := rfl
  obtain ⟨hactive, _, _, _, hcancelled⟩ :=
    (fields_agree ⟨fun _ => true, .clear⟩ Meaning.direct true
      [.connection true, .activate (some d), .run, .save d]).2.2.2 _ hpending
  exact ⟨hpending, hactive, rfl, hcancelled (fun _ => rfl) (by simp)⟩

end Session

end CoverageTracker
