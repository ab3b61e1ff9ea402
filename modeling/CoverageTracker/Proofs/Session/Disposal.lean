import CoverageTracker.Proofs.Pool.Silence
import CoverageTracker.Proofs.Session.ArrivalOrder
import CoverageTracker.Proofs.Session.Views
set_option autoImplicit false

/-!
# Disposal is final

A disposed controller has no pending request, so by `Exclusive` all of its tasks have ended or were
cancelled: its pool has ceased (`Holding.Sound.ceased`) and stays silent.  Its other fields stay as
they are, for every transition and every completion first looks whether the controller is disposed
(`inert_play`).
-/

namespace CoverageTracker

variable {ρ : Type} {m : Meaning ρ} {settings : Settings}

namespace Holding

variable {a b : Holding ρ}

/-- The tasks of a controller that is not used any more have only their end before them. -/
theorem Sound.ceased (h : Sound a) (hunused : a.controller.disposed = true ∨ a.dropped = true) :
    a.controller.pool.Ceased := by
  intro t task htask
  cases hcancelled : task.cancelled with
  | true => exact Or.inr rfl
  | false =>
    rcases h.exclusive.spent t task htask hcancelled with ⟨r, hr, _⟩ | ⟨hdone, _⟩
    · rw [h.ended hunused] at hr
      cases hr
    · exact Or.inl hdone

theorem Sound.silent_step (h : Sound a) (hdisposed : a.controller.disposed = true)
    (hstep : Step settings m a b) :
    b.controller.disposed = true ∧ a.controller.pool.Silent b.controller.pool := by
  have hceased := h.ceased (Or.inl hdisposed)
  have hpending := h.ended (Or.inl hdisposed)
  -- what only a controller in use does is out of the question
  cases hstep with
  | progress t c dropped held => exact ⟨hdisposed, hceased.silent_progress m t⟩
  | resolve uri reply c dropped held => exact ⟨hdisposed, Pool.silent_resolve uri reply c.pool⟩
  | answer t reply c dropped held => exact ⟨hdisposed, Pool.silent_answer t reply c.pool⟩
  | display _ _ c held => exact ⟨hdisposed, .refl c.pool⟩
  | connect c held hused => exact absurd hdisposed (by simp [hused])
  | disconnect c held hused => exact absurd hdisposed (by simp [hused])
  | untrack c held hused => exact absurd hdisposed (by simp [hused])
  | track d c held hused _ _ => exact absurd hdisposed (by simp [hused])
  | receive x rest c held hqueue =>
    refine ⟨hdisposed, rfl, rfl, rfl, rfl, ?_⟩
    rw [hqueue]
    exact List.suffix_cons x rest
  | accept x c before after hused _ => exact absurd hdisposed (by simp [hused])
  | ignore x c before after _ => exact ⟨hdisposed, .refl c.pool⟩
  | dispose c held hused => exact absurd hdisposed (by simp [hused])
  | drop c held =>
    have hpending : c.state.pending = none := hpending
    rw [Controller.drop, Controller.cancelPending_eq, hpending]
    exact ⟨hdisposed, rfl, rfl, rfl, rfl, List.nil_suffix⟩

theorem silent_disturb (hdisturbance : Disturbance a b) :
    b.controller.disposed = a.controller.disposed ∧
      a.controller.pool.Silent b.controller.pool := by
  cases hdisturbance with
  | cancel r c held _ => exact ⟨rfl, Pool.silent_cancel r.ticket c.pool⟩
  | forget x c dropped before after => exact ⟨rfl, .refl c.pool⟩

end Holding

namespace Session

open Holding

variable {s s' : Session ρ} {move : Move ρ} {answer : Answer}

/-- Nothing is heard any more of the tasks of a disposed controller. -/
theorem silent_playAll (hsound : s.holding.Sound) (hdisposed : s.controller.disposed = true)
    (moves : List (Move ρ)) :
    let s' := s.playAll settings m moves
    s'.holding.Sound ∧ s'.controller.disposed = true ∧
      s.controller.pool.Grows s'.controller.pool ∧
      s.controller.pool.Silent s'.controller.pool := by
  have hall : (s.playAll settings m moves).holding.Sound ∧
      (s.playAll settings m moves).controller.disposed = true ∧
      s.controller.pool.Silent (s.playAll settings m moves).controller.pool :=
    playAll_keeps_of_sound (P := fun a => a.controller.disposed = true ∧
      s.controller.pool.Silent a.controller.pool) moves hsound
      (fun _ _ hsound hstep h => (hsound.silent_step h.1 hstep).imp_right h.2.trans)
      (fun _ _ hdisturbance h =>
        (silent_disturb hdisturbance).imp (fun hsame => hsame.trans h.1) h.2.trans)
      ⟨hdisposed, .refl _⟩
  exact ⟨hall.1, hall.2.1, grows_playAll hsound moves, hall.2.2⟩

theorem Alike.controller_eq (h : Alike s s') :
    s'.controller = { s.controller with pool := s'.controller.pool } := by
  obtain ⟨_, hstate, hissued, hdisposed, hsinks, happlied⟩ := h
  simp only [← hstate, ← hissued, ← hdisposed, ← hsinks, ← happlied]

/-- No move changes a disposed controller, its pool apart. -/
theorem inert_play (hdisposed : s.controller.disposed = true)
    (hpending : s.controller.state.pending = none)
    (h : s.play settings m move = some (answer, s')) :
    s'.controller = { s.controller with pool := s'.controller.pool } := by
  cases hkind : move.kind with
  | quiet => exact (alike_of_quiet hkind h).controller_eq
  | transition =>
    have hrenders := (renders_of_transition hkind h).2.2
    generalize s'.controller = c at hrenders
    cases hrenders with
    | disposed _ => rfl
    | once changed hused _ _ _ => exact absurd hdisposed (by simp [hused])
  | handover =>
    refine handover_induction (P := fun c => c = { s.controller with pool := c.pool }) ?_ ?_ hkind h
      fun _ => rfl
    · intro c pool hc
      rw [hc]
    · intro x c hc
      have hover : c.disposed = true := by
        rw [hc]
        exact hdisposed
      rw [c.computed_of_stale (Or.inl hover)]
      exact hc
  | ending =>
    unfold play at h
    cases move with
    | dispose =>
      obtain ⟨_, _, rfl⟩ := operate_eq_some h
      show s.controller.dispose settings =
        { s.controller with pool := (s.controller.dispose settings).pool }
      rw [Controller.dispose, if_pos hdisposed]
    | drop =>
      simp only at h
      split at h
      · cases h
        rfl
      · cases h
        simp only [Controller.drop, Controller.cancelPending_eq]
        rw [← hpending]
    | _ => cases hkind

theorem inert_playAll (hdisposed : s.controller.disposed = true)
    (hpending : s.controller.state.pending = none) (moves : List (Move ρ)) :
    let s' := s.playAll settings m moves
    s'.controller = { s.controller with pool := s'.controller.pool } := by
  refine playAll_induction (P := fun k : Session ρ =>
    k.controller = { s.controller with pool := k.controller.pool }) moves ?_ rfl
  intro k k' move answer _ hplay hk
  have hnext := inert_play (by rw [hk]; exact hdisposed) (by rw [hk]; exact hpending) hplay
  rw [hnext, hk]

/-- A disposed controller applies nothing, and answers so. -/
theorem answer_of_disposed (hdisposed : s.controller.disposed = true)
    (h : s.play settings m move = some (answer, s')) :
    (move = .poll ∨ move = .settle → answer = .count 0) ∧
      ∀ slot, move = .apply slot → answer = .flag false := by
  have hpoll : ∀ c : Controller ρ, c.disposed = true → c.poll.1 = 0 := by
    intro c hc
    have hcount := c.poll_requeue_fst c.pool.completions
    rw [if_pos hc] at hcount
    exact hcount
  refine ⟨?_, ?_⟩
  · rintro (rfl | rfl)
    · unfold play at h
      obtain ⟨_, rfl, _⟩ := operate_eq_some h
      exact congrArg Answer.count (hpoll s.controller hdisposed)
    · unfold play at h
      obtain ⟨_, rfl, _⟩ := operate_eq_some h
      exact congrArg Answer.count (hpoll (s.controller.run m) hdisposed)
  · rintro slot rfl
    simp only [play] at h
    split at h
    · cases h
    · obtain ⟨_, rfl, _⟩ := operate_eq_some h
      rw [s.controller.computed_of_stale (Or.inl hdisposed)]

/-- What the first disposal of a controller changes. -/
theorem dispose_eq (hused : s.controller.disposed = false) (hdropped : s.dropped = false) :
    s.playAll settings m [.dispose] =
      { s with controller := { s.controller with
          state := { s.controller.state with pending := none }
          disposed := true
          pool := s.controller.pool.cancelOf s.controller.state.pending
          sinks := s.controller.sinks ++ [settings.release] } } := by
  simp [playAll, play, operate, hdropped, Controller.dispose, hused, Controller.cancelPending_eq]

theorem dispose_not_mem_rendered (states : List State) :
    SinkCall.dispose ∉ states.flatMap State.render := by
  intro hmem
  obtain ⟨state, _, hmem⟩ := List.mem_flatMap.mp hmem
  rw [state.render_eq] at hmem
  cases hdiagnostics : state.diagnostics <;> simp [hdiagnostics] at hmem

/-- Disposal is final.  When a controller is disposed of for the first time, its pending request is
cancelled and forgotten, the store of diagnostics, which was only told renderings before, is told to
release what it holds, and nothing else changes.  Whatever happens after that, no field of the
controller changes any more: not its state, not the number of requests, not what the views were told
and not what was applied.  Polls apply nothing, and neither do completions that were held.  No
backend call starts and none returns, nobody is warned, and completions only leave the queue: every
task has ended or was cancelled, the one of the request that was pending too. -/
theorem disposal_is_final (settings : Settings) (m : Meaning ρ) (showUncovered : Bool)
    (before after : List (Move ρ)) :
    let s := (create showUncovered).playAll settings m before
    let t := s.playAll settings m [.dispose]
    let u := t.playAll settings m after
    s.controller.disposed = false → s.dropped = false →
    (t.controller.disposed = true ∧
      t.controller.state = { s.controller.state with pending := none } ∧
      t.controller.issued = s.controller.issued ∧
      t.controller.applied = s.controller.applied ∧
      t.controller.sinks = s.controller.sinks ++ [settings.release] ∧
      ∃ states : List State, s.controller.sinks = states.flatMap State.render) ∧
    u.controller = { t.controller with pool := u.controller.pool } ∧
    (settings.release = .dispose → u.controller.sinks.count .dispose = 1) ∧
    (∀ move answer u', u.play settings m move = some (answer, u') →
      (move = .poll ∨ move = .settle → answer = .count 0) ∧
        ∀ slot, move = .apply slot → answer = .flag false) ∧
    s.controller.pool.Silent u.controller.pool ∧
    u.controller.pool.Ceased ∧
    ∀ r, s.controller.state.pending = some r → u.controller.pool.isCancelled r.ticket = true := by
  intro s t u hused hdropped
  have hsound : s.holding.Sound := sound_playAll settings m showUncovered before
  have ht : t = _ := dispose_eq hused hdropped
  -- the disposal ends the pending request, so from here on nothing is pending
  have htsound : t.holding.Sound := playAll_keeps [.dispose]
    (fun _ _ hstep h => h.step hstep) (fun _ _ hd h => h.disturb m hd) hsound
  have hdisposed : t.controller.disposed = true := by rw [ht]
  have hpending : t.controller.state.pending = none := htsound.ended (Or.inl hdisposed)
  have hinert : u.controller = { t.controller with pool := u.controller.pool } :=
    inert_playAll hdisposed hpending after
  obtain ⟨husound, hudisposed, hgrows, hsilent⟩ :
      u.holding.Sound ∧ u.controller.disposed = true ∧
        t.controller.pool.Grows u.controller.pool ∧
        t.controller.pool.Silent u.controller.pool := silent_playAll htsound hdisposed after
  obtain ⟨states, hstates⟩ := sinks_playAll_of_used settings m showUncovered before hused
  have hsinks : t.controller.sinks = s.controller.sinks ++ [settings.release] := by rw [ht]
  refine ⟨⟨hdisposed, by rw [ht], by rw [ht], by rw [ht], hsinks, states, hstates⟩, hinert, ?_, ?_,
    ?_, husound.ceased (Or.inl hudisposed), ?_⟩
  · intro hrelease
    have husinks : u.controller.sinks = states.flatMap State.render ++ [.dispose] := by
      rw [hinert, hsinks, hstates, hrelease]
    rw [husinks, List.count_append,
      List.count_eq_zero_of_not_mem (dispose_not_mem_rendered states)]
    rfl
  · exact fun move answer u' hplay => answer_of_disposed hudisposed hplay
  · have hcancelled : s.controller.pool.Silent t.controller.pool := by
      rw [ht]
      cases s.controller.state.pending with
      | none => exact .refl _
      | some r => exact Pool.silent_cancel r.ticket _
    exact hcancelled.trans hsilent
  · intro r hr
    obtain ⟨task, htask, _⟩ := hsound.exclusive.known r hr
    have hcancelled : t.controller.pool.isCancelled r.ticket = true := by
      rw [ht, hr]
      exact Pool.isCancelled_cancel htask
    exact hgrows.isCancelled hcancelled

/-- The task of the request that is pending at the disposal has had no turn.  Whatever happens
then, it never calls the backend. -/
theorem disposal_is_final_of_activation :
    let d : Document := ⟨⟨"file:///a.js", rfl⟩, "javascript", none⟩
    let settings : Settings := ⟨fun _ => true, .dispose⟩
    let s := (create true).playAll settings .direct [.connection true, .activate (some d)]
    s.controller.state.pending = some ⟨0, ⟨1⟩, d⟩ ∧
      ∀ after,
        let u := (s.playAll settings .direct [.dispose]).playAll settings .direct after
        u.controller.issued = 1 ∧ u.controller.pool.calls = [] ∧
          u.controller.pool.completions = [] ∧ u.controller.sinks.count .dispose = 1 := by
  intro d settings s
  have hused : s.controller.disposed = false := by decide +kernel
  have hdropped : s.dropped = false := by decide +kernel
  have hissued : s.controller.issued = 1 := by decide +kernel
  have hcalls : s.controller.pool.calls = [] := by decide +kernel
  have hqueue : s.controller.pool.completions = [] := by decide +kernel
  refine ⟨by decide +kernel, fun after => ?_⟩
  obtain ⟨hdisposal, hinert, hreleased, _, hsilent, _, _⟩ :=
    disposal_is_final settings Meaning.direct true [.connection true, .activate (some d)] after
      hused hdropped
  refine ⟨?_, hsilent.calls.trans hcalls, ?_, hreleased rfl⟩
  · exact (congrArg Controller.issued hinert).trans (hdisposal.2.2.1.trans hissued)
  · have hsuffix := hsilent.completions
    rw [hqueue] at hsuffix
    exact List.suffix_nil.mp hsuffix

end Session

end CoverageTracker
