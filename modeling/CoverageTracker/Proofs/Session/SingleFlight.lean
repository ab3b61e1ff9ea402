import CoverageTracker.Proofs.Session.Sound
set_option autoImplicit false

/-!
# At most one call in flight

A superseded task stays in line until its next turn, so the backend may see several awaited calls
for a while.  Once no task can go on, every awaited call is of a task that was not cancelled, and
by `Exclusive` the pending request has the only one.  For the converse, that a pending request does
have its call once no completion is left, the invariant is `Served`: the task of the pending
request is not cancelled, and if it has ended its completion is at hand.
-/

namespace CoverageTracker

variable {ρ : Type} {m : Meaning ρ} {settings : Settings}

namespace Pool

variable {p q : Pool ρ} {t : Ticket}

/-! ## Who is cancelled by a step -/

/-- No task is cancelled between two pools. -/
def Spares (p q : Pool ρ) : Prop :=
  ∀ (t : Ticket) (a b : Task ρ), p.tasks[t]? = some a → q.tasks[t]? = some b →
    a.cancelled = false → b.cancelled = false

theorem spares_of_tasks_eq (htasks : q.tasks = p.tasks) : Spares p q := by
  intro t a b ha hb hcancelled
  rw [htasks, ha] at hb
  cases hb
  exact hcancelled

theorem spares_modify {f : Task ρ → Task ρ} (hf : ∀ a, (f a).cancelled = a.cancelled)
    (htasks : q.tasks = (p.modify t f).tasks) : Spares p q := by
  intro u a b ha hb hcancelled
  rw [htasks] at hb
  obtain ⟨a', ha', hba⟩ := getElem?_modify.mp hb
  rw [ha] at ha'
  cases ha'
  rw [hba]
  split
  · rw [hf]
    exact hcancelled
  · exact hcancelled

theorem spares_resolve (uri : String) (reply : ρ) (p : Pool ρ) :
    Spares p (p.resolve uri reply).2 := by
  unfold resolve
  split
  · exact spares_modify (by simp) rfl
  · exact spares_of_tasks_eq rfl

theorem spares_answer (t : Ticket) (reply : ρ) (p : Pool ρ) : Spares p (p.answer t reply).2 := by
  unfold answer
  split
  · exact spares_modify (by simp) rfl
  · exact spares_of_tasks_eq rfl

/-- A turn cancels nobody if replies do not. -/
theorem Turn.spares {task : Task ρ} (h : Turn m t task p q)
    (hcancels : ∀ reply, m.cancels reply = none) : Spares p q := by
  cases h with
  | rest _ => exact spares_of_tasks_eq rfl
  | quit backend _ _ _ => exact spares_modify (by simp) rfl
  | call backend _ _ _ => exact spares_modify (by simp) rfl
  | take reply backend calls _ _ _ _ =>
    refine spares_modify (t := t) (f := fun a => { a with phase := .done }) (by simp) ?_
    rw [tasks_takeReply, heed, hcancels reply]
    rfl

theorem spares_progress (hcancels : ∀ reply, m.cancels reply = none) (t : Ticket) (p : Pool ρ) :
    Spares p (p.progress m t) := by
  cases htask : p.tasks[t]? with
  | none =>
    rw [progress_of_none m htask]
    exact spares_of_tasks_eq rfl
  | some task => exact (turn_progress m htask).spares hcancels

end Pool

namespace Holding

variable {a b : Holding ρ} {c : Controller ρ} {dropped : Bool} {held : List Completion}

/-! ## The pending request is served -/

/-- The task of the pending request was not cancelled, and once it has ended its completion is
there to be used. -/
def Served (a : Holding ρ) : Prop :=
  ∀ r, a.controller.state.pending = some r →
    ∃ task, a.controller.pool.tasks[r.ticket]? = some task ∧ task.cancelled = false ∧
      (task.phase = .done → ∃ x ∈ a.outstanding, x.ticket = r.ticket)

theorem served_of_no_pending (h : a.controller.state.pending = none) : a.Served := by
  intro r hr
  rw [h] at hr
  cases hr

theorem Served.evolve {q : Pool ρ} (h : Served ⟨c, dropped, held⟩)
    (hsound : Sound ⟨c, dropped, held⟩) (hevolves : Pool.Evolves m c.pool q)
    (hspares : Pool.Spares c.pool q) : Served ⟨{ c with pool := q }, dropped, held⟩ := by
  intro r hr
  obtain ⟨task, htask, hcancelled, hdone⟩ := h r hr
  obtain ⟨task', htask', _⟩ := hevolves.becomes _ task htask
  refine ⟨task', htask', hspares _ task task' htask htask' hcancelled, ?_⟩
  intro hdone'
  obtain ⟨new, hqueue, _⟩ := hevolves.queued
  by_cases hended : task.phase = .done
  · obtain ⟨x, hx, hticket⟩ := hdone hended
    refine ⟨x, ?_, hticket⟩
    rcases List.mem_append.mp hx with hx | hx
    · refine List.mem_append_left _ ?_
      rw [hqueue]
      exact List.mem_append_left _ hx
    · exact List.mem_append_right _ hx
  · -- the task ends between the two pools, while the controller can still receive
    have hopen : c.pool.isOpen = true := by
      cases hdropped : dropped with
      | false =>
        have hopen := hsound.isOpen
        rw [hdropped] at hopen
        exact hopen
      | true =>
        have hnone := hsound.ended (Or.inr hdropped)
        rw [hr] at hnone
        cases hnone
    obtain ⟨x, hx, hticket⟩ := hevolves.settled hopen _ task task' htask hended htask' hdone'
      (hspares _ task task' htask htask' hcancelled)
    exact ⟨x, List.mem_append_left _ hx, hticket⟩

theorem Served.track (d : Document) : Served ⟨c.track d, dropped, held⟩ := by
  intro r hr
  rw [Controller.track_eq] at hr ⊢
  cases hr
  exact ⟨_, Pool.getElem?_start.mpr (Or.inr ⟨rfl, rfl⟩), rfl, fun h => by cases h⟩

/-- A stale completion is not the one of the pending request. -/
theorem Served.ignore {x : Completion} {before after : List Completion}
    (h : Served ⟨c, false, before ++ x :: after⟩) (hsound : Sound ⟨c, false, before ++ x :: after⟩)
    (hstale : c.disposed = true ∨ c.pool.isCancelled x.ticket = true) :
    Served ⟨c, false, before ++ after⟩ := by
  intro r hr
  obtain ⟨task, htask, hcancelled, hdone⟩ := h r hr
  refine ⟨task, htask, hcancelled, ?_⟩
  intro hended
  obtain ⟨y, hy, hticket⟩ := hdone hended
  have hyx : y ≠ x := by
    rintro rfl
    rcases hstale with hdisposed | hstale
    · have hnone := hsound.ended (Or.inl hdisposed)
      rw [hr] at hnone
      cases hnone
    · rw [hticket, Pool.isCancelled_of_task htask, hcancelled] at hstale
      cases hstale
  simp only [outstanding, List.mem_append, List.mem_cons] at hy ⊢
  exact ⟨y, by tauto, hticket⟩

theorem Served.step (hcancels : ∀ reply, m.cancels reply = none) (h : Served a) (hsound : Sound a)
    (hstep : Step settings m a b) : Served b := by
  cases hstep with
  | progress t c dropped held =>
    exact h.evolve hsound (Pool.evolves_progress (m := m) t c.pool)
      (Pool.spares_progress hcancels t c.pool)
  | resolve uri reply c dropped held =>
    exact h.evolve hsound (Pool.evolves_resolve (m := m) hsound.lined uri reply)
      (Pool.spares_resolve uri reply c.pool)
  | answer t reply c dropped held =>
    exact h.evolve hsound (Pool.evolves_answer (m := m) t reply c.pool)
      (Pool.spares_answer t reply c.pool)
  | display _ _ c held => exact h
  | connect c held _ => exact h
  | disconnect c held _ =>
    rw [Controller.untrack_eq]
    exact served_of_no_pending rfl
  | untrack c held _ =>
    rw [Controller.untrack_eq]
    exact served_of_no_pending rfl
  | track d c held _ _ _ => exact Served.track d
  | receive x rest c held hqueue =>
    intro r hr
    obtain ⟨task, htask, hcancelled, hdone⟩ := h r hr
    refine ⟨task, htask, hcancelled, ?_⟩
    intro hended
    obtain ⟨y, hy, hticket⟩ := hdone hended
    refine ⟨y, ?_, hticket⟩
    simp only [outstanding, hqueue, Controller.requeue, List.mem_append, List.mem_cons,
      List.not_mem_nil] at hy ⊢
    tauto
  | accept x c before after _ _ => exact served_of_no_pending rfl
  | ignore x c before after hstale => exact h.ignore hsound hstale
  | dispose c held _ =>
    rw [Controller.cancelPending_eq]
    exact served_of_no_pending rfl
  | drop c held =>
    unfold Controller.drop
    rw [Controller.cancelPending_eq]
    exact served_of_no_pending rfl

/-! ## At rest -/

/-- At rest a call that is awaited is the one of the pending request. -/
theorem Sound.pending_of_awaiting (h : Sound a) (hrest : Pool.AtRest m a.controller.pool)
    {call : Call} (hcall : call ∈ a.controller.pool.backend.awaiting) :
    ∃ r, a.controller.state.pending = some r ∧ call.caller = r.ticket ∧
      call.uri = r.document.uri.text := by
  obtain ⟨task, htask, hwaiting, huri⟩ := h.lined.waits call hcall
  have hcancelled : task.cancelled = false := by
    have hstuck := hrest.not_canStep htask
    simpa [Task.CanStep, hwaiting] using hstuck
  rcases h.exclusive.spent _ task htask hcancelled with ⟨r, hr, hticket⟩ | ⟨hdone, _⟩
  · obtain ⟨task', htask', hrequest⟩ := h.exclusive.known r hr
    rw [hticket, htask] at htask'
    cases htask'
    refine ⟨r, hr, hticket.symm, ?_⟩
    rw [← huri, hrequest]
    rfl
  · rw [hwaiting] at hdone
    cases hdone

theorem Sound.live_le_one (h : Sound a) (hrest : Pool.AtRest m a.controller.pool) :
    a.controller.pool.backend.live ≤ 1 := by
  have hdistinct := h.lined.distinct
  have hpending : ∀ call ∈ a.controller.pool.backend.awaiting, ∃ r,
      a.controller.state.pending = some r ∧ call.caller = r.ticket ∧
        call.uri = r.document.uri.text := fun _ hcall => h.pending_of_awaiting hrest hcall
  rw [Backend.live_eq_length_awaiting]
  generalize a.controller.pool.backend.awaiting = calls at hdistinct hpending
  match calls with
  | [] => exact Nat.zero_le _
  | [_] => exact Nat.le_refl _
  | first :: second :: rest =>
    obtain ⟨r, hr, hfirst, _⟩ := hpending first List.mem_cons_self
    obtain ⟨r', hr', hsecond, _⟩ := hpending second (List.mem_cons_of_mem _ List.mem_cons_self)
    rw [hr, Option.some.injEq] at hr'
    subst hr'
    simp [hfirst, hsecond] at hdistinct

theorem Sound.live_of_no_pending (h : Sound a) (hrest : Pool.AtRest m a.controller.pool)
    (hpending : a.controller.state.pending = none) : a.controller.pool.backend.live = 0 := by
  rw [Backend.live_eq_length_awaiting, List.length_eq_zero_iff]
  refine List.eq_nil_iff_forall_not_mem.mpr fun call hcall => ?_
  obtain ⟨r, hr, _⟩ := h.pending_of_awaiting hrest hcall
  rw [hpending] at hr
  cases hr

/-- At rest a pending request whose completion is not outstanding has its call in line. -/
theorem Served.live_eq_one (h : Served a) (hsound : Sound a)
    (hrest : Pool.AtRest m a.controller.pool) (hused : a.outstanding = []) {r : Request}
    (hr : a.controller.state.pending = some r) : a.controller.pool.backend.live = 1 := by
  obtain ⟨task, htask, hcancelled, hdone⟩ := h r hr
  have hwaiting : task.phase = .waiting := by
    have hstuck := hrest.not_canStep htask
    unfold Task.CanStep at hstuck
    cases hphase : task.phase with
    | queued => simp [hphase] at hstuck
    | waiting => rfl
    | answered reply => simp [hphase] at hstuck
    | done =>
      obtain ⟨x, hx, _⟩ := hdone hphase
      rw [hused] at hx
      cases hx
  obtain ⟨call, hcall, _⟩ := hsound.lined.called r.ticket _ ⟨task, htask, hwaiting, rfl⟩
  have hpositive := List.length_pos_of_mem hcall
  have hle := hsound.live_le_one hrest
  rw [Backend.live_eq_length_awaiting] at hle ⊢
  omega

end Holding

namespace Session

open Holding

theorem served_playAll (settings : Settings) (hcancels : ∀ reply, m.cancels reply = none)
    (showUncovered : Bool) {moves : List (Move ρ)} (hcalm : ∀ move ∈ moves, move.isCalm = true) :
    ((create showUncovered).playAll settings m moves).holding.Served := by
  have hcreate : Sound (create showUncovered : Session ρ).holding ∧
      Served (create showUncovered : Session ρ).holding :=
    ⟨sound_create showUncovered, served_of_no_pending rfl⟩
  exact (playAll_keeps_of_calm (P := fun a => a.Sound ∧ a.Served) hcalm
    (fun _ _ hstep h => ⟨h.1.step hstep, h.2.step hcancels h.1 hstep⟩) hcreate).2

/-- Single flight.  Running the tasks ends at rest, and a poll does not disturb that.  At rest at
most one call is awaited: the one of the pending request, about the document of that request, and
none after the controller was disposed of or given up.  If moreover the controller was handed every
completion and replies cancel no requests, then a pending request does have its call. -/
theorem single_flight (settings : Settings) (m : Meaning ρ) (showUncovered : Bool)
    (moves : List (Move ρ)) :
    let s := (create showUncovered).playAll settings m moves
    Pool.AtRest m (s.controller.run m).pool ∧ Pool.AtRest m (s.controller.run m).poll.2.pool ∧
    (Pool.AtRest m s.controller.pool →
      s.controller.pool.backend.live ≤ 1 ∧
      (∀ call ∈ s.controller.pool.backend.waiting, call.awaited = true →
        ∃ r, s.controller.state.pending = some r ∧ call.caller = r.ticket ∧
          call.uri = r.document.uri.text) ∧
      (s.controller.disposed = true ∨ s.dropped = true →
        s.controller.pool.backend.live = 0) ∧
      ((∀ reply, m.cancels reply = none) → (∀ move ∈ moves, move.isCalm = true) →
        s.controller.pool.completions = [] → s.held.contents = [] →
        s.controller.pool.backend.live = if s.controller.state.pending.isSome then 1 else 0)) := by
  intro s
  have hsound := sound_playAll settings m showUncovered moves
  have hrun : Pool.AtRest m (s.controller.run m).pool := Pool.atRest_run hsound.scheduled
  have hpoll : Pool.AtRest m (s.controller.run m).poll.2.pool := by
    rw [Controller.pool_poll]
    exact hrun.requeue []
  refine ⟨hrun, hpoll, fun hrest => ⟨hsound.live_le_one hrest, ?_, ?_, ?_⟩⟩
  · intro call hcall hawaited
    exact hsound.pending_of_awaiting hrest (Backend.mem_awaiting.mpr ⟨hcall, hawaited⟩)
  · intro hended
    exact hsound.live_of_no_pending hrest (hsound.ended hended)
  · intro hcancels hcalm hqueue hheld
    have hused : s.holding.outstanding = [] := by
      simp only [Holding.outstanding, holding, hqueue, hheld, List.append_nil]
    cases hpending : s.controller.state.pending with
    | none => exact hsound.live_of_no_pending hrest hpending
    | some r =>
      exact (served_playAll settings hcancels showUncovered hcalm).live_eq_one hsound hrest hused
        hpending

/-- A tracked document that was not answered yet has the one call in flight. -/
theorem single_flight_of_activation :
    let s := (create true).playAll ⟨fun _ => true, .clear⟩ Meaning.direct
      [.connection true, .activate (some ⟨⟨"file:///a.js", rfl⟩, "javascript", none⟩), .run]
    s.controller.state.pending.isSome = true ∧ Pool.AtRest Meaning.direct s.controller.pool ∧
      s.controller.pool.backend.live = 1 := by
  intro s
  have hrest : Pool.AtRest Meaning.direct s.controller.pool :=
    (single_flight ⟨fun _ => true, .clear⟩ Meaning.direct true
      [.connection true, .activate (some ⟨⟨"file:///a.js", rfl⟩, "javascript", none⟩)]).1
  obtain ⟨_, _, _, hlive⟩ := (single_flight ⟨fun _ => true, .clear⟩ Meaning.direct true
    [.connection true, .activate (some ⟨⟨"file:///a.js", rfl⟩, "javascript", none⟩), .run]).2.2
    hrest
  exact ⟨rfl, hrest, hlive (fun _ => rfl) (by simp [Move.isCalm]) rfl rfl⟩

end Session

end CoverageTracker
