import CoverageTracker.Proofs.Session.Tracking
set_option autoImplicit false

/-!
# The order of the queue

A poll hands over whatever is queued, in the order in which it arrived.  Completions that were
cancelled make no difference to it (`poll_requeue_fresh`), so all that counts are those that were
not, and by `Exclusive` there is at most one: in whatever order completions arrive, a poll comes to
the same.
-/

namespace CoverageTracker

variable {ρ : Type} {m : Meaning ρ} {settings : Settings}

/-- The completions of a queue that were not cancelled. -/
def Pool.fresh (queue : List Completion) (p : Pool ρ) : List Completion :=
  queue.filter fun x => !p.isCancelled x.ticket

namespace Pool

variable {p : Pool ρ} {x : Completion} {queue : List Completion}

theorem mem_fresh : x ∈ p.fresh queue ↔ x ∈ queue ∧ p.isCancelled x.ticket = false := by
  simp [fresh]

theorem fresh_cons_of_fresh (h : p.isCancelled x.ticket = false) :
    p.fresh (x :: queue) = x :: p.fresh queue :=
  List.filter_cons_of_pos (by simp [h])

theorem fresh_cons_of_stale (h : p.isCancelled x.ticket = true) :
    p.fresh (x :: queue) = p.fresh queue :=
  List.filter_cons_of_neg (by simp [h])

/-- At most one completion of a queue whose completions exclude each other was not cancelled, so
those of two orders of the queue are the same. -/
theorem fresh_perm {pending : Option Request} {held queue' : List Completion}
    (h : Exclusive p.tasks pending (queue ++ held)) (hperm : queue'.Perm queue) :
    p.fresh queue' = p.fresh queue := by
  have hlength : (p.fresh queue).length ≤ 1 :=
    (h.sublist (List.sublist_append_left queue held)).length_fresh_le
  have hfresh : (p.fresh queue').Perm (p.fresh queue) := hperm.filter _
  generalize p.fresh queue = fresh at hlength hfresh
  match fresh with
  | [] => exact hfresh.eq_nil
  | [_] => exact hfresh.eq_singleton
  | _ :: _ :: _ => simp at hlength

end Pool

namespace Controller

variable {c : Controller ρ} {x : Completion}

/-! ## A poll of a queue -/

/-- The oldest completion of a queue is handed over, and what it leaves polls the others. -/
theorem poll_requeue_cons (x : Completion) (rest : List Completion) (c : Controller ρ) :
    (c.requeue (x :: rest)).poll =
      ((if (c.computed x).1 then 1 else 0) + ((c.computed x).2.requeue rest).poll.1,
        ((c.computed x).2.requeue rest).poll.2) := by
  have hpoll := poll_of_cons (c := c.requeue (x :: rest)) (x := x) rfl
  have hrequeue : (c.requeue (x :: rest)).requeue rest = c.requeue rest := rfl
  rw [hpoll, hrequeue, computed_requeue]

/-- Cancelled completions make no difference to a poll. -/
theorem poll_requeue_fresh (queue : List Completion) (c : Controller ρ) :
    (c.requeue (c.pool.fresh queue)).poll = (c.requeue queue).poll := by
  induction queue generalizing c with
  | nil => rfl
  | cons x rest ih =>
    rw [poll_requeue_cons]
    cases hx : c.pool.isCancelled x.ticket with
    | true =>
      rw [Pool.fresh_cons_of_stale hx, ih, computed_of_stale (Or.inr hx)]
      simp
    | false =>
      have hrest := ih (c.computed x).2
      rw [pool_computed] at hrest
      rw [Pool.fresh_cons_of_fresh hx, poll_requeue_cons, hrest]

/-- A poll applies the completions that were not cancelled, unless the controller was disposed
of. -/
theorem poll_requeue_fst (queue : List Completion) (c : Controller ρ) :
    (c.requeue queue).poll.1 = if c.disposed then 0 else (c.pool.fresh queue).length := by
  induction queue generalizing c with
  | nil => simp [poll, requeue, Pool.fresh]
  | cons x rest ih =>
    rw [poll_requeue_cons]
    simp only [ih, pool_computed]
    rcases c.fresh_or_stale x with ⟨hdisposed, hfresh⟩ | hstale
    · rw [computed_of_fresh hdisposed hfresh, Pool.fresh_cons_of_fresh hfresh]
      simp [render, accept, hdisposed, Nat.add_comm]
    · rw [computed_of_stale hstale]
      rcases hstale with hdisposed | hstale
      · simp [hdisposed]
      · simp [Pool.fresh_cons_of_stale hstale]

/-- A poll applies one completion if the one of the pending request is queued and not cancelled,
and otherwise none. -/
theorem poll_fst_of_exclusive {c : Controller ρ} {held : List Completion}
    (h : Exclusive c.pool.tasks c.state.pending (c.pool.completions ++ held)) :
    c.poll.1 = if c.disposed = false ∧ ∃ x ∈ c.pool.completions,
      c.state.pending = some x.request ∧ c.pool.isCancelled x.ticket = false then 1 else 0 := by
  have hqueue := h.sublist (List.sublist_append_left c.pool.completions held)
  have hlength : (c.pool.fresh c.pool.completions).length ≤ 1 := hqueue.length_fresh_le
  have hpoll : c.poll.1 = if c.disposed then 0 else (c.pool.fresh c.pool.completions).length :=
    c.poll_requeue_fst c.pool.completions
  rw [hpoll]
  cases hdisposed : c.disposed with
  | true => simp
  | false =>
    rw [if_neg Bool.false_ne_true]
    by_cases hfresh : c.pool.fresh c.pool.completions = []
    · have hnone : ¬ ∃ x ∈ c.pool.completions,
          c.state.pending = some x.request ∧ c.pool.isCancelled x.ticket = false := by
        rintro ⟨x, hx, _, hcancelled⟩
        have hmem := Pool.mem_fresh.mpr ⟨hx, hcancelled⟩
        rw [hfresh] at hmem
        cases hmem
      rw [if_neg fun hsome => hnone hsome.2, hfresh]
      rfl
    · obtain ⟨x, hmem⟩ := List.exists_mem_of_ne_nil _ hfresh
      obtain ⟨hx, hcancelled⟩ := Pool.mem_fresh.mp hmem
      rw [if_pos ⟨rfl, x, hx, hqueue.pending_eq hx hcancelled, hcancelled⟩]
      exact Nat.le_antisymm hlength (List.length_pos_of_mem hmem)

end Controller

namespace Session

open Holding

/-- Arrival order never matters.  In whatever order the completions stand in the queue, a poll
gives the same answer and leaves the same controller: the same state, the same calls of the views,
and an empty queue.  The answer is one if the controller is in use and the completion of the
pending request is queued and not cancelled, and zero otherwise; if replies cancel no requests and
nobody cancels the pending one behind the controller's back, that completion is never cancelled. -/
theorem poll_of_any_order (settings : Settings) (m : Meaning ρ) (showUncovered : Bool)
    (moves : List (Move ρ)) :
    let c := ((create showUncovered).playAll settings m moves).controller
    (∀ queue, queue.Perm c.pool.completions → (c.requeue queue).poll = c.poll) ∧
    c.poll.2.pool.completions = [] ∧
    (c.poll.1 = if c.disposed = false ∧ ∃ x ∈ c.pool.completions,
      c.state.pending = some x.request ∧ c.pool.isCancelled x.ticket = false then 1 else 0) ∧
    ((∀ reply, m.cancels reply = none) → (∀ move ∈ moves, move ≠ .cancelPending) →
      c.poll.1 = if c.disposed = false ∧ ∃ x ∈ c.pool.completions,
        c.state.pending = some x.request then 1 else 0) := by
  intro c
  have hsound := sound_playAll settings m showUncovered moves
  have hanswer : c.poll.1 = if c.disposed = false ∧ ∃ x ∈ c.pool.completions,
      c.state.pending = some x.request ∧ c.pool.isCancelled x.ticket = false then 1 else 0 :=
    Controller.poll_fst_of_exclusive hsound.exclusive
  refine ⟨?_, by rw [c.pool_poll], hanswer, ?_⟩
  · intro queue hperm
    have hfresh : c.pool.fresh queue = c.pool.fresh c.pool.completions :=
      Pool.fresh_perm hsound.exclusive hperm
    calc (c.requeue queue).poll
        = (c.requeue (c.pool.fresh queue)).poll := (c.poll_requeue_fresh queue).symm
      _ = (c.requeue (c.pool.fresh c.pool.completions)).poll := by rw [hfresh]
      _ = (c.requeue c.pool.completions).poll := c.poll_requeue_fresh _
      _ = c.poll := rfl
  · intro hcancels hmoves
    have hunspoiled := unspoiled_playAll settings hcancels showUncovered hmoves
    have hqueued : (∃ x ∈ c.pool.completions,
        c.state.pending = some x.request ∧ c.pool.isCancelled x.ticket = false) ↔
          ∃ x ∈ c.pool.completions, c.state.pending = some x.request := by
      constructor
      · rintro ⟨x, hx, hpending, _⟩
        exact ⟨x, hx, hpending⟩
      · rintro ⟨x, hx, hpending⟩
        exact ⟨x, hx, hpending, hunspoiled x.request hpending⟩
    rw [hanswer]
    simp only [hqueued]

/-- The completion of a superseded computation and that of the pending one, in the order in which
they arrived and in the other one. -/
theorem poll_of_any_order_of_save :
    let d : Document := ⟨⟨"file:///a.js", rfl⟩, "javascript", none⟩
    let old : Completion := ⟨⟨0, ⟨1⟩, d⟩, none⟩
    let new : Completion := ⟨⟨1, ⟨2⟩, d⟩, none⟩
    let c := ((create true).playAll ⟨fun _ => true, .clear⟩ Meaning.direct
      [.connection true, .activate (some d), .resolve "file:///a.js" (.ok none), .run, .save d,
        .resolve "file:///a.js" (.ok none), .run]).controller
    c.pool.completions = [old, new] ∧ c.state.pending = some new.request ∧
      (c.requeue [new, old]).poll = c.poll ∧ c.poll.1 = 1 := by
  intro d old new c
  have hqueue : c.pool.completions = [old, new] := by decide +kernel
  have hpending : c.state.pending = some new.request := by decide +kernel
  have hswap : [new, old].Perm c.pool.completions := by
    rw [hqueue]
    exact List.Perm.swap old new []
  have hany := poll_of_any_order ⟨fun _ => true, .clear⟩ Meaning.direct true
    [.connection true, .activate (some d), .resolve "file:///a.js" (.ok none), .run, .save d,
      .resolve "file:///a.js" (.ok none), .run]
  have hqueued : c.disposed = false ∧ ∃ x ∈ c.pool.completions, c.state.pending = some x.request :=
    ⟨rfl, new, by simp [hqueue], hpending⟩
  have hone : c.poll.1 = 1 := by
    rw [hany.2.2.2 (fun _ => rfl) (by simp)]
    exact if_pos hqueued
  exact ⟨hqueue, hpending, hany.1 [new, old] hswap, hone⟩

end Session

end CoverageTracker
