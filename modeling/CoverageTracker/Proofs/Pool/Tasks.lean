import CoverageTracker.Pool
import CoverageTracker.Proofs.Backend.Line
set_option autoImplicit false

/-!
# The tasks of a pool

What each operation of a pool does to its tasks, ticket by ticket, and `Turn`: everything that
the turn of a task can do.  Later proofs go by the cases of `Turn` and never open `progress`.
-/

namespace CoverageTracker

/-- The ticket of the computation that a completion is of. -/
abbrev Completion.ticket (x : Completion) : Ticket := x.request.ticket

/-- Whether the next turn of a task does anything: a task that ended has no next step, and a
task that awaits a reply can only go on once it is cancelled. -/
def Task.CanStep {ρ : Type} (task : Task ρ) : Prop :=
  match task.phase with
  | .done => False
  | .waiting => task.cancelled = true
  | _ => True

namespace Pool

variable {ρ : Type}

/-! ## Changing one task -/

theorem getElem?_modify {t u : Ticket} {f : Task ρ → Task ρ} {p : Pool ρ} {b : Task ρ} :
    (p.modify t f).tasks[u]? = some b ↔
      ∃ a, p.tasks[u]? = some a ∧ b = if t = u then f a else a := by
  simp only [modify, List.getElem?_modify]
  cases htask : p.tasks[u]? with
  | none => simp
  | some a => simp [eq_comm]

/-- The started task is the last one. -/
theorem getElem?_start {id : RequestId} {d : Document} {u : Ticket} {p : Pool ρ} {b : Task ρ} :
    (p.start id d).2.tasks[u]? = some b ↔
      p.tasks[u]? = some b ∨ (u = p.tasks.length ∧ b = ⟨id, d, false, .queued⟩) := by
  simp only [start]
  rcases Nat.lt_trichotomy u p.tasks.length with hlt | heq | hgt
  · rw [List.getElem?_append_left hlt]
    constructor
    · exact Or.inl
    · rintro (h | ⟨h, _⟩)
      · exact h
      · exact absurd h (Nat.ne_of_lt hlt)
  · rw [heq, List.getElem?_concat_length, List.getElem?_eq_none (Nat.le_refl _)]
    simp [eq_comm]
  · rw [List.getElem?_eq_none (by simp; omega), List.getElem?_eq_none (Nat.le_of_lt hgt)]
    simp [Nat.ne_of_gt hgt]

/-! ## Turns coming -/

theorem mem_runnable_wake {t u : Ticket} {p : Pool ρ} :
    u ∈ (p.wake t).runnable ↔ u = t ∨ u ∈ p.runnable := by
  simp only [wake]
  split
  · rename_i hmem
    constructor
    · exact Or.inr
    · rintro (rfl | h)
      · exact hmem
      · exact h
  · simp [or_comm]

theorem length_runnable_wake (t : Ticket) (p : Pool ρ) :
    (p.wake t).runnable.length ≤ p.runnable.length + 1 := by
  simp only [wake]
  split
  · exact Nat.le_succ _
  · simp

/-! ## Cancelling -/

theorem getElem?_cancel {t u : Ticket} {p : Pool ρ} {b : Task ρ} :
    (p.cancel t).tasks[u]? = some b ↔
      ∃ a, p.tasks[u]? = some a ∧ b = if t = u then { a with cancelled := true } else a :=
  getElem?_modify

@[simp] theorem length_tasks_cancel (t : Ticket) (p : Pool ρ) :
    (p.cancel t).tasks.length = p.tasks.length :=
  List.length_modify _ _ _

/-- Cancelling gives a turn to the cancelled task only, and only if it has not ended. -/
theorem mem_runnable_cancel {t u : Ticket} {p : Pool ρ} :
    u ∈ (p.cancel t).runnable ↔
      u ∈ p.runnable ∨ (u = t ∧ ∃ a, p.tasks[t]? = some a ∧ isUnfinished a = true) := by
  simp only [cancel, Option.any_eq_true]
  split
  · rename_i h
    rw [mem_runnable_wake]
    simp only [h, and_true]
    exact or_comm
  · rename_i h
    simp only [h, and_false, or_false]

theorem length_runnable_cancel (t : Ticket) (p : Pool ρ) :
    (p.cancel t).runnable.length ≤ p.runnable.length + 1 := by
  simp only [cancel]
  split
  · exact length_runnable_wake t p
  · exact Nat.le_succ _

theorem isCancelled_of_task {t : Ticket} {p : Pool ρ} {a : Task ρ} (h : p.tasks[t]? = some a) :
    p.isCancelled t = a.cancelled := by
  simp [isCancelled, h]

/-! ## Replies -/

theorem getElem?_hand {t u : Ticket} {reply : ρ} {p : Pool ρ} {b : Task ρ} :
    (p.hand t reply).tasks[u]? = some b ↔
      ∃ a, p.tasks[u]? = some a ∧ b = if t = u then { a with phase := .answered reply } else a := by
  rw [hand]
  exact getElem?_modify

theorem getElem?_finish {t u : Ticket} {p : Pool ρ} {b : Task ρ} :
    (p.finish t).tasks[u]? = some b ↔
      ∃ a, p.tasks[u]? = some a ∧ b = if t = u then { a with phase := .done } else a :=
  getElem?_modify

@[simp] theorem length_tasks_finish (t : Ticket) (p : Pool ρ) :
    (p.finish t).tasks.length = p.tasks.length :=
  List.length_modify _ _ _

@[simp] theorem runnable_finish (t : Ticket) (p : Pool ρ) :
    (p.finish t).runnable = p.runnable := rfl

@[simp] theorem backend_finish (t : Ticket) (p : Pool ρ) : (p.finish t).backend = p.backend := rfl

@[simp] theorem completions_finish (t : Ticket) (p : Pool ρ) :
    (p.finish t).completions = p.completions := rfl

@[simp] theorem isOpen_finish (t : Ticket) (p : Pool ρ) : (p.finish t).isOpen = p.isOpen := rfl

@[simp] theorem arrivals_finish (t : Ticket) (p : Pool ρ) :
    (p.finish t).arrivals = p.arrivals := rfl

/-! ## Taking a reply -/

section Heed

variable (m : Meaning ρ) (reply : ρ) (p : Pool ρ)

@[simp] theorem length_tasks_heed : (p.heed m reply).tasks.length = p.tasks.length := by
  unfold heed
  split
  · exact length_tasks_cancel _ p
  · rfl

/-- At most one task gets a turn for being cancelled. -/
theorem length_runnable_heed : (p.heed m reply).runnable.length ≤ p.runnable.length + 1 := by
  unfold heed
  split
  · exact length_runnable_cancel _ p
  · exact Nat.le_succ _

@[simp] theorem backend_heed : (p.heed m reply).backend = p.backend := by
  unfold heed
  split <;> rfl

@[simp] theorem completions_heed : (p.heed m reply).completions = p.completions := by
  unfold heed
  split <;> rfl

@[simp] theorem isOpen_heed : (p.heed m reply).isOpen = p.isOpen := by
  unfold heed
  split <;> rfl

@[simp] theorem arrivals_heed : (p.heed m reply).arrivals = p.arrivals := by
  unfold heed
  split <;> rfl

variable (t : Ticket) (a : Task ρ)

@[simp] theorem tasks_takeReply :
    (p.takeReply m t a reply).tasks = ((p.finish t).heed m reply).tasks := by
  simp only [takeReply]
  split <;> rfl

@[simp] theorem runnable_takeReply :
    (p.takeReply m t a reply).runnable = ((p.finish t).heed m reply).runnable := by
  simp only [takeReply]
  split <;> rfl

@[simp] theorem backend_takeReply : (p.takeReply m t a reply).backend = p.backend := by
  simp only [takeReply]
  split <;> simp [complete, warn]

@[simp] theorem isOpen_takeReply : (p.takeReply m t a reply).isOpen = p.isOpen := by
  simp only [takeReply]
  split <;> simp [complete, warn]

theorem isCancelled_takeReply : (p.takeReply m t a reply).isCancelled t =
    ((p.finish t).heed m reply).isCancelled t := by
  simp only [isCancelled, tasks_takeReply]

/-- The reply is recorded, with whether it came too late. -/
theorem arrivals_takeReply : (p.takeReply m t a reply).arrivals = p.arrivals ++
    [⟨a.request t, reply, (p.takeReply m t a reply).isCancelled t⟩] := by
  rw [isCancelled_takeReply]
  simp only [takeReply]
  split <;> simp [complete, warn]

/-- A completion is left unless the task is cancelled by now or nobody receives it. -/
theorem completions_takeReply : (p.takeReply m t a reply).completions =
    if (p.takeReply m t a reply).isCancelled t = false ∧ p.isOpen = true then
      p.completions ++ [⟨a.request t, Outcome.coverage (m.outcome reply)⟩]
    else p.completions := by
  rw [isCancelled_takeReply]
  simp only [takeReply]
  split
  · rename_i hlate
    simp [hlate]
  · rename_i hlate
    simp [hlate, complete, warn]

end Heed

/-- Whom a reply cancels changes in nothing else. -/
theorem getElem?_heed {m : Meaning ρ} {reply : ρ} {u : Ticket} {p : Pool ρ} {b : Task ρ}
    (h : (p.heed m reply).tasks[u]? = some b) :
    ∃ a, p.tasks[u]? = some a ∧ b.phase = a.phase := by
  unfold heed at h
  split at h
  · obtain ⟨a, ha, hb⟩ := getElem?_cancel.mp h
    refine ⟨a, ha, ?_⟩
    rw [hb]
    split <;> rfl
  · exact ⟨b, h, rfl⟩

/-! ## Turns -/

/-- What the turn of a task can do to a pool. -/
inductive Turn (m : Meaning ρ) (t : Ticket) (task : Task ρ) (p : Pool ρ) : Pool ρ → Prop
  /-- nothing, for the task cannot go on -/
  | rest : ¬ task.CanStep → Turn m t task p { p with runnable := p.runnable.erase t }
  /-- it ends because it was cancelled, and awaits its reply no more -/
  | quit (backend : Backend ρ) : task.cancelled = true → task.phase ≠ .done →
      (task.phase = .waiting ∧ backend = p.backend.abandon t ∨
        task.phase ≠ .waiting ∧ backend = p.backend) →
      Turn m t task p (({ p with runnable := p.runnable.erase t, backend } : Pool ρ).finish t)
  /-- it calls the backend and has to wait -/
  | call (backend : Backend ρ) : task.cancelled = false → task.phase = .queued →
      p.backend.call task.document.uri.text t = (none, backend) →
      Turn m t task p
        (({ p with
            runnable := p.runnable.erase t
            calls := p.calls ++ [task.request t]
            backend } : Pool ρ).modify t fun task => { task with phase := .waiting })
  /-- it takes its reply: one that came to it, or one that its call finds ready -/
  | take (reply : ρ) (backend : Backend ρ) (calls : List Request) : task.cancelled = false →
      task.phase ≠ .done → task.phase ≠ .waiting → backend.awaiting = p.backend.awaiting →
      Turn m t task p
        (({ p with runnable := p.runnable.erase t, calls, backend } : Pool ρ).takeReply
          m t task reply)

/-- Every turn is one of the four kinds. -/
theorem turn_progress (m : Meaning ρ) {t : Ticket} {task : Task ρ} {p : Pool ρ}
    (h : p.tasks[t]? = some task) : Turn m t task p (p.progress m t) := by
  have hprogress : p.progress m t = step m t task { p with runnable := p.runnable.erase t } := by
    simp [progress, h]
  rw [hprogress]
  unfold step
  cases hphase : task.phase with
  | queued =>
    cases hcancelled : task.cancelled with
    | true => exact .quit p.backend hcancelled (by simp [hphase]) (Or.inr ⟨by simp [hphase], rfl⟩)
    | false =>
      simp only [callBackend]
      cases hcall : p.backend.call task.document.uri.text t with
      | mk found backend =>
        cases found with
        | none => exact .call backend hcancelled hphase hcall
        | some reply =>
          exact .take reply backend _ hcancelled (by simp [hphase]) (by simp [hphase])
            (Backend.awaiting_call_of_some hcall)
  | waiting =>
    cases hcancelled : task.cancelled with
    | true => exact .quit (p.backend.abandon t) hcancelled (by simp [hphase]) (Or.inl ⟨hphase, rfl⟩)
    | false => exact .rest (by simp [Task.CanStep, hphase, hcancelled])
  | answered reply =>
    cases hcancelled : task.cancelled with
    | true => exact .quit p.backend hcancelled (by simp [hphase]) (Or.inr ⟨by simp [hphase], rfl⟩)
    | false =>
      exact .take reply p.backend p.calls hcancelled (by simp [hphase]) (by simp [hphase]) rfl
  | done => exact .rest (by simp [Task.CanStep, hphase])

theorem progress_of_none (m : Meaning ρ) {t : Ticket} {p : Pool ρ} (h : p.tasks[t]? = none) :
    p.progress m t = p := by
  simp [progress, h]

/-- The turn of a task that cannot go on is only used up. -/
theorem progress_of_not_canStep {m : Meaning ρ} {t : Ticket} {a : Task ρ} {p : Pool ρ}
    (ha : p.tasks[t]? = some a) (hstep : ¬ a.CanStep) :
    p.progress m t = { p with runnable := p.runnable.erase t } := by
  simp only [progress, ha, step]
  unfold Task.CanStep at hstep
  cases hphase : a.phase with
  | done => rfl
  | queued => simp [hphase] at hstep
  | answered reply => simp [hphase] at hstep
  | waiting =>
    cases hcancelled : a.cancelled with
    | true => simp [hphase, hcancelled] at hstep
    | false => rfl

end Pool

end CoverageTracker
