import CoverageTracker.Proofs.Pool.Calls
set_option autoImplicit false

/-!
# What calls return with, and who is warned

The turn in which the call of a task returns ends the task (`progress_of_returned`), and the pool
records what it took, and whether it was cancelled by then (`arrivals_progress`).  So each task
takes at most one reply (`Recorded`).  `failures` are the warnings that replies give rise to: one
for each that was not taken too late and stands for a failure.
-/

namespace CoverageTracker.Pool

variable {ρ : Type} {m : Meaning ρ} {p q : Pool ρ} {t : Ticket} {reply : ρ}

/-! ## Turns in which a call returns -/

/-- A task whose call returns takes the reply, and whoever it calls and asks before makes no
difference to that. -/
theorem progress_of_returned (m : Meaning ρ) (h : p.returned t = some reply) :
    ∃ task calls backend, p.tasks[t]? = some task ∧ task.phase ≠ .done ∧
      p.progress m t =
        ({ p with runnable := p.runnable.erase t, calls, backend } : Pool ρ).takeReply m t task
          reply := by
  cases htask : p.tasks[t]? with
  | none => simp [returned, htask] at h
  | some task =>
    simp only [returned, htask] at h
    simp only [progress, htask, step]
    split at h
    · rename_i hphase hcancelled
      simp only [hphase, hcancelled, callBackend]
      rcases hcall : p.backend.call task.document.uri.text t with ⟨found, backend⟩
      rw [hcall] at h
      cases h
      exact ⟨task, _, backend, rfl, by simp [hphase], rfl⟩
    · rename_i hphase hcancelled
      cases h
      simp only [hphase, hcancelled]
      exact ⟨task, p.calls, p.backend, rfl, by simp [hphase], rfl⟩
    · cases h

theorem arrivals_progress_of_none (m : Meaning ρ) (h : p.returned t = none) :
    (p.progress m t).arrivals = p.arrivals := by
  cases htask : p.tasks[t]? with
  | none => rw [progress_of_none m htask]
  | some task =>
    simp only [returned, htask] at h
    simp only [progress, htask, step]
    cases hphase : task.phase with
    | queued =>
      cases hcancelled : task.cancelled with
      | true => rfl
      | false =>
        simp only [hphase, hcancelled] at h
        simp only [callBackend]
        rcases hcall : p.backend.call task.document.uri.text t with ⟨found, backend⟩
        rw [hcall] at h
        cases h
        rfl
    | waiting => cases task.cancelled <;> rfl
    | answered reply =>
      cases hcancelled : task.cancelled with
      | true => rfl
      | false =>
        simp only [hphase, hcancelled] at h
        cases h
    | done => rfl

/-- What a turn adds to the replies that were taken: what the call of the task returns with, and
whether the task is cancelled when it looks after that. -/
def returns (m : Meaning ρ) (t : Ticket) (p : Pool ρ) : List (Arrival ρ) :=
  match p.tasks[t]?, p.returned t with
  | some task, some reply => [⟨task.request t, reply, (p.progress m t).isCancelled t⟩]
  | _, _ => []

theorem returns_of_none (m : Meaning ρ) (h : p.returned t = none) : p.returns m t = [] := by
  unfold returns
  rw [h]
  cases p.tasks[t]? <;> rfl

theorem request_of_returns {a : Arrival ρ} {task : Task ρ} (htask : p.tasks[t]? = some task)
    (ha : a ∈ p.returns m t) : a.request = task.request t := by
  simp only [returns, htask] at ha
  split at ha
  · rename_i htask' _
    cases htask'
    rw [List.mem_singleton.mp ha]
  · cases ha

theorem arrivals_progress (m : Meaning ρ) (t : Ticket) (p : Pool ρ) :
    (p.progress m t).arrivals = p.arrivals ++ p.returns m t := by
  cases hreturned : p.returned t with
  | none => rw [arrivals_progress_of_none m hreturned, returns_of_none m hreturned, List.append_nil]
  | some reply =>
    obtain ⟨task, calls, backend, htask, _, hprogress⟩ := progress_of_returned m hreturned
    simp only [returns, htask, hreturned]
    rw [hprogress, arrivals_takeReply]

@[simp] theorem arrivals_resolve (uri : String) (reply : ρ) (p : Pool ρ) :
    (p.resolve uri reply).2.arrivals = p.arrivals := by
  unfold resolve
  split <;> rfl

@[simp] theorem arrivals_answer (t : Ticket) (reply : ρ) (p : Pool ρ) :
    (p.answer t reply).2.arrivals = p.arrivals := by
  unfold answer
  split <;> rfl

/-! ## At most one reply for each task -/

/-- The tasks that took a reply have ended, and each took one. -/
structure Recorded (p : Pool ρ) : Prop where
  ended : ∀ a ∈ p.arrivals, ∃ task, p.tasks[a.request.ticket]? = some task ∧
    task.phase = .done ∧ a.request = task.request a.request.ticket
  distinct : (p.arrivals.map fun a => a.request.ticket).Nodup

namespace Recorded

theorem empty : (empty : Pool ρ).Recorded where
  ended := by
    intro a ha
    cases ha
  distinct := List.nodup_nil

/-- Tasks that have ended stay so. -/
theorem grows (h : p.Recorded) (hgrows : Grows p q) (harrivals : q.arrivals = p.arrivals) :
    q.Recorded where
  ended := by
    intro a ha
    rw [harrivals] at ha
    obtain ⟨task, htask, hdone, hrequest⟩ := h.ended a ha
    obtain ⟨later, hlater, hbecomes⟩ := hgrows _ task htask
    exact ⟨later, hlater, hbecomes.done hdone, hrequest.trans (hbecomes.request _).symm⟩
  distinct := by
    rw [harrivals]
    exact h.distinct

/-- No reply was taken for a task that has not ended. -/
theorem ne_of_unfinished {task : Task ρ} (h : p.Recorded) (htask : p.tasks[t]? = some task)
    (hunfinished : task.phase ≠ .done) : ∀ a ∈ p.arrivals, a.request.ticket ≠ t := by
  rintro a ha rfl
  obtain ⟨ended, hended, hphase, _⟩ := h.ended a ha
  rw [htask] at hended
  cases hended
  exact hunfinished hphase

theorem progress (h : p.Recorded) (m : Meaning ρ) (t : Ticket) : (p.progress m t).Recorded := by
  have hgrows : Grows p (p.progress m t) := (evolves_progress (m := m) t p).grows
  cases hreturned : p.returned t with
  | none => exact h.grows hgrows (arrivals_progress_of_none m hreturned)
  | some reply =>
    obtain ⟨task, calls, backend, htask, hunfinished, hprogress⟩ := progress_of_returned m hreturned
    have harrivals := arrivals_takeReply m reply
      { p with runnable := p.runnable.erase t, calls, backend } t task
    obtain ⟨later, hlater, hbecomes, hdone⟩ := becomes_takeReply (m := m) (t := t) (a := task)
      (p := { p with runnable := p.runnable.erase t, calls, backend }) reply htask
    rw [hprogress] at hgrows ⊢
    refine ⟨?_, ?_⟩
    · intro a ha
      rw [harrivals, List.mem_append, List.mem_singleton] at ha
      rcases ha with ha | rfl
      · obtain ⟨ended, hended, hphase, hrequest⟩ := h.ended a ha
        obtain ⟨after, hafter, hbecomes⟩ := hgrows _ ended hended
        exact ⟨after, hafter, hbecomes.done hphase, hrequest.trans (hbecomes.request _).symm⟩
      · exact ⟨later, hlater, hdone rfl, (hbecomes.request t).symm⟩
    · rw [harrivals, List.map_append, List.map_singleton, List.nodup_append]
      refine ⟨h.distinct, List.nodup_singleton _, ?_⟩
      intro u hu v hv huv
      obtain ⟨a, ha, rfl⟩ := List.mem_map.mp hu
      exact h.ne_of_unfinished htask hunfinished a ha (huv.trans (List.mem_singleton.mp hv))

end Recorded

/-! ## Failures -/

/-- The warnings that replies give rise to: those that stand for a failure and were not taken too
late. -/
def failures (outcome : ρ → Outcome) (arrivals : List (Arrival ρ)) : List Warning :=
  arrivals.filterMap fun a =>
    match a.cancelled, outcome a.reply with
    | false, .error e => some ⟨a.request, e⟩
    | _, _ => none

variable {outcome : ρ → Outcome} {arrivals : List (Arrival ρ)}

theorem mem_failures {w : Warning} : w ∈ failures outcome arrivals ↔
    ∃ a ∈ arrivals, a.cancelled = false ∧ outcome a.reply = .error w.error ∧
      a.request = w.request := by
  unfold failures
  rw [List.mem_filterMap]
  refine exists_congr fun a => and_congr_right fun _ => ?_
  cases a.cancelled with
  | true => simp
  | false =>
    cases outcome a.reply with
    | ok result => simp
    | error e =>
      constructor
      · intro h
        cases h
        exact ⟨rfl, rfl, rfl⟩
      · rintro ⟨_, herror, hrequest⟩
        cases herror
        rw [hrequest]

/-- Warnings stand in the order of the replies, one for each at most. -/
theorem failures_sublist (outcome : ρ → Outcome) (arrivals : List (Arrival ρ)) :
    ((failures outcome arrivals).map Warning.request).Sublist (arrivals.map Arrival.request) := by
  induction arrivals with
  | nil => exact .slnil
  | cons a arrivals ih =>
    unfold failures
    rw [List.filterMap_cons]
    split
    · exact ih.cons _
    · rename_i w hw
      have hrequest : w.request = a.request := by
        split at hw
        · cases hw
          rfl
        · cases hw
      rw [List.map_cons, List.map_cons, hrequest]
      exact ih.cons_cons _

theorem failures_append (outcome : ρ → Outcome) (before after : List (Arrival ρ)) :
    failures outcome (before ++ after) = failures outcome before ++ failures outcome after :=
  List.filterMap_append

/-- What a task does that takes a reply: whom the reply cancels is cancelled, the reply is recorded,
and if the task was not cancelled by then it warns of a failure and leaves a completion, as long as
somebody can receive it. -/
theorem takeReply_eq (m : Meaning ρ) (t : Ticket) (task : Task ρ) (reply : ρ) (p : Pool ρ) :
    p.takeReply m t task reply =
      let q := (p.finish t).heed m reply
      let a : Arrival ρ := ⟨task.request t, reply, q.isCancelled t⟩
      { q with
        arrivals := q.arrivals ++ [a]
        warnings := q.warnings ++ failures m.outcome [a]
        completions := if a.cancelled = false ∧ q.isOpen = true then
            q.completions ++ [⟨a.request, Outcome.coverage (m.outcome reply)⟩]
          else q.completions } := by
  unfold takeReply
  generalize (p.finish t).heed m reply = q
  cases hlate : q.isCancelled t with
  | true => simp [failures, hlate]
  | false =>
    cases houtcome : m.outcome reply with
    | ok result => simp [failures, warn, complete, hlate, houtcome]
    | error e => simp [failures, warn, complete, hlate, houtcome]

end CoverageTracker.Pool
