import CoverageTracker.Proofs.Pool.Returns
import CoverageTracker.Proofs.Pool.Schedule
import CoverageTracker.Proofs.Pool.Silence
set_option autoImplicit false

/-!
# Between turns, and the turns after

Between turns tasks are started and cancelled, and none gets any further (`Still`).  While no task
can go on (`Stuck`) every task is mute, so when turns are taken again only tasks that were started
in the meantime can be heard of, and of these only one that was not cancelled.  `Poised` is the
invariant of such turns: all tasks are mute but perhaps one, which is to have its first turn and
then is mute as well.  So whatever is heard of the tasks (`Heard`) is the one call of that one
(`Poised.turns`).
-/

namespace CoverageTracker.Pool

variable {ρ : Type} {m : Meaning ρ} {p q r : Pool ρ} {next : Option Request}

/-! ## Between turns -/

/-- Tasks were started between two pools, and the others are as far as they were. -/
structure Still (p q : Pool ρ) : Prop where
  length : p.tasks.length ≤ q.tasks.length
  phase : ∀ (t : Ticket) (b : Task ρ), q.tasks[t]? = some b →
    (∃ a, p.tasks[t]? = some a ∧ b.phase = a.phase) ∨ p.tasks.length ≤ t ∧ b.phase = .queued
  calls : q.calls = p.calls
  arrivals : q.arrivals = p.arrivals

namespace Still

theorem of_tasks_eq (htasks : q.tasks = p.tasks) (hcalls : q.calls = p.calls)
    (harrivals : q.arrivals = p.arrivals) : Still p q where
  length := Nat.le_of_eq (by rw [htasks])
  phase := by
    intro t b hb
    exact Or.inl ⟨b, by rw [← htasks]; exact hb, rfl⟩
  calls := hcalls
  arrivals := harrivals

theorem refl (p : Pool ρ) : Still p p := of_tasks_eq rfl rfl rfl

theorem trans (hpq : Still p q) (hqr : Still q r) : Still p r where
  length := Nat.le_trans hpq.length hqr.length
  phase := by
    intro t c hc
    rcases hqr.phase t c hc with ⟨b, hb, hphase⟩ | ⟨hnew, hqueued⟩
    · rw [hphase]
      exact hpq.phase t b hb
    · exact Or.inr ⟨Nat.le_trans hpq.length hnew, hqueued⟩
  calls := hqr.calls.trans hpq.calls
  arrivals := hqr.arrivals.trans hpq.arrivals

end Still

theorem still_start (id : RequestId) (d : Document) (p : Pool ρ) : Still p (p.start id d).2 where
  length := by simp [start]
  phase := by
    intro t b hb
    rcases getElem?_start.mp hb with hb | ⟨rfl, rfl⟩
    · exact Or.inl ⟨b, hb, rfl⟩
    · exact Or.inr ⟨Nat.le_refl _, rfl⟩
  calls := rfl
  arrivals := rfl

theorem still_cancel (t : Ticket) (p : Pool ρ) : Still p (p.cancel t) where
  length := Nat.le_of_eq (length_tasks_cancel t p).symm
  phase := by
    intro u b hb
    obtain ⟨a, ha, rfl⟩ := getElem?_cancel.mp hb
    refine Or.inl ⟨a, ha, ?_⟩
    split <;> rfl
  calls := rfl
  arrivals := rfl

/-! ## Turns after that -/

/-- No task can go on. -/
def Stuck (p : Pool ρ) : Prop :=
  ∀ (t : Ticket) (a : Task ρ), p.tasks[t]? = some a → ¬ a.CanStep

theorem AtRest.stuck (h : AtRest m p) : p.Stuck := fun _ _ => h.not_canStep

/-- A task that cannot go on has ended, or waits for its reply. -/
theorem Stuck.phase {t : Ticket} {a : Task ρ} (h : p.Stuck) (ha : p.tasks[t]? = some a) :
    a.phase = .done ∨ a.phase = .waiting ∧ a.cancelled = false := by
  have hstep := h t a ha
  unfold Task.CanStep at hstep
  cases hphase : a.phase with
  | done => exact Or.inl rfl
  | waiting => exact Or.inr ⟨rfl, by simpa [hphase] using hstep⟩
  | queued => simp [hphase] at hstep
  | answered reply => simp [hphase] at hstep

/-- What was heard of the tasks between two pools is of the given requests: their calls. -/
structure Heard (called : List Request) (p q : Pool ρ) : Prop where
  calls : q.calls = p.calls ++ called
  arrivals : ∀ a ∈ q.arrivals, a ∈ p.arrivals ∨ a.request ∈ called
  completions : ∀ x ∈ q.completions, x ∈ p.completions ∨ x.request ∈ called

namespace Heard

theorem of_silent (h : Silent p q) : Heard [] p q where
  calls := by rw [h.calls, List.append_nil]
  arrivals := by
    intro a ha
    rw [h.arrivals] at ha
    exact Or.inl ha
  completions := fun x hx => Or.inl (h.completions.subset hx)

theorem trans {early late : List Request} (hpq : Heard early p q) (hqr : Heard late q r) :
    Heard (early ++ late) p r where
  calls := by rw [hqr.calls, hpq.calls, List.append_assoc]
  arrivals := by
    intro a ha
    rcases hqr.arrivals a ha with ha | ha
    · exact (hpq.arrivals a ha).imp_right (List.mem_append_left late)
    · exact Or.inr (List.mem_append_right early ha)
  completions := by
    intro x hx
    rcases hqr.completions x hx with hx | hx
    · exact (hpq.completions x hx).imp_right (List.mem_append_left late)
    · exact Or.inr (List.mem_append_right early hx)

end Heard

/-- Every task is mute but the one of the given request, which is to have its first turn. -/
structure Poised (next : Option Request) (p : Pool ρ) : Prop where
  first : ∀ r, next = some r → ∃ a, p.tasks[r.ticket]? = some a ∧ a.phase = .queued ∧
    a.cancelled = false ∧ r = a.request r.ticket
  mute : ∀ (t : Ticket) (a : Task ρ), p.tasks[t]? = some a →
    (∀ r, next = some r → r.ticket ≠ t) → a.IsMute

namespace Poised

/-- Another task has the turn. -/
theorem silent_progress (h : Poised next p) (m : Meaning ρ) {t : Ticket}
    (ht : ∀ r, next = some r → r.ticket ≠ t) :
    Poised next (p.progress m t) ∧ Silent p (p.progress m t) := by
  have hmute : ∀ a, p.tasks[t]? = some a → a.IsMute := fun a ha => h.mute t a ha ht
  refine ⟨⟨?_, ?_⟩, Pool.silent_progress m hmute⟩
  · intro r hr
    rw [tasks_progress_of_mute m hmute (Ne.symm (ht r hr))]
    exact h.first r hr
  · intro u b hb hu
    exact mute_of_progress hb fun a ha => h.mute u a ha hu

/-- The task that is to have its first turn has it: it calls the backend. -/
theorem first_progress {r : Request} (h : Poised (some r) p) (m : Meaning ρ) :
    Poised none (p.progress m r.ticket) ∧ Heard [r] p (p.progress m r.ticket) := by
  obtain ⟨a, ha, hqueued, hlive, hrequest⟩ := h.first r rfl
  have hstep : a.CanStep := by simp [Task.CanStep, hqueued]
  refine ⟨⟨?_, ?_⟩, ?_, ?_, ?_⟩
  · intro r' hr'
    cases hr'
  · intro u b hb _
    by_cases hu : r.ticket = u
    · -- its own turn takes it to its end, or leaves it waiting
      subst hu
      obtain ⟨b', hb', hlater⟩ := phase_progress (m := m) ha hstep
      rw [hb] at hb'
      cases hb'
      obtain ⟨a', ha', hphase⟩ := phase_of_progress hb
      rw [ha] at ha'
      cases ha'
      rcases hphase with hsame | ⟨_, hdone | ⟨hwaiting, _⟩⟩
      · exact absurd hsame hlater
      · exact Or.inl hdone
      · exact Or.inr (Or.inl hwaiting)
    · refine mute_of_progress hb fun c hc => h.mute u c hc ?_
      rintro r' ⟨⟩
      exact hu
  · rw [calls_progress_of_queued m ha hqueued hlive, ← hrequest]
  · intro x hx
    rw [arrivals_progress, List.mem_append] at hx
    refine hx.imp_right fun hx => ?_
    rw [request_of_returns ha hx, ← hrequest]
    exact List.mem_singleton_self _
  · intro x hx
    obtain ⟨new, hqueue, hnew⟩ := completions_progress m r.ticket p
    rw [hqueue, List.mem_append] at hx
    refine hx.imp_right fun hx => ?_
    obtain ⟨a', _, ha', _, _, _, rfl⟩ := (hnew x).mp hx
    rw [ha] at ha'
    cases ha'
    rw [List.mem_singleton]
    exact hrequest.symm

/-- Whatever turns are taken, the only call is the one of the task that is to have its first turn,
and it is still to come or was made. -/
theorem turns (h : Poised next p) (m : Meaning ρ) (tickets : List Ticket) :
    let q := tickets.foldl (fun p t => p.progress m t) p
    ∃ called left, Heard called p q ∧ Poised left q ∧ called ++ left.toList = next.toList := by
  induction tickets generalizing p next with
  | nil => exact ⟨[], next, .of_silent (.refl p), h, rfl⟩
  | cons t tickets ih =>
    by_cases ht : ∀ r, next = some r → r.ticket ≠ t
    · obtain ⟨hpoised, hsilent⟩ := h.silent_progress m ht
      obtain ⟨called, left, hheard, hleft, hcalled⟩ := ih hpoised
      exact ⟨called, left, (Heard.of_silent hsilent).trans hheard, hleft, hcalled⟩
    · simp only [not_forall, not_not] at ht
      obtain ⟨r, rfl, rfl⟩ := ht
      obtain ⟨hpoised, hfirst⟩ := h.first_progress m
      obtain ⟨called, left, hheard, hleft, hcalled⟩ := ih hpoised
      refine ⟨r :: called, left, hfirst.trans hheard, hleft, ?_⟩
      rw [List.cons_append, hcalled]
      rfl

/-- Once no task can go on nobody is to have a first turn any more. -/
theorem eq_none_of_stuck (h : Poised next p) (hstuck : p.Stuck) : next = none := by
  cases hnext : next with
  | none => rfl
  | some r =>
    obtain ⟨a, ha, hqueued, _, _⟩ := h.first r hnext
    exact absurd (by simp [Task.CanStep, hqueued]) (hstuck _ a ha)

end Poised

end CoverageTracker.Pool
