import CoverageTracker.Proofs.Pool.Calls
import CoverageTracker.Proofs.Pool.Stillness
set_option autoImplicit false

/-!
# Each task calls the backend at most once

A task calls the backend in its first turn only, and no task is put back before it (`Advances`).
So among the calls that were made none is of a task that has not had a turn, and no two are of one
task (`Asked`).
-/

namespace CoverageTracker.Pool

variable {ρ : Type} {m : Meaning ρ} {p q r : Pool ρ} {t : Ticket}

/-! ## Tasks that have had a turn -/

/-- No task that has had its first turn is put back before it. -/
def Advances (p q : Pool ρ) : Prop :=
  ∀ (t : Ticket) (a : Task ρ), p.tasks[t]? = some a → a.phase ≠ .queued →
    ∃ b, q.tasks[t]? = some b ∧ b.phase ≠ .queued ∧ b.request t = a.request t

theorem advances_of_tasks_eq (htasks : q.tasks = p.tasks) : Advances p q := by
  intro t a ha hphase
  exact ⟨a, by rw [htasks]; exact ha, hphase, rfl⟩

/-- Where no task gets any further, none is put back. -/
theorem Still.advances (h : Still p q) (hgrows : Grows p q) : Advances p q := by
  intro t a ha hphase
  obtain ⟨b, hb, hbecomes⟩ := hgrows t a ha
  refine ⟨b, hb, ?_, hbecomes.request t⟩
  rcases h.phase t b hb with ⟨a', ha', hsame⟩ | ⟨hnew, _⟩
  · rw [ha] at ha'
    cases ha'
    rw [hsame]
    exact hphase
  · exact absurd (List.getElem?_eq_some_iff.mp ha).1 (Nat.not_lt.mpr hnew)

theorem advances_hand (t : Ticket) (reply : ρ) (backend : Backend ρ) (p : Pool ρ) :
    Advances p (({ p with backend } : Pool ρ).hand t reply) := by
  intro u a ha hphase
  refine ⟨_, getElem?_hand.mpr ⟨a, ha, rfl⟩, ?_⟩
  split
  · exact ⟨nofun, rfl⟩
  · exact ⟨hphase, rfl⟩

theorem advances_resolve (uri : String) (reply : ρ) (p : Pool ρ) :
    Advances p (p.resolve uri reply).2 := by
  unfold resolve
  split
  · exact advances_hand _ reply _ p
  · exact advances_of_tasks_eq rfl

theorem advances_answer (t : Ticket) (reply : ρ) (p : Pool ρ) :
    Advances p (p.answer t reply).2 := by
  unfold answer
  split
  · exact advances_hand t reply _ p
  · exact advances_of_tasks_eq rfl

theorem advances_progress (m : Meaning ρ) (t : Ticket) (p : Pool ρ) :
    Advances p (p.progress m t) := by
  intro u a ha hphase
  obtain ⟨b, hb, hbecomes⟩ := (evolves_progress (m := m) t p).becomes u a ha
  refine ⟨b, hb, ?_, hbecomes.request u⟩
  obtain ⟨a', ha', hb'⟩ := phase_of_progress hb
  rw [ha] at ha'
  cases ha'
  rcases hb' with hsame | ⟨_, hdone | ⟨hwaiting, _⟩⟩
  · rw [hsame]
    exact hphase
  · simp [hdone]
  · simp [hwaiting]

/-! ## Calls -/

/-- Calls are of tasks that have had a turn, at most one of each. -/
structure Asked (p : Pool ρ) : Prop where
  caller : ∀ r ∈ p.calls, ∃ a, p.tasks[r.ticket]? = some a ∧ a.phase ≠ .queued ∧
    r = a.request r.ticket
  distinct : (p.calls.map Request.ticket).Nodup

namespace Asked

theorem empty : (empty : Pool ρ).Asked where
  caller := by
    intro r hr
    cases hr
  distinct := List.nodup_nil

/-- No call is made. -/
theorem advance (h : p.Asked) (hadvances : Advances p q) (hcalls : q.calls = p.calls) :
    q.Asked where
  caller := by
    intro r hr
    rw [hcalls] at hr
    obtain ⟨a, ha, hphase, hrequest⟩ := h.caller r hr
    obtain ⟨b, hb, hlater, hab⟩ := hadvances _ a ha hphase
    exact ⟨b, hb, hlater, hrequest.trans hab.symm⟩
  distinct := by
    rw [hcalls]
    exact h.distinct

/-- No call is of a task that has had no turn. -/
theorem ne_of_queued {a : Task ρ} (h : p.Asked) (ha : p.tasks[t]? = some a)
    (hqueued : a.phase = .queued) : ∀ r ∈ p.calls, r.ticket ≠ t := by
  rintro r hr rfl
  obtain ⟨b, hb, hphase, _⟩ := h.caller r hr
  rw [ha] at hb
  cases hb
  exact hphase hqueued

/-- A task calls in its first turn. -/
theorem call {a : Task ρ} (h : p.Asked) (ha : p.tasks[t]? = some a) (hqueued : a.phase = .queued)
    (hadvances : Advances p q) (hcalls : q.calls = p.calls ++ [a.request t])
    (hturn : ∃ b, q.tasks[t]? = some b ∧ b.phase ≠ .queued ∧ b.request t = a.request t) :
    q.Asked where
  caller := by
    intro r hr
    rw [hcalls, List.mem_append, List.mem_singleton] at hr
    rcases hr with hr | rfl
    · obtain ⟨c, hc, hphase, hrequest⟩ := h.caller r hr
      obtain ⟨d, hd, hlater, hcd⟩ := hadvances _ c hc hphase
      exact ⟨d, hd, hlater, hrequest.trans hcd.symm⟩
    · obtain ⟨b, hb, hlater, hab⟩ := hturn
      exact ⟨b, hb, hlater, hab.symm⟩
  distinct := by
    rw [hcalls, List.map_append, List.map_singleton, List.nodup_append]
    refine ⟨h.distinct, List.nodup_singleton _, ?_⟩
    intro u hu v hv huv
    obtain ⟨r, hr, rfl⟩ := List.mem_map.mp hu
    exact h.ne_of_queued ha hqueued r hr (huv.trans (List.mem_singleton.mp hv))

theorem progress (h : p.Asked) (m : Meaning ρ) (t : Ticket) : (p.progress m t).Asked := by
  have hadvances := advances_progress m t p
  cases htask : p.tasks[t]? with
  | none =>
    rw [progress_of_none m htask]
    exact h
  | some a =>
    have hcall : a.phase = .queued → (p.progress m t).calls = p.calls ++ [a.request t] →
        (p.progress m t).Asked := by
      intro hqueued hcalls
      have hstep : a.CanStep := by simp [Task.CanStep, hqueued]
      obtain ⟨b, hb, hphase⟩ := phase_progress (m := m) htask hstep
      obtain ⟨b', hb', hbecomes⟩ := (evolves_progress (m := m) t p).becomes t a htask
      rw [hb] at hb'
      cases hb'
      rw [hqueued] at hphase
      exact h.call htask hqueued hadvances hcalls ⟨b, hb, hphase, hbecomes.request t⟩
    cases dealing_progress m htask with
    | idle _ hcalls _ _ => exact h.advance hadvances hcalls
    | call _ hqueued _ hcalls _ _ => exact hcall hqueued hcalls
    | reply reply _ hcalls _ _ =>
      rcases hcalls with ⟨hqueued, _, hcalls, _⟩ | ⟨_, hcalls⟩
      · exact hcall hqueued hcalls
      · exact h.advance hadvances hcalls

end Asked

end CoverageTracker.Pool
