import CoverageTracker.Proofs.Pool.Calls
set_option autoImplicit false

/-!
# Tasks that are not heard of

Nothing is heard of the turn of a task that has ended, was cancelled or still waits for its reply
(`Task.IsMute`): no call of the backend is made and none returns, nobody is warned, and completions
only leave the queue (`Silent`).  A pool has ceased when every task has ended or was cancelled
(`Ceased`).  All that its tasks can do is end, whatever the backend replies, and whoever is cancelled
once more.
-/

namespace CoverageTracker

/-- A task that has ended, was cancelled, or waits for a reply that has not come. -/
def Task.IsMute {ρ : Type} (a : Task ρ) : Prop :=
  a.phase = .done ∨ a.phase = .waiting ∨ a.cancelled = true

namespace Pool

variable {ρ : Type} {m : Meaning ρ} {p q r : Pool ρ}

/-- Every task has ended, or was cancelled and has only its end before it. -/
def Ceased (p : Pool ρ) : Prop :=
  ∀ (t : Ticket) (a : Task ρ), p.tasks[t]? = some a → a.phase = .done ∨ a.cancelled = true

/-- Nothing was heard of the tasks between two pools. -/
structure Silent (p q : Pool ρ) : Prop where
  started : q.tasks.length = p.tasks.length
  calls : q.calls = p.calls
  arrivals : q.arrivals = p.arrivals
  warnings : q.warnings = p.warnings
  completions : q.completions <:+ p.completions

namespace Silent

theorem refl (p : Pool ρ) : Silent p p := ⟨rfl, rfl, rfl, rfl, List.suffix_refl _⟩

theorem trans (hpq : Silent p q) (hqr : Silent q r) : Silent p r where
  started := hqr.started.trans hpq.started
  calls := hqr.calls.trans hpq.calls
  arrivals := hqr.arrivals.trans hpq.arrivals
  warnings := hqr.warnings.trans hpq.warnings
  completions := hqr.completions.trans hpq.completions

/-- Changing a task, the turns or the backend makes no noise. -/
theorem of_modify {t : Ticket} {f : Task ρ → Task ρ} (htasks : q.tasks = p.tasks.modify t f)
    (hcalls : q.calls = p.calls) (harrivals : q.arrivals = p.arrivals)
    (hwarnings : q.warnings = p.warnings) (hcompletions : q.completions = p.completions) :
    Silent p q where
  started := by rw [htasks, List.length_modify]
  calls := hcalls
  arrivals := harrivals
  warnings := hwarnings
  completions := ⟨[], hcompletions⟩

end Silent

theorem silent_cancel (t : Ticket) (p : Pool ρ) : Silent p (p.cancel t) :=
  .of_modify rfl rfl rfl rfl rfl

theorem silent_resolve (uri : String) (reply : ρ) (p : Pool ρ) :
    Silent p (p.resolve uri reply).2 := by
  unfold resolve
  split
  · exact .of_modify rfl rfl rfl rfl rfl
  · exact ⟨rfl, rfl, rfl, rfl, List.suffix_refl _⟩

theorem silent_answer (t : Ticket) (reply : ρ) (p : Pool ρ) : Silent p (p.answer t reply).2 := by
  unfold answer
  split
  · exact .of_modify rfl rfl rfl rfl rfl
  · exact .refl p

/-! ## Turns of mute tasks -/

/-- A mute task ends in its turn, or can do nothing. -/
theorem turn_of_mute {t : Ticket} {task : Task ρ} (h : Turn m t task p q) (hmute : task.IsMute) :
    q = { p with runnable := p.runnable.erase t } ∨
      ∃ backend, q = ({ p with runnable := p.runnable.erase t, backend } : Pool ρ).finish t := by
  cases h with
  | rest _ => exact Or.inl rfl
  | quit backend _ _ _ => exact Or.inr ⟨backend, rfl⟩
  | call backend hlive hqueued _ =>
    rw [Task.IsMute, hlive, hqueued] at hmute
    simp at hmute
  | take reply backend calls hlive hunfinished hready _ =>
    rcases hmute with hdone | hwaiting | hcancelled
    · exact absurd hdone hunfinished
    · exact absurd hwaiting hready
    · rw [hlive] at hcancelled
      cases hcancelled

theorem silent_progress (m : Meaning ρ) {t : Ticket}
    (hmute : ∀ a, p.tasks[t]? = some a → a.IsMute) : Silent p (p.progress m t) := by
  cases htask : p.tasks[t]? with
  | none =>
    rw [progress_of_none m htask]
    exact .refl p
  | some task =>
    rcases turn_of_mute (turn_progress m htask) (hmute task htask) with hrest | ⟨backend, hquit⟩
    · rw [hrest]
      exact ⟨rfl, rfl, rfl, rfl, List.suffix_refl _⟩
    · rw [hquit]
      exact .of_modify rfl rfl rfl rfl rfl

/-- The turn of a mute task changes no other one. -/
theorem tasks_progress_of_mute (m : Meaning ρ) {t u : Ticket}
    (hmute : ∀ a, p.tasks[t]? = some a → a.IsMute) (htu : t ≠ u) :
    (p.progress m t).tasks[u]? = p.tasks[u]? := by
  cases htask : p.tasks[t]? with
  | none => rw [progress_of_none m htask]
  | some task =>
    rcases turn_of_mute (turn_progress m htask) (hmute task htask) with hrest | ⟨backend, hquit⟩
    · rw [hrest]
    · rw [hquit]
      exact List.getElem?_modify_ne _ _ htu

/-- A mute task stays mute, whoever has a turn. -/
theorem mute_of_progress {t u : Ticket} {b : Task ρ} (hb : (p.progress m t).tasks[u]? = some b)
    (hmute : ∀ a, p.tasks[u]? = some a → a.IsMute) : b.IsMute := by
  obtain ⟨a, ha, hab⟩ := (evolves_progress (m := m) t p).becomes_of_later hb
  rcases hmute a ha with hdone | hwaiting | hcancelled
  · exact Or.inl (hab.done hdone)
  · obtain ⟨a', ha', hphase⟩ := phase_of_progress hb
    rw [ha] at ha'
    cases ha'
    rcases hphase with hsame | ⟨_, hdone | ⟨hstill, _⟩⟩
    · exact Or.inr (Or.inl (hsame.trans hwaiting))
    · exact Or.inl hdone
    · exact Or.inr (Or.inl hstill)
  · exact Or.inr (Or.inr (hab.cancelled hcancelled))

/-- A task of a pool that has ceased ends in its turn, if it has not ended before. -/
theorem Ceased.silent_progress (h : p.Ceased) (m : Meaning ρ) (t : Ticket) :
    Silent p (p.progress m t) := by
  refine Pool.silent_progress m fun a ha => ?_
  rcases h t a ha with hdone | hcancelled
  · exact Or.inl hdone
  · exact Or.inr (Or.inr hcancelled)

end Pool

end CoverageTracker
