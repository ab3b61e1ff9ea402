import CoverageTracker.Proofs.Pool.Line
import Mathlib.Data.List.Basic
set_option autoImplicit false

/-!
# Turns and rest

`Scheduled` is the invariant that no task is forgotten: every task that can go on has a turn
coming.  A pool is at rest (`AtRest`) when the turn of no task changes anything.  Running a
scheduled pool ends at rest (`atRest_run`): every turn uses up part of the budget, because a
task that ends gives at most one other task a turn.
-/

namespace CoverageTracker.Pool

variable {ρ : Type} {m : Meaning ρ} {p q : Pool ρ} {t : Ticket}

/-- Every task that can go on has a turn coming, and turns are of tasks. -/
structure Scheduled (p : Pool ρ) : Prop where
  ready : ∀ (t : Ticket) (a : Task ρ), p.tasks[t]? = some a → a.CanStep → t ∈ p.runnable
  bounded : ∀ t ∈ p.runnable, t < p.tasks.length

/-- The turn of no task changes anything. -/
def AtRest (m : Meaning ρ) (p : Pool ρ) : Prop := ∀ t, p.progress m t = p

theorem unfinished_of_canStep {a : Task ρ} (h : a.CanStep) : isUnfinished a = true := by
  unfold Task.CanStep at h
  unfold isUnfinished
  cases hphase : a.phase with
  | done => rw [hphase] at h; exact h.elim
  | queued => rfl
  | waiting => rfl
  | answered reply => rfl

theorem isUnfinished_eq_true {a : Task ρ} : isUnfinished a = true ↔ a.phase ≠ .done := by
  unfold isUnfinished
  cases a.phase <;> simp

/-! ## Every operation schedules -/

namespace Scheduled

theorem empty : (empty : Pool ρ).Scheduled where
  ready := by
    intro t a ha
    simp [Pool.empty] at ha
  bounded := by
    intro t ht
    simp [Pool.empty] at ht

theorem start (h : p.Scheduled) (id : RequestId) (d : Document) : (p.start id d).2.Scheduled where
  ready := by
    intro t a ha hstep
    rcases getElem?_start.mp ha with ha | ⟨rfl, _⟩
    · exact List.mem_append_left _ (h.ready t a ha hstep)
    · exact List.mem_append_right _ (List.mem_singleton_self _)
  bounded := by
    intro t ht
    simp only [Pool.start, List.length_append, List.length_singleton] at ht ⊢
    rcases List.mem_append.mp ht with ht | ht
    · exact Nat.lt_succ_of_lt (h.bounded t ht)
    · rw [List.mem_singleton.mp ht]
      exact Nat.lt_succ_self _

theorem cancel (h : p.Scheduled) (t : Ticket) : (p.cancel t).Scheduled where
  ready := by
    intro u b hb hstep
    obtain ⟨a, ha, hba⟩ := getElem?_cancel.mp hb
    rw [mem_runnable_cancel]
    by_cases htu : t = u
    · subst htu
      refine Or.inr ⟨rfl, a, ha, ?_⟩
      rw [if_pos rfl] at hba
      subst hba
      exact unfinished_of_canStep (a := { a with cancelled := true }) hstep
    · rw [if_neg htu] at hba
      subst hba
      exact Or.inl (h.ready u b ha hstep)
  bounded := by
    intro u hu
    rw [length_tasks_cancel]
    rcases mem_runnable_cancel.mp hu with hu | ⟨rfl, a, ha, _⟩
    · exact h.bounded u hu
    · exact (List.getElem?_eq_some_iff.mp ha).1

theorem heed (h : p.Scheduled) (reply : ρ) : (p.heed m reply).Scheduled := by
  unfold Pool.heed
  split
  · exact h.cancel _
  · exact h

theorem hand (h : p.Scheduled) (ht : t < p.tasks.length) (reply : ρ) :
    (p.hand t reply).Scheduled where
  ready := by
    intro u b hb hstep
    obtain ⟨a, ha, hba⟩ := getElem?_hand.mp hb
    rw [Pool.hand, mem_runnable_wake]
    by_cases htu : t = u
    · exact Or.inl htu.symm
    · rw [if_neg htu] at hba
      subst hba
      exact Or.inr (h.ready u b ha hstep)
  bounded := by
    intro u hu
    rw [Pool.hand, mem_runnable_wake] at hu
    change u < (p.tasks.modify t _).length
    rw [List.length_modify]
    rcases hu with rfl | hu
    · exact ht
    · exact h.bounded u hu

/-- The backend and the queues do not matter. -/
theorem congr (h : p.Scheduled) (htasks : q.tasks = p.tasks) (hrunnable : q.runnable = p.runnable) :
    q.Scheduled := by
  refine ⟨?_, ?_⟩
  · rw [htasks, hrunnable]
    exact h.ready
  · rw [htasks, hrunnable]
    exact h.bounded

/-- A reply goes to a task that waits, so the turn that it gives is of a task. -/
theorem resolve (h : p.Scheduled) (hline : p.Lined) (uri : String) (reply : ρ) :
    (p.resolve uri reply).2.Scheduled := by
  have hwaits := (hline.resolve uri reply).2
  unfold Pool.resolve
  split
  · rename_i t backend hsettle
    obtain ⟨a, ha, _⟩ := hwaits t backend hsettle
    have hp : ({ p with backend } : Pool ρ).Scheduled := h.congr rfl rfl
    exact hp.hand (List.getElem?_eq_some_iff.mp ha).1 reply
  · exact h.congr rfl rfl

theorem answer (h : p.Scheduled) (t : Ticket) (reply : ρ) : (p.answer t reply).2.Scheduled := by
  unfold Pool.answer
  split
  · rename_i hwaiting
    obtain ⟨a, ha, _⟩ := Option.map_eq_some_iff.mp hwaiting
    have hp : ({ p with backend := p.backend.withdraw t } : Pool ρ).Scheduled := h.congr rfl rfl
    exact hp.hand (List.getElem?_eq_some_iff.mp ha).1 reply
  · exact h

/-- A task that has had its turn needs no other one if it cannot go on now. -/
theorem turn {f : Task ρ → Task ρ} (h : p.Scheduled)
    (hf : ∀ a, p.tasks[t]? = some a → ¬ (f a).CanStep)
    (htasks : q.tasks = (p.modify t f).tasks) (hrunnable : q.runnable = p.runnable.erase t) :
    q.Scheduled where
  ready := by
    intro u b hb hstep
    rw [htasks] at hb
    obtain ⟨a, ha, hba⟩ := getElem?_modify.mp hb
    by_cases htu : t = u
    · subst htu
      rw [if_pos rfl] at hba
      subst hba
      exact absurd hstep (hf a ha)
    · rw [if_neg htu] at hba
      subst hba
      rw [hrunnable, List.mem_erase_of_ne (Ne.symm htu)]
      exact h.ready u b ha hstep
  bounded := by
    intro u hu
    rw [hrunnable] at hu
    rw [htasks, modify, List.length_modify]
    exact h.bounded u (List.mem_of_mem_erase hu)

end Scheduled

theorem Turn.scheduled {task : Task ρ} (h : Turn m t task p q) (htask : p.tasks[t]? = some task)
    (hp : p.Scheduled) : q.Scheduled := by
  cases h with
  | rest hrest =>
    refine ⟨?_, fun u hu => hp.bounded u (List.mem_of_mem_erase hu)⟩
    intro u a ha hstep
    refine (List.mem_erase_of_ne ?_).mpr (hp.ready u a ha hstep)
    rintro rfl
    rw [htask] at ha
    cases ha
    exact hrest hstep
  | quit backend _ _ _ => exact hp.turn (by simp [Task.CanStep]) rfl rfl
  | call backend hcancelled _ _ =>
    refine hp.turn ?_ rfl rfl
    intro a ha
    rw [htask] at ha
    cases ha
    simp [Task.CanStep, hcancelled]
  | take reply backend calls _ _ _ _ =>
    have hfinish : (({ p with runnable := p.runnable.erase t, calls, backend } : Pool ρ).finish
        t).Scheduled := hp.turn (by simp [Task.CanStep]) rfl rfl
    exact (hfinish.heed (m := m) reply).congr (tasks_takeReply ..) (runnable_takeReply ..)

theorem Scheduled.progress (h : p.Scheduled) (t : Ticket) : (p.progress m t).Scheduled := by
  cases htask : p.tasks[t]? with
  | none =>
    rw [progress_of_none m htask]
    exact h
  | some task => exact (turn_progress m htask).scheduled htask h

/-! ## Rest -/

/-- A turn of a task that can go on changes its phase. -/
theorem phase_progress {a : Task ρ} (ha : p.tasks[t]? = some a) (hstep : a.CanStep) :
    ∃ b, (p.progress m t).tasks[t]? = some b ∧ b.phase ≠ a.phase := by
  have hturn := turn_progress m ha
  generalize p.progress m t = q at hturn
  cases hturn with
  | rest hrest => exact absurd hstep hrest
  | quit backend _ hunfinished _ =>
    exact ⟨_, getElem?_finish.mpr ⟨a, ha, rfl⟩, by simpa using Ne.symm hunfinished⟩
  | call backend _ hqueued _ =>
    exact ⟨_, getElem?_modify.mpr ⟨a, ha, rfl⟩, by simp [hqueued]⟩
  | take reply backend calls _ hunfinished _ _ =>
    have hlength : t < ((({ p with runnable := p.runnable.erase t, calls, backend } : Pool ρ).finish
        t).heed m reply).tasks.length := by
      rw [length_tasks_heed, length_tasks_finish]
      exact (List.getElem?_eq_some_iff.mp ha).1
    obtain ⟨c, hc, hphase⟩ := getElem?_heed (List.getElem?_eq_getElem hlength)
    obtain ⟨b, hb, hbc⟩ := getElem?_finish.mp hc
    refine ⟨_, by rw [tasks_takeReply]; exact List.getElem?_eq_getElem hlength, ?_⟩
    rw [hphase, hbc, if_pos rfl]
    exact Ne.symm hunfinished

/-- At rest every task has ended or waits for a reply, and none that waits was cancelled. -/
theorem AtRest.not_canStep (h : AtRest m p) {a : Task ρ} (ha : p.tasks[t]? = some a) :
    ¬ a.CanStep := by
  intro hstep
  obtain ⟨b, hb, hphase⟩ := phase_progress (m := m) ha hstep
  rw [h t, ha] at hb
  cases hb
  exact hphase rfl

/-- What is queued does not matter at rest. -/
theorem AtRest.requeue (h : AtRest m p) (completions : List Completion) :
    AtRest m { p with completions } := by
  intro t
  cases htask : p.tasks[t]? with
  | none => exact progress_of_none m htask
  | some a =>
    have hstep := h.not_canStep htask
    have hprogress := h t
    rw [progress_of_not_canStep htask hstep] at hprogress
    have herase : p.runnable.erase t = p.runnable := congrArg runnable hprogress
    have hrequeued := progress_of_not_canStep (m := m) (p := { p with completions }) htask hstep
    rw [hrequeued]
    simp only [herase]

/-- A scheduled pool without turns to take is at rest. -/
theorem Scheduled.atRest (h : p.Scheduled) (hrunnable : p.runnable = []) : AtRest m p := by
  intro t
  cases htask : p.tasks[t]? with
  | none => exact progress_of_none m htask
  | some a =>
    have hstep : ¬ a.CanStep := by
      intro hstep
      have ht := h.ready t a htask hstep
      rw [hrunnable] at ht
      cases ht
    have herase : p.runnable.erase t = p.runnable := by
      rw [hrunnable]
      rfl
    rw [progress_of_not_canStep htask hstep, herase]

/-! ## The budget -/

/-- Changing one task changes the number of unfinished tasks by that task only. -/
theorem countP_modify {f : Task ρ → Task ρ} {a : Task ρ} (ha : p.tasks[t]? = some a) :
    (p.modify t f).tasks.countP isUnfinished + (if isUnfinished a then 1 else 0) =
      p.tasks.countP isUnfinished + if isUnfinished (f a) then 1 else 0 := by
  obtain ⟨hlt, hget⟩ := List.getElem?_eq_some_iff.mp ha
  have hset : (p.modify t f).tasks = p.tasks.set t (f a) := by
    simp only [modify, List.modify_eq_set_getElem?, ha]
    rfl
  have hcount : (if isUnfinished a then 1 else 0) ≤ p.tasks.countP isUnfinished := by
    split
    · rename_i hunfinished
      exact List.countP_pos_iff.mpr ⟨a, List.mem_of_getElem? ha, hunfinished⟩
    · exact Nat.zero_le _
  rw [hset, List.countP_set hlt, hget]
  omega

theorem countP_cancel (t : Ticket) (p : Pool ρ) :
    (p.cancel t).tasks.countP isUnfinished = p.tasks.countP isUnfinished := by
  cases htask : p.tasks[t]? with
  | none =>
    have hsame : (p.cancel t).tasks = p.tasks :=
      List.modify_eq_self (List.getElem?_eq_none_iff.mp htask)
    rw [hsame]
  | some a =>
    have hcount := countP_modify (f := fun task => { task with cancelled := true }) htask
    exact Nat.add_right_cancel hcount

theorem countP_heed (reply : ρ) (p : Pool ρ) :
    (p.heed m reply).tasks.countP isUnfinished = p.tasks.countP isUnfinished := by
  unfold heed
  split
  · exact countP_cancel _ p
  · rfl

theorem countP_finish {a : Task ρ} (ha : p.tasks[t]? = some a) (hunfinished : a.phase ≠ .done) :
    (p.finish t).tasks.countP isUnfinished + 1 = p.tasks.countP isUnfinished := by
  have hcount := countP_modify (f := fun task => { task with phase := .done }) ha
  rw [if_pos (isUnfinished_eq_true.mpr hunfinished)] at hcount
  exact hcount

/-- A turn that was coming uses up part of the budget. -/
theorem budget_progress (ht : t ∈ p.runnable) {a : Task ρ} (ha : p.tasks[t]? = some a) :
    (p.progress m t).budget < p.budget := by
  have hlength := List.length_erase_of_mem ht
  have hpos : 0 < p.runnable.length := List.length_pos_of_mem ht
  have hturn := turn_progress m ha
  generalize p.progress m t = q at hturn
  simp only [budget]
  cases hturn with
  | rest _ =>
    simp only
    omega
  | quit backend _ hunfinished _ =>
    have hcount := countP_finish (p := { p with runnable := p.runnable.erase t, backend }) ha
      hunfinished
    simp only [runnable_finish] at hcount ⊢
    omega
  | call backend _ hqueued _ =>
    have hcount := countP_modify (p := { p with
        runnable := p.runnable.erase t, calls := p.calls ++ [a.request t], backend })
      (f := fun task => { task with phase := .waiting }) ha
    have hunfinished : isUnfinished a = true := isUnfinished_eq_true.mpr (by simp [hqueued])
    rw [if_pos hunfinished] at hcount
    simp only [isUnfinished, if_true, modify] at hcount ⊢
    omega
  | take reply backend calls _ hunfinished _ _ =>
    -- the task that ends may give a turn to the task that its reply cancels
    have hcount := countP_finish (p := { p with runnable := p.runnable.erase t, calls, backend })
      ha hunfinished
    have hturns := length_runnable_heed (m := m) reply
      (({ p with runnable := p.runnable.erase t, calls, backend } : Pool ρ).finish t)
    rw [tasks_takeReply, runnable_takeReply, countP_heed]
    simp only [runnable_finish] at hcount hturns ⊢
    omega

/-! ## Running -/

/-- Whatever each turn keeps, any number of turns keeps. -/
theorem turns_induction {P : Pool ρ → Prop} (hprogress : ∀ t p, P p → P (p.progress m t)) :
    ∀ (n : Nat) (p : Pool ρ), P p → P (p.turns m n) := by
  intro n
  induction n with
  | zero =>
    intro p h
    exact h
  | succ n ih =>
    intro p h
    unfold turns
    split
    · exact h
    · exact ih _ (hprogress _ p h)

/-- Whatever each turn keeps, a run keeps. -/
theorem run_induction {P : Pool ρ → Prop} (hprogress : ∀ t p, P p → P (p.progress m t))
    (h : P p) : P (p.run m) :=
  turns_induction hprogress p.budget p h

theorem Scheduled.run (h : p.Scheduled) : (p.run m).Scheduled :=
  run_induction (fun t _ h => h.progress t) h

/-- With enough turns every turn is taken. -/
theorem runnable_turns : ∀ (n : Nat) (p : Pool ρ), p.Scheduled → p.budget ≤ n →
    (p.turns m n).runnable = [] := by
  intro n
  induction n with
  | zero =>
    intro p _ hbudget
    have hlength : p.runnable.length = 0 := by
      simp only [budget] at hbudget
      omega
    exact List.length_eq_zero_iff.mp hlength
  | succ n ih =>
    intro p h hbudget
    unfold turns
    split
    · assumption
    · rename_i t rest hrunnable
      have ht : t ∈ p.runnable := by
        rw [hrunnable]
        exact List.mem_cons_self
      have htask := List.getElem?_eq_getElem (h.bounded t ht)
      have hless := budget_progress (m := m) ht htask
      exact ih _ (h.progress t) (by omega)

/-- A run of a scheduled pool ends at rest. -/
theorem atRest_run (h : p.Scheduled) : AtRest m (p.run m) :=
  h.run.atRest (runnable_turns p.budget p h (Nat.le_refl _))

end CoverageTracker.Pool
