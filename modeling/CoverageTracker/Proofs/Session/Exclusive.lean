import CoverageTracker.Proofs.Pool.Evolution
import CoverageTracker.Proofs.Session.Holding
set_option autoImplicit false

/-!
# Only the pending computation counts

A controller applies a completion without asking whose it is; it only asks whether it was
cancelled.  That is enough because of an invariant over tasks, queue and held completions
(`Exclusive`): a task that was not cancelled is the pending one, or it has ended and its
completion is used up.
-/

namespace CoverageTracker

open Pool

variable {ρ : Type} {m : Meaning ρ} {p q : Pool ρ} {tasks : List (Task ρ)}
  {pending : Option Request} {outstanding outstanding' held : List Completion} {x : Completion}

/-- Tasks, the pending request and the completions that are not used yet go together. -/
structure Exclusive (tasks : List (Task ρ)) (pending : Option Request)
    (outstanding : List Completion) : Prop where
  finished : ∀ x ∈ outstanding, ∃ a, tasks[x.ticket]? = some a ∧ a.phase = .done ∧
    x.request = a.request x.ticket
  distinct : (outstanding.map Completion.ticket).Nodup
  known : ∀ r, pending = some r → ∃ a, tasks[r.ticket]? = some a ∧ r = a.request r.ticket
  /-- a task that was not cancelled is pending, or its completion is used up -/
  spent : ∀ (t : Ticket) (a : Task ρ), tasks[t]? = some a → a.cancelled = false →
    (∃ r, pending = some r ∧ r.ticket = t) ∨
      (a.phase = .done ∧ ∀ x ∈ outstanding, x.ticket ≠ t)

namespace Exclusive

theorem empty : Exclusive (Pool.empty : Pool ρ).tasks none [] where
  finished := by
    intro x hx
    cases hx
  distinct := List.nodup_nil
  known := by
    intro r hr
    cases hr
  spent := by
    intro t a ha
    simp [Pool.empty] at ha

/-- No completion is of a task that has not ended. -/
theorem ne_of_unfinished {t : Ticket} {a : Task ρ} (h : Exclusive tasks pending outstanding)
    (ha : tasks[t]? = some a) (hunfinished : a.phase ≠ .done) :
    ∀ x ∈ outstanding, x.ticket ≠ t := by
  rintro x hx rfl
  obtain ⟨b, hb, hdone, _⟩ := h.finished x hx
  rw [ha] at hb
  cases hb
  exact hunfinished hdone

/-- A completion that is not cancelled is the one of the pending request. -/
theorem pending_eq (h : Exclusive p.tasks pending outstanding) (hx : x ∈ outstanding)
    (hfresh : p.isCancelled x.ticket = false) : pending = some x.request := by
  obtain ⟨a, ha, _, hrequest⟩ := h.finished x hx
  rw [isCancelled_of_task ha] at hfresh
  rcases h.spent x.ticket a ha hfresh with ⟨r, hr, hticket⟩ | ⟨_, hused⟩
  · obtain ⟨b, hb, hrb⟩ := h.known r hr
    rw [hticket, ha] at hb
    cases hb
    rw [hr, hrb, hrequest, hticket]
  · exact absurd rfl (hused x hx)

/-- So there is at most one of them. -/
theorem length_fresh_le (h : Exclusive p.tasks pending outstanding) :
    (outstanding.filter fun x => !p.isCancelled x.ticket).length ≤ 1 := by
  have hdistinct : ((outstanding.filter fun x => !p.isCancelled x.ticket).map
      Completion.ticket).Nodup := h.distinct.sublist (List.filter_sublist.map _)
  have hpending : ∀ x ∈ outstanding.filter fun x => !p.isCancelled x.ticket,
      pending = some x.request := by
    intro x hx
    rw [List.mem_filter, Bool.not_eq_true'] at hx
    exact h.pending_eq hx.1 hx.2
  generalize outstanding.filter (fun x => !p.isCancelled x.ticket) = fresh at hdistinct hpending
  match fresh with
  | [] => exact Nat.zero_le _
  | [_] => exact Nat.le_refl _
  | x :: y :: rest =>
    have hxy : x.request = y.request := by
      have hx := hpending x List.mem_cons_self
      rw [hpending y (List.mem_cons_of_mem _ List.mem_cons_self), Option.some.injEq] at hx
      exact hx.symm
    simp [Completion.ticket, hxy] at hdistinct

/-! ## Changes that keep it -/

theorem perm (h : Exclusive tasks pending outstanding) (hperm : outstanding.Perm outstanding') :
    Exclusive tasks pending outstanding' where
  finished := fun x hx => h.finished x (hperm.mem_iff.mpr hx)
  distinct := (hperm.map Completion.ticket).nodup_iff.mp h.distinct
  known := h.known
  spent := by
    intro t a ha hcancelled
    rcases h.spent t a ha hcancelled with hpending | ⟨hdone, hused⟩
    · exact Or.inl hpending
    · exact Or.inr ⟨hdone, fun x hx => hused x (hperm.mem_iff.mpr hx)⟩

/-- Completions may be thrown away. -/
theorem sublist (h : Exclusive tasks pending outstanding)
    (hsublist : outstanding'.Sublist outstanding) : Exclusive tasks pending outstanding' where
  finished := fun x hx => h.finished x (hsublist.subset hx)
  distinct := h.distinct.sublist (hsublist.map Completion.ticket)
  known := h.known
  spent := by
    intro t a ha hcancelled
    rcases h.spent t a ha hcancelled with hpending | ⟨hdone, hused⟩
    · exact Or.inl hpending
    · exact Or.inr ⟨hdone, fun x hx => hused x (hsublist.subset hx)⟩

/-- Nothing that tasks become makes an old completion count again. -/
theorem later (h : Exclusive p.tasks pending outstanding) (hevolves : Evolves m p q) :
    Exclusive q.tasks pending outstanding where
  finished := by
    intro x hx
    obtain ⟨a, ha, hdone, hrequest⟩ := h.finished x hx
    obtain ⟨b, hb, hab⟩ := hevolves.becomes _ a ha
    exact ⟨b, hb, hab.done hdone, by rw [hab.request]; exact hrequest⟩
  distinct := h.distinct
  known := by
    intro r hr
    obtain ⟨a, ha, hra⟩ := h.known r hr
    obtain ⟨b, hb, hab⟩ := hevolves.becomes _ a ha
    exact ⟨b, hb, by rw [hab.request]; exact hra⟩
  spent := by
    intro t b hb hcancelled
    obtain ⟨a, ha, hab⟩ := hevolves.becomes_of_later hb
    rcases h.spent t a ha (hab.uncancelled hcancelled) with hpending | ⟨hdone, hused⟩
    · exact Or.inl hpending
    · exact Or.inr ⟨hab.done hdone, hused⟩

/-- The completions that tasks leave are of tasks that had not ended before. -/
theorem evolve (h : Exclusive p.tasks pending (p.completions ++ held))
    (hevolves : Evolves m p q) : Exclusive q.tasks pending (q.completions ++ held) := by
  have hlater := h.later hevolves
  obtain ⟨new, hqueue, hnodup, hleft⟩ := hevolves.queued
  have hperm : (new ++ (p.completions ++ held)).Perm (q.completions ++ held) := by
    rw [hqueue, ← List.append_assoc]
    exact List.perm_append_comm.append_right held
  refine perm ⟨?_, ?_, hlater.known, ?_⟩ hperm
  · intro x hx
    rcases List.mem_append.mp hx with hx | hx
    · obtain ⟨⟨a, ha, _, hrequest⟩, ⟨b, hb, hdone⟩, _⟩ := hleft x hx
      obtain ⟨b', hb', hab⟩ := hevolves.becomes _ a ha
      rw [hb] at hb'
      cases hb'
      exact ⟨b, hb, hdone, by rw [hab.request]; exact hrequest⟩
    · exact hlater.finished x hx
  · rw [List.map_append, List.nodup_append]
    refine ⟨hnodup, h.distinct, ?_⟩
    intro t ht u hu htu
    obtain ⟨x, hx, rfl⟩ := List.mem_map.mp ht
    obtain ⟨y, hy, rfl⟩ := List.mem_map.mp hu
    obtain ⟨a, ha, hunfinished, _⟩ := (hleft x hx).unfinished
    exact h.ne_of_unfinished ha hunfinished y hy htu.symm
  · intro t b hb hcancelled
    obtain ⟨a, ha, hab⟩ := hevolves.becomes_of_later hb
    rcases h.spent t a ha (hab.uncancelled hcancelled) with hpending | ⟨hdone, hused⟩
    · exact Or.inl hpending
    · refine Or.inr ⟨hab.done hdone, ?_⟩
      intro x hx
      rcases List.mem_append.mp hx with hx | hx
      · rintro rfl
        obtain ⟨a', ha', hunfinished, _⟩ := (hleft x hx).unfinished
        rw [ha] at ha'
        cases ha'
        exact hunfinished hdone
      · exact hused x hx

/-- Cancelling the pending request leaves none. -/
theorem cancelOf (m : Meaning ρ) (h : Exclusive p.tasks pending outstanding) :
    Exclusive (p.cancelOf pending).tasks none outstanding := by
  cases pending with
  | none => exact h
  | some r =>
    have hlater : Exclusive (p.cancel r.ticket).tasks (some r) outstanding :=
      h.later (evolves_cancel (m := m) r.ticket p)
    refine ⟨hlater.finished, hlater.distinct, fun r hr => (by cases hr), ?_⟩
    intro t b hb hcancelled
    rcases hlater.spent t b hb hcancelled with ⟨r', hr', rfl⟩ | hused
    · cases hr'
      obtain ⟨a, _, hba⟩ := getElem?_cancel.mp hb
      rw [if_pos rfl] at hba
      rw [hba] at hcancelled
      cases hcancelled
    · exact Or.inr hused

/-- A started computation becomes the pending one if there is no other. -/
theorem start (h : Exclusive p.tasks none outstanding) (id : RequestId) (d : Document) :
    Exclusive (p.start id d).2.tasks (some ⟨p.tasks.length, id, d⟩) outstanding where
  finished := by
    intro x hx
    obtain ⟨a, ha, hdone⟩ := h.finished x hx
    exact ⟨a, getElem?_start.mpr (Or.inl ha), hdone⟩
  distinct := h.distinct
  known := by
    intro r hr
    cases hr
    exact ⟨_, getElem?_start.mpr (Or.inr ⟨rfl, rfl⟩), rfl⟩
  spent := by
    intro t a ha hcancelled
    rcases getElem?_start.mp ha with ha | ⟨rfl, _⟩
    · rcases h.spent t a ha hcancelled with ⟨r, hr, _⟩ | hused
      · cases hr
      · exact Or.inr hused
    · exact Or.inl ⟨_, rfl, rfl⟩

/-- The completion of the pending request takes its place. -/
theorem consume {before after : List Completion}
    (h : Exclusive p.tasks pending (before ++ x :: after))
    (hfresh : p.isCancelled x.ticket = false) : Exclusive p.tasks none (before ++ after) := by
  have hx : x ∈ before ++ x :: after := List.mem_append_right _ List.mem_cons_self
  have hpending := h.pending_eq hx hfresh
  have hrest := h.sublist ((List.sublist_cons_self x after).append_left before)
  refine ⟨hrest.finished, hrest.distinct, fun r hr => (by cases hr), ?_⟩
  intro t a ha hcancelled
  rcases hrest.spent t a ha hcancelled with ⟨r, hr, rfl⟩ | hused
  · rw [hpending, Option.some.injEq] at hr
    subst hr
    obtain ⟨b, hb, hdone, _⟩ := h.finished x hx
    have hab : a = b := Option.some.inj (ha.symm.trans hb)
    refine Or.inr ⟨by rw [hab]; exact hdone, ?_⟩
    -- no other outstanding completion is of the same computation
    have hdistinct := h.distinct
    rw [List.map_append, List.map_cons, List.nodup_middle, List.nodup_cons,
      ← List.map_append] at hdistinct
    intro y hy hyx
    have hmem : y.ticket ∈ (before ++ after).map Completion.ticket := List.mem_map_of_mem hy
    rw [hyx] at hmem
    exact hdistinct.1 hmem
  · exact Or.inr hused

end Exclusive

end CoverageTracker
