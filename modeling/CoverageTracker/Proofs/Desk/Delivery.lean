import CoverageTracker.Proofs.Desk.Errands
import CoverageTracker.Proofs.Session.Holding
set_option autoImplicit false

/-!
# The delivery of a request

What is put on the channel of completions (`sent`), and when: in the turn in which the backend call
of a task returns, if the task is not cancelled by then and somebody can still receive
(`mem_sent`).  The task has ended after that turn and had not before, and ends only once, so each
request is delivered at most once (`sent_nodup`).
-/

namespace CoverageTracker.Desk

variable {ρ : Type} {m : Meaning ρ} {d : Desk ρ} {errand : Errand ρ} {errands : List (Errand ρ)}
  {p : Pool (Cued ρ)} {t : Ticket} {x : Completion}

/-! ## What is put on the channel -/

/-- The completions that an errand puts on the channel, behind those that are there. -/
def queued (m : Meaning ρ) (errand : Errand ρ) (d : Desk ρ) : List Completion :=
  (d.perform m errand).pool.completions.drop d.pool.completions.length

/-- The completions that errands put on the channel, in order. -/
def sent (m : Meaning ρ) : List (Errand ρ) → Desk ρ → List Completion
  | [], _ => []
  | errand :: errands, d => d.queued m errand ++ sent m errands (d.perform m errand)

/-- In its turn a task delivers a completion: its call of the backend returns, it is not cancelled
when it looks after that, and somebody can still receive.  The completion is of the task's own
request and has what its own call came to. -/
def Delivers (m : Meaning ρ) (t : Ticket) (x : Completion) (d : Desk ρ) : Prop :=
  ∃ task reply, d.pool.tasks[t]? = some task ∧ d.pool.returned t = some reply ∧
    (d.perform m (.progress t)).pool.isCancelled t = false ∧ d.pool.isOpen = true ∧
    x = ⟨task.request t, Outcome.coverage (m.outcome reply.reply)⟩

theorem queued_of_suffix (h : (d.perform m errand).pool.completions <:+ d.pool.completions) :
    d.queued m errand = [] :=
  List.drop_eq_nil_of_le h.length_le

theorem queued_of_append {new : List Completion}
    (h : (d.perform m errand).pool.completions = d.pool.completions ++ new) :
    d.queued m errand = new := by
  rw [queued, h, List.drop_left]

/-- What a turn puts on the channel is delivered by its task, and nothing else is put there. -/
theorem mem_queued : x ∈ d.queued m errand ↔ ∃ t, errand = .progress t ∧ d.Delivers m t x := by
  have hturn : ∀ t, x ∈ d.queued m (.progress t) ↔ d.Delivers m t x := by
    intro t
    obtain ⟨new, hnew, hmem⟩ := Pool.completions_progress (d.meaning m) t d.pool
    have hqueued : d.queued m (.progress t) = new := queued_of_append hnew
    rw [hqueued]
    exact hmem x
  constructor
  · intro hx
    have hother : (d.perform m errand).pool.completions <:+ d.pool.completions → False := by
      intro hsuffix
      rw [queued_of_suffix hsuffix] at hx
      cases hx
    have hchange := change_perform m errand d
    generalize (d.perform m errand).pool = p at hchange hother
    cases hchange with
    | start name id document => exact (hother (List.suffix_refl _)).elim
    | cancel name r _ => exact (hother (List.suffix_refl _)).elim
    | resolve uri reply => exact (hother (by simp)).elim
    | answer t reply => exact (hother (by simp)).elim
    | progress t => exact ⟨t, rfl, (hturn t).mp hx⟩
    | requeue _ completions isOpen hsuffix => exact (hother hsuffix).elim
  · rintro ⟨t, rfl, hdelivers⟩
    exact (hturn t).mpr hdelivers

/-- A completion was put on the channel in the turn that delivered it. -/
theorem mem_sent : x ∈ sent m errands d ↔ ∃ before t after,
    errands = before ++ .progress t :: after ∧ (d.performAll m before).Delivers m t x := by
  induction errands generalizing d with
  | nil => simp [sent]
  | cons errand errands ih =>
    rw [sent, List.mem_append, mem_queued, ih]
    constructor
    · rintro (⟨t, rfl, hdelivers⟩ | ⟨before, t, after, rfl, hdelivers⟩)
      · exact ⟨[], t, errands, rfl, hdelivers⟩
      · exact ⟨errand :: before, t, after, rfl, hdelivers⟩
    · rintro ⟨before, t, after, herrands, hdelivers⟩
      cases before with
      | nil =>
        cases herrands
        exact Or.inl ⟨t, rfl, hdelivers⟩
      | cons first before =>
        cases herrands
        exact Or.inr ⟨before, t, after, rfl, hdelivers⟩

/-! ## At most once -/

/-- The tasks that deliver in an errand end in it. -/
theorem leftBehind_of_queued (m : Meaning ρ) (errand : Errand ρ) (d : Desk ρ) :
    ((d.queued m errand).map Completion.ticket).Nodup ∧ ∀ x ∈ d.queued m errand,
      Pool.LeftBehind (d.meaning m) d.pool (d.perform m errand).pool x := by
  by_cases hturn : ∃ t, errand = .progress t
  · obtain ⟨t, rfl⟩ := hturn
    obtain ⟨new, hnew, hnodup, hleft⟩ := (Pool.evolves_progress (m := d.meaning m) t d.pool).queued
    have hqueued : d.queued m (.progress t) = new := queued_of_append hnew
    rw [hqueued]
    exact ⟨hnodup, hleft⟩
  · have hqueued : d.queued m errand = [] := by
      refine List.eq_nil_iff_forall_not_mem.mpr fun x hx => ?_
      obtain ⟨t, ht, _⟩ := mem_queued.mp hx
      exact hturn ⟨t, ht⟩
    rw [hqueued]
    exact ⟨List.nodup_nil, by simp⟩

/-- A task that has ended delivers nothing any more. -/
theorem unfinished_of_sent (hd : d.Orderly) (hx : x ∈ sent m errands d) {a : Task (Cued ρ)}
    (ha : d.pool.tasks[x.ticket]? = some a) : a.phase ≠ .done := by
  obtain ⟨before, t, after, rfl, hdelivers⟩ := mem_sent.mp hx
  have hqueued := mem_queued.mpr ⟨t, rfl, hdelivers⟩
  obtain ⟨b, hb, hunfinished, _⟩ := ((leftBehind_of_queued m _ _).2 x hqueued).unfinished
  obtain ⟨c, hc, hac⟩ := hd.grows m before _ a ha
  rw [hb] at hc
  cases hc
  exact fun hdone => hunfinished (hac.done hdone)

theorem sent_nodup (hd : d.Orderly) (errands : List (Errand ρ)) :
    ((sent m errands d).map Completion.ticket).Nodup := by
  induction errands generalizing d with
  | nil => exact List.nodup_nil
  | cons errand errands ih =>
    obtain ⟨hnodup, hleft⟩ := leftBehind_of_queued m errand d
    rw [sent, List.map_append, List.nodup_append]
    refine ⟨hnodup, ih (hd.perform m errand), ?_⟩
    intro t ht u hu htu
    obtain ⟨x, hx, rfl⟩ := List.mem_map.mp ht
    obtain ⟨y, hy, rfl⟩ := List.mem_map.mp hu
    obtain ⟨b, hb, hdone⟩ := (hleft x hx).finished
    rw [htu] at hb
    exact unfinished_of_sent (hd.perform m errand) hy hb hdone

end CoverageTracker.Desk
