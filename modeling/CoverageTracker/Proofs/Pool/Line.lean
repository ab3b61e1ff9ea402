import CoverageTracker.Proofs.Pool.Tasks
import Mathlib.Data.List.Nodup
set_option autoImplicit false

/-!
# Waiting tasks and the line of the backend

The tasks that wait for a reply and the calls that the backend sees awaited are the same, one
call for each such task and for the document of that task.  `Lined` says so; every operation
of a pool keeps it, by one of three changes: nobody comes or goes (`Lined.congr`), a task
stops waiting (`Lined.leave`), or a task begins to wait (`Lined.enter`).
-/

namespace CoverageTracker.Pool

variable {ρ : Type} {m : Meaning ρ} {p q : Pool ρ} {t : Ticket}

/-- The task of a ticket waits for a reply about a URI. -/
def Waits (p : Pool ρ) (t : Ticket) (uri : String) : Prop :=
  ∃ a, p.tasks[t]? = some a ∧ a.phase = .waiting ∧ a.document.uri.text = uri

/-- The line of the backend shows the waiting tasks. -/
structure Lined (p : Pool ρ) : Prop where
  waits : ∀ c ∈ p.backend.awaiting, p.Waits c.caller c.uri
  distinct : (p.backend.awaiting.map Call.caller).Nodup
  called : ∀ t uri, p.Waits t uri → ∃ c ∈ p.backend.awaiting, c.caller = t

namespace Lined

theorem empty : (empty : Pool ρ).Lined where
  waits := by
    intro c hc
    simp [Pool.empty, Backend.empty, Backend.awaiting] at hc
  distinct := List.nodup_nil
  called := by
    rintro t uri ⟨a, ha, _⟩
    simp [Pool.empty] at ha

theorem congr (h : p.Lined) (hline : q.backend.awaiting = p.backend.awaiting)
    (hwaits : ∀ t uri, q.Waits t uri ↔ p.Waits t uri) : q.Lined where
  waits := by
    intro c hc
    rw [hline] at hc
    exact (hwaits _ _).mpr (h.waits c hc)
  distinct := by
    rw [hline]
    exact h.distinct
  called := by
    intro t uri ht
    rw [hline]
    exact h.called t uri ((hwaits t uri).mp ht)

/-- A task that does not wait has no call in line. -/
theorem filter_of_not_waits (h : p.Lined) (ht : ∀ uri, ¬ p.Waits t uri) :
    (p.backend.awaiting.filter fun c => c.caller != t) = p.backend.awaiting := by
  rw [List.filter_eq_self]
  intro c hc
  rw [bne_iff_ne]
  intro hcaller
  have hwaits := h.waits c hc
  rw [hcaller] at hwaits
  exact ht c.uri hwaits

theorem leave (h : p.Lined)
    (hline : q.backend.awaiting = p.backend.awaiting.filter fun c => c.caller != t)
    (hwaits : ∀ u uri, q.Waits u uri ↔ p.Waits u uri ∧ u ≠ t) : q.Lined where
  waits := by
    intro c hc
    rw [hline, List.mem_filter, bne_iff_ne] at hc
    exact (hwaits _ _).mpr ⟨h.waits c hc.1, hc.2⟩
  distinct := by
    rw [hline]
    exact h.distinct.sublist (List.filter_sublist.map Call.caller)
  called := by
    intro u uri hu
    obtain ⟨hu, hne⟩ := (hwaits u uri).mp hu
    obtain ⟨c, hc, hcaller⟩ := h.called u uri hu
    refine ⟨c, ?_, hcaller⟩
    rw [hline, List.mem_filter, bne_iff_ne, hcaller]
    exact ⟨hc, hne⟩

theorem enter {uri : String} (h : p.Lined) (ht : ∀ uri, ¬ p.Waits t uri)
    (hline : q.backend.awaiting = p.backend.awaiting ++ [⟨uri, t, true⟩])
    (hwaits : ∀ u uri', q.Waits u uri' ↔ p.Waits u uri' ∨ (u = t ∧ uri' = uri)) : q.Lined where
  waits := by
    intro c hc
    rw [hline, List.mem_append, List.mem_singleton] at hc
    rcases hc with hc | rfl
    · exact (hwaits _ _).mpr (Or.inl (h.waits c hc))
    · exact (hwaits _ _).mpr (Or.inr ⟨rfl, rfl⟩)
  distinct := by
    rw [hline, List.map_append, List.nodup_append]
    refine ⟨h.distinct, by simp, ?_⟩
    intro u hu v hv huv
    obtain ⟨c, hc, rfl⟩ := List.mem_map.mp hu
    rw [List.map_singleton, List.mem_singleton] at hv
    subst hv
    have hwaits := h.waits c hc
    rw [huv] at hwaits
    exact ht c.uri hwaits
  called := by
    intro u uri' hu
    rw [hline]
    rcases (hwaits u uri').mp hu with hu | ⟨rfl, _⟩
    · obtain ⟨c, hc, hcaller⟩ := h.called u uri' hu
      exact ⟨c, List.mem_append_left _ hc, hcaller⟩
    · exact ⟨_, List.mem_append_right _ (List.mem_singleton_self _), rfl⟩

end Lined

/-! ## Who waits after a step -/

theorem not_waits {a : Task ρ} (ha : p.tasks[t]? = some a) (hphase : a.phase ≠ .waiting)
    (uri : String) : ¬ p.Waits t uri := by
  rintro ⟨b, hb, hwaiting, _⟩
  rw [ha] at hb
  cases hb
  exact hphase hwaiting

/-- Changing one task to a phase in which it does not wait. -/
theorem waits_modify {f : Task ρ → Task ρ} (hphase : ∀ a, (f a).phase ≠ .waiting)
    (htasks : q.tasks = (p.modify t f).tasks) (u : Ticket) (uri : String) :
    q.Waits u uri ↔ p.Waits u uri ∧ u ≠ t := by
  unfold Waits
  simp only [htasks, getElem?_modify]
  constructor
  · rintro ⟨b, ⟨a, ha, hb⟩, hwaiting, huri⟩
    by_cases htu : t = u
    · rw [if_pos htu] at hb
      subst hb
      exact absurd hwaiting (hphase a)
    · rw [if_neg htu] at hb
      subst hb
      exact ⟨⟨b, ha, hwaiting, huri⟩, Ne.symm htu⟩
  · rintro ⟨⟨a, ha, hwaiting, huri⟩, hne⟩
    exact ⟨a, ⟨a, ha, by rw [if_neg (Ne.symm hne)]⟩, hwaiting, huri⟩

theorem waits_cancel (u t : Ticket) (uri : String) : (p.cancel t).Waits u uri ↔ p.Waits u uri := by
  unfold Waits
  simp only [getElem?_cancel]
  constructor
  · rintro ⟨b, ⟨a, ha, hb⟩, hwaiting, huri⟩
    refine ⟨a, ha, ?_⟩
    subst hb
    split at hwaiting <;> split at huri <;> exact ⟨hwaiting, huri⟩
  · rintro ⟨a, ha, hwaiting, huri⟩
    refine ⟨_, ⟨a, ha, rfl⟩, ?_⟩
    split <;> exact ⟨hwaiting, huri⟩

theorem waits_heed (reply : ρ) (u : Ticket) (uri : String) :
    (p.heed m reply).Waits u uri ↔ p.Waits u uri := by
  unfold heed
  split
  · exact waits_cancel u _ uri
  · exact Iff.rfl

/-- Nobody waits anew for the reply that a task takes. -/
theorem waits_takeReply (reply : ρ) (a : Task ρ) (u : Ticket) (uri : String) :
    (p.takeReply m t a reply).Waits u uri ↔ p.Waits u uri ∧ u ≠ t := by
  have hfinish : (p.finish t).Waits u uri ↔ p.Waits u uri ∧ u ≠ t :=
    waits_modify (f := fun task => { task with phase := .done }) (by simp) rfl u uri
  have hheed := waits_heed (m := m) (p := p.finish t) reply u uri
  rw [hfinish] at hheed
  unfold Waits at hheed ⊢
  rw [tasks_takeReply]
  exact hheed

/-- A task that has called the backend waits for a reply about its document. -/
theorem waits_call {a : Task ρ} (ha : p.tasks[t]? = some a) (u : Ticket) (uri : String) :
    (p.modify t fun task => { task with phase := .waiting }).Waits u uri ↔
      (p.Waits u uri ∨ (u = t ∧ uri = a.document.uri.text)) := by
  simp only [Waits, getElem?_modify]
  constructor
  · rintro ⟨b, ⟨a', ha', hb⟩, hwaiting, huri⟩
    by_cases htu : t = u
    · subst htu
      rw [if_pos rfl] at hb
      subst hb
      rw [ha] at ha'
      cases ha'
      exact Or.inr ⟨rfl, huri.symm⟩
    · rw [if_neg htu] at hb
      subst hb
      exact Or.inl ⟨b, ha', hwaiting, huri⟩
  · rintro (⟨a', ha', hwaiting, huri⟩ | ⟨rfl, rfl⟩)
    · refine ⟨_, ⟨a', ha', rfl⟩, ?_⟩
      split
      · exact ⟨rfl, huri⟩
      · exact ⟨hwaiting, huri⟩
    · exact ⟨_, ⟨a, ha, rfl⟩, by simp⟩

theorem waits_start (id : RequestId) (d : Document) (u : Ticket) (uri : String) :
    (p.start id d).2.Waits u uri ↔ p.Waits u uri := by
  unfold Waits
  simp only [getElem?_start]
  constructor
  · rintro ⟨a, ha | ⟨_, rfl⟩, hwaiting, huri⟩
    · exact ⟨a, ha, hwaiting, huri⟩
    · cases hwaiting
  · rintro ⟨a, ha, hwaiting, huri⟩
    exact ⟨a, Or.inl ha, hwaiting, huri⟩

/-! ## Steps -/

theorem Lined.start (h : p.Lined) (id : RequestId) (d : Document) : (p.start id d).2.Lined :=
  h.congr rfl (waits_start id d)

theorem Lined.cancel (h : p.Lined) (t : Ticket) : (p.cancel t).Lined :=
  h.congr rfl fun u uri => waits_cancel u t uri

/-- A reply that is handed over goes to a task that waits. -/
theorem Lined.resolve (h : p.Lined) (uri : String) (reply : ρ) :
    (p.resolve uri reply).2.Lined ∧
      ∀ t b, p.backend.settle uri reply = (some t, b) → p.Waits t uri := by
  unfold Pool.resolve
  split
  · rename_i t backend hsettle
    obtain ⟨before, c, after, hline, hcaller, huri, hrest⟩ :=
      Backend.awaiting_settle_of_some hsettle
    have hwaits : p.Waits t uri := by
      have hc := h.waits c (by rw [hline]; simp)
      rw [hcaller, huri] at hc
      exact hc
    have hfilter : backend.awaiting = p.backend.awaiting.filter fun c => c.caller != t := by
      -- no other call in line is of the same caller
      have hdistinct := h.distinct
      rw [hline, List.map_append, List.map_cons, List.nodup_middle, List.nodup_cons, hcaller,
        ← List.map_append] at hdistinct
      have hothers : ∀ x ∈ before ++ after, (x.caller != t) = true := by
        intro x hx
        rw [bne_iff_ne]
        rintro rfl
        exact hdistinct.1 (List.mem_map_of_mem hx)
      have hfilter := List.filter_eq_self.mpr hothers
      rw [List.filter_append] at hfilter
      rw [hrest, hline, List.filter_append, List.filter_cons_of_neg (by simp [hcaller])]
      exact hfilter.symm
    refine ⟨h.leave hfilter (waits_modify (fun a => ?_) rfl), ?_⟩
    · simp
    · intro t' b hsettle'
      rw [hsettle] at hsettle'
      cases hsettle'
      exact hwaits
  · rename_i backend hsettle
    refine ⟨h.congr (Backend.awaiting_settle_of_none hsettle) fun _ _ => Iff.rfl, ?_⟩
    intro t b hsettle'
    rw [hsettle] at hsettle'
    cases hsettle'

theorem Lined.answer (h : p.Lined) (t : Ticket) (reply : ρ) : (p.answer t reply).2.Lined := by
  unfold Pool.answer
  split
  · exact h.leave (Backend.awaiting_withdraw t p.backend) (waits_modify (by simp) rfl)
  · exact h

theorem Turn.lined {task : Task ρ} (h : Turn m t task p q) (htask : p.tasks[t]? = some task)
    (hp : p.Lined) : q.Lined := by
  cases h with
  | rest _ => exact hp.congr rfl fun _ _ => Iff.rfl
  | quit backend _ _ hbackend =>
    refine hp.leave ?_ (waits_modify (by simp) rfl)
    rcases hbackend with ⟨_, rfl⟩ | ⟨hphase, rfl⟩
    · exact Backend.awaiting_abandon t p.backend
    · exact (hp.filter_of_not_waits (not_waits htask hphase)).symm
  | call backend _ hqueued hcall =>
    have hphase : task.phase ≠ .waiting := by simp [hqueued]
    refine hp.enter (not_waits htask hphase) (Backend.awaiting_call_of_none hcall) ?_
    exact waits_call (p := { p with
      runnable := p.runnable.erase t, calls := p.calls ++ [task.request t], backend }) htask
  | take reply backend calls _ _ hphase hline =>
    refine hp.congr (by rw [backend_takeReply]; exact hline) ?_
    intro u uri
    rw [waits_takeReply]
    constructor
    · exact And.left
    · intro hu
      refine ⟨hu, ?_⟩
      rintro rfl
      exact not_waits htask hphase uri hu

theorem Lined.progress (h : p.Lined) (t : Ticket) : (p.progress m t).Lined := by
  cases htask : p.tasks[t]? with
  | none =>
    rw [progress_of_none m htask]
    exact h
  | some task => exact (turn_progress m htask).lined htask h

end CoverageTracker.Pool
