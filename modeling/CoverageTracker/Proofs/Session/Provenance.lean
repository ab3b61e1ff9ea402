import CoverageTracker.Proofs.Session.Consistent
set_option autoImplicit false

/-!
# Where a shown result comes from

A result that is shown is the one of the completion that was applied last (`Traced`).  Its request
is about the tracked document and was answered while it was not cancelled, no later completion was
applied, and while no request is pending none was issued after it.  That it was issued after the
document was last not tracked relates two moments of one session: `Since` compares every later
moment with an earlier one, and is carried from the earlier one on.
-/

namespace CoverageTracker

variable {ρ : Type} {m : Meaning ρ} {settings : Settings}

/-- The number of the request that a completion is of. -/
abbrev Completion.number (x : Completion) : Nat := x.request.id.number

namespace Pool

variable {p q : Pool ρ} {x : Completion}

/-- A completion of a task that took its reply before it was cancelled. -/
structure Answered (m : Meaning ρ) (p : Pool ρ) (x : Completion) : Prop where
  task : ∃ a, p.tasks[x.ticket]? = some a ∧ x.request = a.request x.ticket
  arrival : ∃ a ∈ p.arrivals, a.request = x.request ∧ a.cancelled = false ∧
    Outcome.coverage (m.outcome a.reply) = x.result

theorem Answered.evolve (h : Answered m p x) (hevolves : Evolves m p q) : Answered m q x := by
  obtain ⟨⟨a, ha, hrequest⟩, arrival, harrival, hx⟩ := h
  obtain ⟨b, hb, hab⟩ := hevolves.becomes _ a ha
  exact ⟨⟨b, hb, by rw [hab.request]; exact hrequest⟩, arrival,
    hevolves.arrivals arrival harrival, hx⟩

theorem LeftBehind.answered (h : LeftBehind m p q x) (hevolves : Evolves m p q) :
    Answered m q x := by
  obtain ⟨a, ha, _, hrequest⟩ := h.unfinished
  obtain ⟨b, hb, hab⟩ := hevolves.becomes _ a ha
  exact ⟨⟨b, hb, by rw [hab.request]; exact hrequest⟩, h.arrival⟩

theorem Answered.cancelOf (h : Answered m p x) (request : Option Request) :
    Answered m (p.cancelOf request) x := by
  cases request with
  | none => exact h
  | some r => exact h.evolve (evolves_cancel r.ticket p)

theorem Answered.start (h : Answered m p x) (id : RequestId) (d : Document) :
    Answered m (p.start id d).2 x := by
  obtain ⟨a, ha, hrequest⟩ := h.task
  exact ⟨⟨a, getElem?_start.mpr (Or.inl ha), hrequest⟩, h.arrival⟩

end Pool

namespace Holding

open Pool

variable {a b : Holding ρ} {c k : Controller ρ} {dropped : Bool} {held : List Completion}

/-! ## The completion that was applied last -/

/-- The result that is shown is traced back to a reply. -/
structure Traced (m : Meaning ρ) (a : Holding ρ) : Prop where
  outstanding : ∀ x ∈ a.outstanding, Answered m a.controller.pool x
  applied : ∀ x ∈ a.controller.applied,
    Answered m a.controller.pool x ∧ x.number ≤ a.controller.issued
  newer : ∀ r, a.controller.state.pending = some r →
    ∀ x ∈ a.controller.applied, x.number < r.id.number
  shown : ∀ r, a.controller.state.coverage = some r →
    ∃ d x, a.controller.state.active = some d ∧ a.controller.applied.getLast? = some x ∧
      x.result = some r ∧ x.request.document.uri = d.uri ∧
      (∀ y ∈ a.controller.applied, y.number ≤ x.number) ∧
      (a.controller.state.pending = none → a.controller.disposed = false → a.dropped = false →
        x.number = a.controller.issued)

theorem traced_create (showUncovered : Bool) :
    Traced m (⟨Controller.create showUncovered, false, []⟩ : Holding ρ) where
  outstanding := by
    intro x hx
    cases hx
  applied := by
    intro x hx
    cases hx
  newer := by
    intro r hr
    cases hr
  shown := by
    intro r hr
    cases hr

theorem Traced.evolve {q : Pool ρ} (h : Traced m ⟨c, dropped, held⟩)
    (hevolves : Evolves m c.pool q) : Traced m ⟨{ c with pool := q }, dropped, held⟩ where
  outstanding := by
    intro x hx
    obtain ⟨new, hqueue, _, hleft⟩ := hevolves.queued
    simp only [Holding.outstanding, hqueue, List.mem_append] at hx
    rcases hx with (hx | hx) | hx
    · exact (h.outstanding x (List.mem_append_left _ hx)).evolve hevolves
    · exact (hleft x hx).answered hevolves
    · exact (h.outstanding x (List.mem_append_right _ hx)).evolve hevolves
  applied := fun x hx => ⟨(h.applied x hx).1.evolve hevolves, (h.applied x hx).2⟩
  newer := h.newer
  shown := h.shown

/-- The pending request is cancelled and forgotten; what stays shown is not of a live controller. -/
theorem Traced.release {state : State} {disposed dropped' : Bool} (h : Traced m ⟨c, dropped, held⟩)
    (hpending : state.pending = none)
    (hshown : ∀ r, state.coverage = some r → state.active = c.state.active ∧
      c.state.coverage = some r ∧ (disposed = true ∨ dropped' = true)) :
    Traced m
      ⟨{ c with state, disposed, pool := c.pool.cancelOf c.state.pending }, dropped', held⟩ where
  outstanding := by
    intro x hx
    simp only [Holding.outstanding, completions_cancelOf] at hx
    exact (h.outstanding x hx).cancelOf c.state.pending
  applied := fun x hx => ⟨(h.applied x hx).1.cancelOf c.state.pending, (h.applied x hx).2⟩
  newer := by
    intro r hr
    simp only [hpending] at hr
    cases hr
  shown := by
    intro r hr
    obtain ⟨hactive, hcoverage, hended⟩ := hshown r hr
    obtain ⟨d, x, hd, hlast, hresult, huri, hnewest, _⟩ := h.shown r hcoverage
    refine ⟨d, x, hactive.trans hd, hlast, hresult, huri, hnewest, ?_⟩
    intro _ hdisposed hdropped
    rcases hended with rfl | rfl
    · cases hdisposed
    · cases hdropped

theorem Traced.untrack (h : Traced m ⟨c, dropped, held⟩) (connected : Bool) :
    Traced m ⟨{ c with state := { c.state with connected } }.untrack, dropped, held⟩ := by
  rw [Controller.untrack_eq]
  refine h.release rfl ?_
  intro r hr
  cases hr

theorem Traced.track (h : Traced m ⟨c, dropped, held⟩) (d : Document) :
    Traced m ⟨c.track d, dropped, held⟩ := by
  rw [Controller.track_eq]
  refine ⟨?_, ?_, ?_, ?_⟩
  · intro x hx
    have hx : x ∈ (⟨c, dropped, held⟩ : Holding ρ).outstanding := by
      simpa only [Holding.outstanding, Pool.start, completions_cancelOf] using hx
    exact ((h.outstanding x hx).cancelOf _).start _ d
  · intro x hx
    exact ⟨((h.applied x hx).1.cancelOf _).start _ d, Nat.le_succ_of_le (h.applied x hx).2⟩
  · intro r hr x hx
    cases hr
    exact Nat.lt_succ_of_le (h.applied x hx).2
  · intro r hr
    simp only at hr
    split at hr
    · rename_i hsame
      rw [Option.any_eq_true] at hsame
      obtain ⟨e, he, hsame⟩ := hsame
      have huri : e.uri = d.uri := by simpa [Document.same] using hsame
      obtain ⟨e', x, he', hlast, hresult, hx, hnewest, _⟩ := h.shown r hr
      rw [he, Option.some.injEq] at he'
      subst he'
      exact ⟨d, x, rfl, hlast, hresult, hx.trans huri, hnewest, fun hnone => by cases hnone⟩
    · cases hr

/-- An applied completion is newer than those that were applied before it. -/
theorem Traced.accept {x : Completion} {before after : List Completion}
    (h : Traced m ⟨c, false, before ++ x :: after⟩) (hconsistent : c.Consistent)
    (hpending : c.state.pending = some x.request) :
    Traced m ⟨c.accept x, false, before ++ after⟩ := by
  obtain ⟨hactive, hnumber⟩ := hconsistent.pending _ hpending
  have hx : x ∈ (⟨c, false, before ++ x :: after⟩ : Holding ρ).outstanding := by
    simp [Holding.outstanding]
  refine ⟨?_, ?_, ?_, ?_⟩
  · intro y hy
    refine h.outstanding y ?_
    simp only [Holding.outstanding, Controller.accept, List.mem_append, List.mem_cons] at hy ⊢
    tauto
  · intro y hy
    rcases List.mem_append.mp hy with hy | hy
    · exact h.applied y hy
    · rw [List.mem_singleton] at hy
      rw [hy]
      exact ⟨h.outstanding x hx, Nat.le_of_eq hnumber⟩
  · intro r hr
    cases hr
  · intro r hr
    refine ⟨x.request.document, x, hactive, by simp [Controller.accept], hr, rfl, ?_,
      fun _ _ _ => hnumber⟩
    intro y hy
    rcases List.mem_append.mp hy with hy | hy
    · exact Nat.le_of_lt (h.newer _ hpending y hy)
    · rw [List.mem_singleton] at hy
      exact Nat.le_of_eq (by rw [hy])

/-- Completions that leave the queue or are not held any more do not matter. -/
theorem Traced.subset {c' : Controller ρ} {held' : List Completion}
    (h : Traced m ⟨c, dropped, held⟩) (hqueue : ∀ x ∈ c'.pool.completions ++ held',
      x ∈ c.pool.completions ++ held)
    (hc : c' = { c with pool := { c.pool with
      completions := c'.pool.completions, isOpen := c'.pool.isOpen } }) :
    Traced m ⟨c', dropped, held'⟩ := by
  rw [hc]
  refine ⟨?_, ?_, h.newer, h.shown⟩
  · intro x hx
    have hanswered := h.outstanding x (hqueue x hx)
    exact ⟨hanswered.task, hanswered.arrival⟩
  · intro x hx
    have hanswered := (h.applied x hx).1
    exact ⟨⟨hanswered.task, hanswered.arrival⟩, (h.applied x hx).2⟩

theorem Traced.step (h : Traced m a) (hsound : Sound a) (hconsistent : a.controller.Consistent)
    (hstep : Step settings m a b) : Traced m b := by
  cases hstep with
  | progress t c dropped held => exact h.evolve (evolves_progress t c.pool)
  | resolve uri reply c dropped held => exact h.evolve (evolves_resolve hsound.lined uri reply)
  | answer t reply c dropped held => exact h.evolve (evolves_answer t reply c.pool)
  | display _ _ c held => exact ⟨h.outstanding, h.applied, h.newer, h.shown⟩
  | connect c held _ => exact ⟨h.outstanding, h.applied, h.newer, h.shown⟩
  | disconnect c held _ => exact h.untrack false
  | untrack c held _ => exact h.untrack c.state.connected
  | track d c held _ _ _ => exact h.track d
  | receive x rest c held hqueue =>
    refine h.subset ?_ rfl
    intro y hy
    simp only [hqueue, Controller.requeue, List.mem_append, List.mem_cons, List.not_mem_nil]
      at hy ⊢
    tauto
  | accept x c before after _ hfresh =>
    exact h.accept hconsistent (hsound.pending_of_fresh (by simp) hfresh)
  | ignore x c before after _ =>
    refine h.subset ?_ rfl
    intro y hy
    simp only [List.mem_append, List.mem_cons] at hy ⊢
    tauto
  | dispose c held _ =>
    rw [Controller.cancelPending_eq]
    exact h.release rfl fun r hr => ⟨rfl, hr, Or.inl rfl⟩
  | drop c held =>
    unfold Controller.drop
    rw [Controller.cancelPending_eq]
    have hrelease : Traced m ⟨{ c with
        state := { c.state with pending := none }
        pool := c.pool.cancelOf c.state.pending }, true, held⟩ :=
      h.release rfl fun r hr => ⟨rfl, hr, Or.inr rfl⟩
    exact hrelease.subset (fun x hx => List.mem_append_right _ hx) rfl

theorem Traced.disturb (h : Traced m a) (hdisturbance : Disturbance a b) : Traced m b := by
  cases hdisturbance with
  | cancel r c held _ => exact h.evolve (evolves_cancel r.ticket c.pool)
  | forget x c dropped before after =>
    refine h.subset ?_ rfl
    intro y hy
    simp only [List.mem_append, List.mem_cons] at hy ⊢
    tauto

end Holding

/-! ## Since an earlier moment -/

namespace Controller

variable {k c : Controller ρ}

/-- A controller is connected and tracks the document of a URI. -/
def Tracks (c : Controller ρ) (uri : Uri) : Prop :=
  c.state.connected = true ∧ ∃ d, c.state.active = some d ∧ d.uri = uri

/-- A controller at a later moment than another.  A document that was not tracked at the earlier
moment has a pending request, and shows a result, only of requests that were issued since. -/
structure Since (k c : Controller ρ) : Prop where
  issued : k.issued ≤ c.issued
  pending : ∀ r, c.state.pending = some r → ¬ k.Tracks r.document.uri → k.issued < r.id.number
  shown : ∀ d r x, c.state.active = some d → c.state.coverage = some r →
    c.applied.getLast? = some x → ¬ k.Tracks d.uri → k.issued < x.number

theorem Since.refl (h : k.Consistent) : k.Since k where
  issued := Nat.le_refl _
  pending := by
    intro r hr huntracked
    have hactive := (h.pending r hr).1
    exact absurd ⟨h.connected _ hactive, _, hactive, rfl⟩ huntracked
  shown := by
    intro d r x hactive _ _ huntracked
    exact absurd ⟨h.connected d hactive, d, hactive, rfl⟩ huntracked

theorem Since.untrack (h : k.Since c) (connected : Bool) :
    k.Since { c with state := { c.state with connected } }.untrack := by
  rw [untrack_eq]
  refine ⟨h.issued, ?_, ?_⟩
  · intro r hr
    cases hr
  · intro d r x hd
    cases hd

theorem Since.track (h : k.Since c) (d : Document) : k.Since (c.track d) := by
  rw [track_eq]
  refine ⟨Nat.le_succ_of_le h.issued, ?_, ?_⟩
  · intro r hr _
    cases hr
    exact Nat.lt_succ_of_le h.issued
  · -- a result is kept only if it is of the same document
    intro d' r x hd hr hx huntracked
    cases hd
    simp only at hr
    split at hr
    · rename_i hsame
      rw [Option.any_eq_true] at hsame
      obtain ⟨e, he, hsame⟩ := hsame
      have huri : e.uri = d.uri := by simpa [Document.same] using hsame
      exact h.shown e r x he hr hx (by rw [huri]; exact huntracked)
    · cases hr

theorem Since.accept {x : Completion} (h : k.Since c) (hconsistent : c.Consistent)
    (hpending : c.state.pending = some x.request) : k.Since (c.accept x) where
  issued := h.issued
  pending := by
    intro r hr
    cases hr
  shown := by
    intro d r y hd _ hlast huntracked
    have hy : x = y := by simpa [Controller.accept] using hlast
    have hactive := (hconsistent.pending _ hpending).1
    have hd : c.state.active = some d := hd
    rw [hactive, Option.some.injEq] at hd
    rw [← hy]
    exact h.pending _ hpending (by rw [hd]; exact huntracked)

theorem Since.cancelPending (h : k.Since c) (disposed : Bool) :
    k.Since { c with disposed }.cancelPending := by
  rw [cancelPending_eq]
  refine ⟨h.issued, ?_, h.shown⟩
  intro r hr
  cases hr

end Controller

namespace Holding

variable {a b : Holding ρ} {k : Controller ρ}

theorem since_step (h : k.Since a.controller) (hsound : Sound a)
    (hconsistent : a.controller.Consistent) (hstep : Step settings m a b) :
    k.Since b.controller := by
  cases hstep with
  | progress t c dropped held => exact ⟨h.issued, h.pending, h.shown⟩
  | resolve uri reply c dropped held => exact ⟨h.issued, h.pending, h.shown⟩
  | answer t reply c dropped held => exact ⟨h.issued, h.pending, h.shown⟩
  | display _ _ c held => exact ⟨h.issued, h.pending, h.shown⟩
  | connect c held _ => exact ⟨h.issued, h.pending, h.shown⟩
  | disconnect c held _ => exact h.untrack false
  | untrack c held _ => exact h.untrack c.state.connected
  | track d c held _ _ _ => exact h.track d
  | receive x rest c held _ => exact ⟨h.issued, h.pending, h.shown⟩
  | accept x c before after _ hfresh =>
    exact h.accept hconsistent (hsound.pending_of_fresh (by simp) hfresh)
  | ignore x c before after _ => exact h
  | dispose c held _ => exact h.cancelPending true
  | drop c held =>
    have hcancelled := h.cancelPending c.disposed
    exact ⟨hcancelled.issued, hcancelled.pending, hcancelled.shown⟩

theorem since_disturb (h : k.Since a.controller) (hdisturbance : Disturbance a b) :
    k.Since b.controller := by
  cases hdisturbance with
  | cancel r c held _ => exact ⟨h.issued, h.pending, h.shown⟩
  | forget x c dropped before after => exact h

end Holding

namespace Session

open Holding

theorem traced_playAll (settings : Settings) (m : Meaning ρ) (showUncovered : Bool)
    (moves : List (Move ρ)) :
    Traced m ((create showUncovered).playAll settings m moves).holding :=
  (playAll_keeps_of_consistent moves (sound_create showUncovered) (.create showUncovered)
    (fun _ _ hsound hconsistent hstep h => h.step hsound hconsistent hstep)
    (fun _ _ hdisturbance h => h.disturb hdisturbance) (traced_create showUncovered)).2

/-- Two moments of one session. -/
theorem since_playAll (settings : Settings) (m : Meaning ρ) (showUncovered : Bool)
    (before after : List (Move ρ)) :
    ((create showUncovered).playAll settings m before).controller.Since
      ((create showUncovered).playAll settings m (before ++ after)).controller := by
  have hsound := sound_playAll settings m showUncovered before
  have hconsistent := consistent_playAll settings m showUncovered before
  rw [playAll_append]
  generalize (create showUncovered).playAll settings m before = s at hsound hconsistent
  exact (playAll_keeps_of_consistent (P := fun a => s.controller.Since a.controller) after hsound
    hconsistent (fun _ _ hsound hconsistent hstep h => since_step h hsound hconsistent hstep)
    (fun _ _ hdisturbance h => since_disturb h hdisturbance) (.refl hconsistent)).2

/-- Provenance of a shown result.  There is a tracked document, the controller is connected, and
the result is what the backend replied to a request about that document, which was not cancelled
when the reply was taken.  The request was issued after the last moment at which the controller was
disconnected or did not track the document, no completion of a later request was applied, and while
no request is pending it is the last one that was issued. -/
theorem coverage_provenance (settings : Settings) (m : Meaning ρ) (showUncovered : Bool)
    (moves : List (Move ρ)) {r : Coverage}
    (hcoverage :
      ((create showUncovered).playAll settings m moves).controller.state.coverage = some r) :
    let c := ((create showUncovered).playAll settings m moves).controller
    ∃ d request, c.state.active = some d ∧ c.state.connected = true ∧
      request.document.uri = d.uri ∧
      (∃ task, c.pool.tasks[request.ticket]? = some task ∧
        request = task.request request.ticket) ∧
      (∃ a ∈ c.pool.arrivals, a.request = request ∧ a.cancelled = false ∧
        m.outcome a.reply = .ok (some r)) ∧
      (∀ before after, moves = before ++ after →
        let k := ((create showUncovered).playAll settings m before).controller
        ¬ (k.state.connected = true ∧ ∃ e, k.state.active = some e ∧ e.uri = d.uri) →
        k.issued < request.id.number) ∧
      request.id.number ≤ c.issued ∧
      (∀ x ∈ c.applied, x.request.id.number ≤ request.id.number) ∧
      (c.state.pending = none → c.disposed = false →
        ((create showUncovered).playAll settings m moves).dropped = false →
        request.id.number = c.issued) := by
  intro c
  have hconsistent := consistent_playAll settings m showUncovered moves
  have htraced := traced_playAll settings m showUncovered moves
  obtain ⟨d, x, hd, hlast, hresult, huri, hnewest, hpending⟩ := htraced.shown r hcoverage
  have hx : x ∈ c.applied := List.mem_of_getLast? hlast
  obtain ⟨⟨htask, arrival, harrival, hrequest, hcancelled, houtcome⟩, hissued⟩ :=
    htraced.applied x hx
  refine ⟨d, x.request, hd, hconsistent.connected d hd, huri, htask,
    ⟨arrival, harrival, hrequest, hcancelled, ?_⟩, ?_, hissued, hnewest, hpending⟩
  · rw [hresult] at houtcome
    cases hreply : m.outcome arrival.reply with
    | ok result =>
      rw [hreply] at houtcome
      rw [← houtcome]
      rfl
    | error e =>
      rw [hreply] at houtcome
      cases houtcome
  · intro before after hmoves k huntracked
    have hsince := since_playAll settings m showUncovered before after
    rw [← hmoves] at hsince
    exact hsince.shown d r x hd hcoverage hlast huntracked

/-- A document is tracked and its result comes in: it is the one of the only request. -/
theorem coverage_provenance_of_reply :
    let r : Coverage := ⟨.zero, [], Binary64.isPercent_zero⟩
    let c := ((create true).playAll ⟨fun _ => true, .clear⟩ Meaning.direct
      [.connection true, .activate (some ⟨⟨"file:///a.js", rfl⟩, "javascript", none⟩), .run,
        .resolve "file:///a.js" (.ok (some r)), .settle]).controller
    c.state.coverage = some r ∧
      ∃ (d : Document) (request : Request), c.state.active = some d ∧
        request.document.uri = d.uri ∧ request.id.number = c.issued := by
  intro r c
  have hcoverage : c.state.coverage = some r := rfl
  obtain ⟨d, request, hd, _, huri, _, _, _, _, _, hlast⟩ :=
    coverage_provenance ⟨fun _ => true, .clear⟩ Meaning.direct true _ hcoverage
  exact ⟨hcoverage, d, request, hd, huri, hlast rfl rfl rfl⟩

end Session

end CoverageTracker
