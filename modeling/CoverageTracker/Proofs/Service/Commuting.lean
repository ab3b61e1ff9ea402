import CoverageTracker.Proofs.Service.Reconnect
import CoverageTracker.Proofs.Session.Handovers
import CoverageTracker.Proofs.Session.Tracking
set_option autoImplicit false

/-!
# Completions and events in either order

A service that finds a completion and an event ready takes either of them first.  It makes no
difference to the state that the controller ends in: a completion that was cancelled stays
cancelled, and the one of the pending request is either applied and then undone by what the event
changes, or superseded by the event and ignored.  The one exception is an event that starts another
computation of the same document (`Deed.recomputes`), which keeps the last result, whichever it is,
until that computation is finished.
-/

namespace CoverageTracker

variable {ρ : Type} {settings : Settings} {m : Meaning ρ}

@[simp] theorem Pool.length_tasks_cancelOf (request : Option Request) (p : Pool ρ) :
    (p.cancelOf request).tasks.length = p.tasks.length := by
  cases request with
  | none => rfl
  | some r => exact Pool.length_tasks_cancel r.ticket p

/-! ## Events -/

namespace Deed

/-- Whether it is a transition of the controller that comes from outside. -/
def isTransition : Deed ρ → Bool
  | .connection _ _ => true
  | .activated _ => true
  | .saved _ => true
  | .toggle => true
  | _ => false

/-- The document that it is about, if it names one. -/
def document? : Deed ρ → Option Document
  | .activated d => d
  | .saved d => some d
  | _ => none

/-- Whether it starts another computation of the document that is tracked. -/
def recomputes (settings : Settings) (c : Controller ρ) (deed : Deed ρ) : Bool :=
  deed.document?.any fun d =>
    c.state.connected && settings.eligible d && c.state.active.any (Document.same · d)

end Deed

namespace Controller

variable {a b c : Controller ρ} {x : Completion} {deed : Deed ρ} {d : Option Document}

theorem renders_perform (settings : Settings) (m : Meaning ρ) (hdeed : deed.isTransition = true)
    (c : Controller ρ) : c.Renders (c.perform settings m deed) := by
  cases deed with
  | connection connected focus => exact c.renders_connection settings connected focus
  | activated d => exact c.renders_activated settings d
  | saved d => exact c.renders_activated settings (some d)
  | toggle => exact c.renders_toggle
  | _ => cases hdeed

theorem performAll_of_inside (settings : Settings) (m : Meaning ρ) {deeds : List (Deed ρ)}
    (h : ∀ deed ∈ deeds, deed.isInside = true) (c : Controller ρ) :
    ∃ pool, c.performAll settings m deeds = { c with pool } := by
  induction deeds generalizing c with
  | nil => exact ⟨c.pool, rfl⟩
  | cons deed deeds ih =>
    obtain ⟨p, hp⟩ := perform_of_inside settings m (h deed List.mem_cons_self) c
    obtain ⟨q, hq⟩ := ih (fun other hother => h other (List.mem_cons_of_mem deed hother))
      { c with pool := p }
    refine ⟨q, ?_⟩
    calc c.performAll settings m (deed :: deeds)
        = ({ c with pool := p } : Controller ρ).performAll settings m deeds := by rw [← hp]; rfl
      _ = { c with pool := q } := hq

/-! ## Agreement -/

/-- Two controllers are in the same state but for the last result, have issued as many requests,
and their views show the same but for the percentage. -/
structure AgreesButResult (a b : Controller ρ) : Prop where
  state : { a.state with coverage := none } = { b.state with coverage := none }
  issued : a.issued = b.issued
  status : (Recorder.lastStatus a.sinks).map (fun s => { s with percent := none }) =
    (Recorder.lastStatus b.sinks).map fun s => { s with percent := none }
  published : Recorder.published a.sinks = Recorder.published b.sinks

/-- After an event the controller is in use and its views show the state. -/
theorem used_perform (settings : Settings) (m : Meaning ρ) (hdisposed : c.disposed = false)
    (hdeed : deed.isTransition = true) :
    (c.perform settings m deed).disposed = false ∧ (c.perform settings m deed).Current := by
  have hrenders := renders_perform settings m hdeed c
  generalize c.perform settings m deed = c' at hrenders
  cases hrenders with
  | disposed hused =>
    rw [hdisposed] at hused
    cases hused
  | once changed _ hused _ _ => exact ⟨hused, current_render changed⟩

/-! ## Superseded completions -/

/-- The completion was cancelled or is the one of the pending request. -/
def Owns (c : Controller ρ) (x : Completion) : Prop :=
  c.pool.isCancelled x.ticket = true ∨
    c.state.pending = some x.request ∧ ∃ task, c.pool.tasks[x.ticket]? = some task

theorem stale_cancelOf (h : c.Owns x) :
    (c.pool.cancelOf c.state.pending).isCancelled x.ticket = true := by
  rcases h with hcancelled | ⟨hpending, task, htask⟩
  · cases hrequest : c.state.pending with
    | none => exact hcancelled
    | some r => exact (Pool.grows_cancel r.ticket _).isCancelled hcancelled
  · rw [hpending]
    exact Pool.isCancelled_cancel htask

theorem stale_track (h : c.Owns x) (d : Document) :
    (c.track d).pool.isCancelled x.ticket = true := by
  rw [track_eq]
  exact (Pool.grows_start _ d _).isCancelled (stale_cancelOf h)

theorem stale_untrack (h : c.Owns x) : c.untrack.pool.isCancelled x.ticket = true := by
  rw [untrack_eq]
  exact stale_cancelOf h

/-- Whatever document is activated, no computation that was started before counts any more. -/
theorem stale_activate (h : c.Owns x) (d : Option Document) :
    (c.activate settings d).pool.isCancelled x.ticket = true := by
  unfold activate
  split
  · split
    · exact stale_track h _
    · exact stale_untrack h
  · exact stale_untrack h

theorem computed_render_of_stale (hcancelled : c.pool.isCancelled x.ticket = true) :
    c.render.computed x = (false, c.render) :=
  computed_of_stale (c := c.render) (Or.inr hcancelled)

/-- A cancelled completion stays cancelled. -/
theorem stale_perform (settings : Settings) (m : Meaning ρ) (hdisposed : c.disposed = false)
    (hcancelled : c.pool.isCancelled x.ticket = true) (hdeed : deed.isTransition = true) :
    (c.perform settings m deed).pool.isCancelled x.ticket = true := by
  have howns : c.Owns x := Or.inl hcancelled
  cases deed with
  | connection connected focus =>
    rw [perform, connection, if_neg (by simp [hdisposed])]
    simp only [render]
    split
    · exact stale_activate (c := { c with state := { c.state with connected } }) howns none
    · split
      · exact stale_activate (c := { c with state := { c.state with connected } }) howns focus
      · exact hcancelled
  | activated d =>
    rw [perform, activated_of_used hdisposed]
    exact stale_activate howns d
  | saved d =>
    rw [perform, saved, activated_of_used hdisposed]
    exact stale_activate howns (some d)
  | toggle =>
    simp only [perform, toggle, hdisposed]
    exact hcancelled
  | _ => cases hdeed

/-! ## One order and the other -/

/-- What the application of a completion changes, an event that forgets the document forgets. -/
theorem untrack_accept (x : Completion) (c : Controller ρ) :
    (c.accept x).render.untrack.state = c.untrack.state ∧
      (c.accept x).render.untrack.issued = c.untrack.issued := by
  rw [untrack_eq, untrack_eq]
  exact ⟨rfl, rfl⟩

/-- Another computation gets the same number and the same place in either order. -/
theorem track_accept (x : Completion) (d : Document) (c : Controller ρ) :
    ((c.accept x).render.track d).state = { (c.track d).state with
      coverage := if c.state.active.any (Document.same · d) then x.result else none } ∧
      ((c.accept x).render.track d).issued = (c.track d).issued := by
  rw [track_eq, track_eq, Pool.length_tasks_cancelOf, Pool.length_tasks_cancelOf]
  exact ⟨rfl, rfl⟩

/-- If it is a computation of another document, no result is kept. -/
theorem activate_accept (x : Completion)
    (hother : d.any (fun d => c.state.connected && settings.eligible d &&
      c.state.active.any (Document.same · d)) = false) :
    ((c.accept x).render.activate settings d).state = (c.activate settings d).state ∧
      ((c.accept x).render.activate settings d).issued = (c.activate settings d).issued := by
  cases d with
  | none => exact untrack_accept x c
  | some d =>
    have hconnected : (c.accept x).render.state.connected = c.state.connected := rfl
    simp only [activate, hconnected]
    split
    · rename_i htrack
      obtain ⟨hstate, hissued⟩ := track_accept x d c
      simp only [Option.any_some, htrack, Bool.true_and] at hother
      refine ⟨?_, hissued⟩
      rw [hstate, track_eq, hother]
      rfl
    · exact untrack_accept x c

theorem activated_accept (hdisposed : c.disposed = false) (howns : c.Owns x)
    (hother : d.any (fun d => c.state.connected && settings.eligible d &&
      c.state.active.any (Document.same · d)) = false) :
    ((c.accept x).render.activated settings d).state =
        ((c.activated settings d).computed x).2.state ∧
      ((c.accept x).render.activated settings d).issued =
        ((c.activated settings d).computed x).2.issued := by
  have haccept : (c.accept x).render.disposed = false := hdisposed
  rw [activated_of_used haccept, activated_of_used hdisposed,
    computed_render_of_stale (stale_activate howns d)]
  exact activate_accept x hother

/-- The completion of the pending request and an event in either order. -/
theorem perform_accept (m : Meaning ρ) (hdisposed : c.disposed = false)
    (hconnected : c.state.connected = true) (howns : c.Owns x)
    (hfresh : c.pool.isCancelled x.ticket = false) (hdeed : deed.isTransition = true)
    (hother : deed.recomputes settings c = false) :
    ((c.accept x).render.perform settings m deed).state =
        ((c.perform settings m deed).computed x).2.state ∧
      ((c.accept x).render.perform settings m deed).issued =
        ((c.perform settings m deed).computed x).2.issued := by
  have haccept : (c.accept x).render.disposed = false := hdisposed
  cases deed with
  | connection connected focus =>
    simp only [perform]
    cases connected with
    | true =>
      rw [connection_still focus haccept hconnected, connection_still focus hdisposed hconnected,
        computed_of_fresh (c := c.render) hdisposed hfresh]
      exact ⟨rfl, rfl⟩
    | false =>
      have hstale : c.offline.untrack.pool.isCancelled x.ticket = true :=
        stale_untrack (c := c.offline) howns
      rw [connection_lost focus haccept, connection_lost focus hdisposed,
        computed_render_of_stale hstale]
      exact untrack_accept x c.offline
  | activated d => exact activated_accept hdisposed howns hother
  | saved d => exact activated_accept hdisposed howns hother
  | toggle =>
    have htoggle : c.toggle.disposed = false := by simp [toggle, hdisposed, render]
    have hpool : c.toggle.pool.isCancelled x.ticket = false := by
      simpa [toggle, hdisposed, render] using hfresh
    rw [perform, perform, computed_of_fresh htoggle hpool]
    simp [toggle, hdisposed, render, accept]
  | _ => cases hdeed

/-- A completion that the controller owns and an event agree in either order. -/
theorem agrees_of_either_order (m : Meaning ρ) (hdisposed : c.disposed = false)
    (hconsistent : c.Consistent) (howns : c.Owns x) (hdeed : deed.isTransition = true)
    (hother : deed.recomputes settings c = false) :
    ((c.computed x).2.perform settings m deed).Agrees
      ((c.perform settings m deed).computed x).2 := by
  cases hcancelled : c.pool.isCancelled x.ticket with
  | true =>
    have hstale := stale_perform settings m hdisposed hcancelled hdeed
    rw [computed_of_stale (Or.inr hcancelled), computed_of_stale (Or.inr hstale)]
    exact .refl _
  | false =>
    have hpending : c.state.pending = some x.request := by
      rcases howns with hstale | ⟨hpending, _⟩
      · rw [hcancelled] at hstale
        cases hstale
      · exact hpending
    have hconnected : c.state.connected = true :=
      hconsistent.connected _ (hconsistent.pending _ hpending).1
    obtain ⟨hstate, hissued⟩ := perform_accept m hdisposed hconnected howns hcancelled hdeed hother
    have haccept : (c.accept x).render.disposed = false := hdisposed
    obtain ⟨haused, hacurrent⟩ := used_perform settings m haccept hdeed
    obtain ⟨hused, hcurrent⟩ := used_perform settings m hdisposed hdeed
    rw [computed_of_fresh hdisposed hcancelled]
    exact .of_current hacurrent (hcurrent.computed x) haused
      ((computed_keeps x _).1.trans hused) hstate hissued

/-! ## Another computation of the same document -/

/-- Tracking a document in use, whatever the event is called. -/
theorem perform_of_document {d : Document} (hdisposed : c.disposed = false)
    (hconnected : c.state.connected = true) (heligible : settings.eligible d = true)
    (hdocument : deed.document? = some d) :
    c.perform settings m deed = (c.track d).render := by
  have hactivated : c.activated settings (some d) = (c.track d).render := by
    simp [activated_of_used hdisposed, activate, hconnected, heligible]
  cases deed with
  | activated e =>
    have he : e = some d := hdocument
    rw [he]
    exact hactivated
  | saved e =>
    have he : e = d := Option.some.inj hdocument
    rw [he]
    exact hactivated
  | _ => cases hdocument

/-- Whatever becomes of an older completion, a computation that is started then is the same. -/
theorem track_computed (x : Completion) (d : Document) (c : Controller ρ) :
    { ((c.computed x).2.track d).state with coverage := none } =
        { (c.track d).state with coverage := none } ∧
      ((c.computed x).2.track d).issued = (c.track d).issued := by
  rcases c.fresh_or_stale x with ⟨hdisposed, hfresh⟩ | hstale
  · obtain ⟨hstate, hissued⟩ := track_accept x d c
    rw [computed_of_fresh hdisposed hfresh, hstate]
    exact ⟨rfl, hissued⟩
  · rw [computed_of_stale hstale]
    exact ⟨rfl, rfl⟩

end Controller

theorem State.eq_but_coverage {s t : State}
    (h : { s with coverage := none } = { t with coverage := none }) :
    s.showUncovered = t.showUncovered ∧ s.active = t.active ∧ s.pending = t.pending ∧
      s.connected = t.connected := by
  simpa using h

/-- While a computation is under way, the last result shows in the percentage only. -/
theorem State.status_of_pending {s : State} (h : s.pending.isSome = true) :
    (s.status.map fun v => { v with percent := none }) =
      if s.active.isNone || !s.connected then none else some ⟨true, none, s.showUncovered⟩ := by
  obtain ⟨r, hr⟩ := Option.isSome_iff_exists.mp h
  unfold State.status
  split
  · rfl
  · cases s.coverage <;> simp [hr]

theorem State.diagnostics_of_pending {s : State} (h : s.pending.isSome = true) :
    s.diagnostics = none := by
  simp [State.diagnostics, h]

namespace Controller

variable {a b c : Controller ρ}

/-- While a computation is under way, two controllers that differ in the last result show the same
but for the percentage. -/
theorem AgreesButResult.of_current (ha : a.Current) (hb : b.Current) (haused : a.disposed = false)
    (hbused : b.disposed = false) (hpending : a.state.pending.isSome = true)
    (hstate : { a.state with coverage := none } = { b.state with coverage := none })
    (hissued : a.issued = b.issued) : a.AgreesButResult b := by
  obtain ⟨hshow, hactive, hsame, hconnected⟩ := State.eq_but_coverage hstate
  have hbpending : b.state.pending.isSome = true := by rw [← hsame, hpending]
  refine ⟨hstate, hissued, ?_, ?_⟩
  · rw [(ha haused).1, (hb hbused).1, State.status_of_pending hpending,
      State.status_of_pending hbpending, hactive, hconnected, hshow]
  · rw [(ha haused).2, (hb hbused).2, State.diagnostics_of_pending hpending,
      State.diagnostics_of_pending hbpending]

/-- The next completion that is applied takes the place of the last result. -/
theorem AgreesButResult.applied {y : Completion} (h : a.AgreesButResult b) (ha : a.Current)
    (hb : b.Current) (haused : a.disposed = false) (hbused : b.disposed = false)
    (haapplied : (a.computed y).1 = true) (hbapplied : (b.computed y).1 = true) :
    (a.computed y).2.Agrees (b.computed y).2 := by
  obtain ⟨hastate, haissued, hadisposed, _⟩ := Session.state_computed haapplied
  obtain ⟨hbstate, hbissued, hbdisposed, _⟩ := Session.state_computed hbapplied
  refine .of_current (ha.computed y) (hb.computed y) (hadisposed.trans haused)
    (hbdisposed.trans hbused) ?_ (haissued.trans (h.issued.trans hbissued.symm))
  obtain ⟨hshow, hactive, _, hconnected⟩ := State.eq_but_coverage h.state
  simp only [hastate, hbstate, hshow, hactive, hconnected]

/-- So it is whatever becomes of the computations before that. -/
theorem AgreesButResult.applied_later {adeeds bdeeds : List (Deed ρ)} {y : Completion}
    (h : a.AgreesButResult b) (ha : a.Current) (hb : b.Current) (haused : a.disposed = false)
    (hbused : b.disposed = false) (hadeeds : ∀ deed ∈ adeeds, deed.isInside = true)
    (hbdeeds : ∀ deed ∈ bdeeds, deed.isInside = true)
    (haapplied : ((a.performAll settings m adeeds).computed y).1 = true)
    (hbapplied : ((b.performAll settings m bdeeds).computed y).1 = true) :
    ((a.performAll settings m adeeds).computed y).2.Agrees
      ((b.performAll settings m bdeeds).computed y).2 := by
  obtain ⟨p, hp⟩ := performAll_of_inside settings m hadeeds a
  obtain ⟨q, hq⟩ := performAll_of_inside settings m hbdeeds b
  rw [hp] at haapplied ⊢
  rw [hq] at hbapplied ⊢
  have hpools : AgreesButResult { a with pool := p } { b with pool := q } :=
    ⟨h.state, h.issued, h.status, h.published⟩
  exact hpools.applied (ha.congr rfl rfl rfl) (hb.congr rfl rfl rfl) haused hbused haapplied
    hbapplied

/-- A computation that was just started is pending, has the next number and is not cancelled. -/
theorem render_track (hdisposed : c.disposed = false) (d : Document) :
    (c.track d).render.disposed = false ∧ (c.track d).render.Current ∧
      (c.track d).render.Unspoiled ∧
      ∃ r, (c.track d).render.state.pending = some r ∧ r.document = d ∧
        r.id.number = c.issued + 1 := by
  refine ⟨?_, current_render _, unspoiled_track d c, ?_⟩
  · rw [render, track_eq]
    exact hdisposed
  · rw [render, track_eq]
    exact ⟨_, rfl, rfl, rfl⟩

/-- Whatever becomes of an older completion first, it makes a difference to the last result only. -/
theorem agreesButResult_track (hdisposed : c.disposed = false) (x : Completion) (d : Document) :
    ((c.computed x).2.track d).render.AgreesButResult (c.track d).render := by
  obtain ⟨hstate, hissued⟩ := track_computed x d c
  obtain ⟨hused, hcurrent, _, r, hr, _⟩ :=
    render_track (c := (c.computed x).2) ((computed_keeps x c).1.trans hdisposed) d
  obtain ⟨hbused, hbcurrent, _⟩ := render_track hdisposed d
  exact .of_current hcurrent hbcurrent hused hbused (by rw [hr]; rfl) hstate hissued

/-- An event that starts another computation supersedes any older one, whether its completion comes
before or after. -/
theorem perform_of_recomputes (m : Meaning ρ) {x : Completion} {deed : Deed ρ}
    (hdisposed : c.disposed = false) (howns : c.Owns x)
    (hrecomputes : deed.recomputes settings c = true) :
    ∃ d, deed.document? = some d ∧
      (c.computed x).2.perform settings m deed = ((c.computed x).2.track d).render ∧
      ((c.perform settings m deed).computed x).2 = (c.track d).render := by
  obtain ⟨d, hdocument, htracks⟩ := (Option.any_eq_true _ _).mp hrecomputes
  simp only [Bool.and_eq_true] at htracks
  obtain ⟨⟨hconnected, heligible⟩, _⟩ := htracks
  obtain ⟨hkept, hkconnected, _⟩ := computed_keeps x c
  refine ⟨d, hdocument, ?_, ?_⟩
  · exact perform_of_document (hkept.trans hdisposed) (hkconnected.trans hconnected) heligible
      hdocument
  · rw [perform_of_document hdisposed hconnected heligible hdocument,
      computed_render_of_stale (stale_track howns d)]

end Controller

/-! ## Reachable controllers -/

namespace Session

/-- A completion that is queued or held was cancelled or is the one of the pending request. -/
theorem owns_of_outstanding {a : Holding ρ} {x : Completion} (h : a.Sound)
    (hx : x ∈ a.outstanding) : a.controller.Owns x := by
  cases hcancelled : a.controller.pool.isCancelled x.ticket with
  | true => exact Or.inl hcancelled
  | false =>
    obtain ⟨task, htask, _⟩ := h.exclusive.finished x hx
    exact Or.inr ⟨h.exclusive.pending_eq hx hcancelled, task, htask⟩

/-- Completions and events commute.  A completion that is queued or held, cancelled or not, and an
event come to the same in either order: the same state, as many requests, and the same in both
views.  If the event starts another computation of the tracked document, the two orders differ in
the last result and in the percentage that shows it.  The new computation is the same in both and
not cancelled; and whatever has become of the computations by then, the next completion that is
applied makes both orders agree, as that of the new computation does. -/
theorem completion_commutes (settings : Settings) (m : Meaning ρ) (showUncovered : Bool)
    (moves : List (Move ρ)) :
    let s := (create showUncovered).playAll settings m moves
    let c := s.controller
    c.disposed = false →
    ∀ x ∈ c.pool.completions ++ s.held.contents,
    ∀ deed : Deed ρ, deed.isTransition = true →
      let a := (c.computed x).2.perform settings m deed
      let b := ((c.perform settings m deed).computed x).2
      (deed.recomputes settings c = false → a.Agrees b) ∧
      (deed.recomputes settings c = true → a.AgreesButResult b ∧
        (∃ r, a.state.pending = some r ∧ b.state.pending = some r ∧
          deed.document? = some r.document ∧ r.id.number = c.issued + 1 ∧
          ∀ y : Completion, y.request = r →
            (a.computed y).1 = true ∧ (b.computed y).1 = true) ∧
        ∀ (adeeds bdeeds : List (Deed ρ)) (y : Completion),
          (∀ deed ∈ adeeds, deed.isInside = true) → (∀ deed ∈ bdeeds, deed.isInside = true) →
          let a' := a.performAll settings m adeeds
          let b' := b.performAll settings m bdeeds
          (a'.computed y).1 = true → (b'.computed y).1 = true →
            (a'.computed y).2.Agrees (b'.computed y).2) := by
  intro s c hdisposed x hx deed hdeed a b
  have hsound := sound_playAll settings m showUncovered moves
  have hconsistent := consistent_playAll settings m showUncovered moves
  have howns : c.Owns x := owns_of_outstanding hsound hx
  refine ⟨Controller.agrees_of_either_order m hdisposed hconsistent howns hdeed, ?_⟩
  intro hrecomputes
  obtain ⟨d, hdocument, ha, hb⟩ := Controller.perform_of_recomputes m hdisposed howns hrecomputes
  have hagrees := Controller.agreesButResult_track hdisposed x d
  obtain ⟨haused, hacurrent, haunspoiled, _⟩ := Controller.render_track
    ((Controller.computed_keeps x c).1.trans hdisposed) d
  obtain ⟨hbused, hbcurrent, hbunspoiled, r, hr, hrd, hnumber⟩ :=
    Controller.render_track hdisposed d
  rw [← ha] at hagrees haused hacurrent haunspoiled
  rw [← hb] at hagrees hbused hbcurrent hbunspoiled hr
  have har : a.state.pending = some r := (State.eq_but_coverage hagrees.state).2.2.1.trans hr
  refine ⟨hagrees, ⟨r, har, hr, by rw [hdocument, hrd], hnumber, ?_⟩, ?_⟩
  · rintro y rfl
    rw [Controller.computed_of_fresh haused (haunspoiled _ har),
      Controller.computed_of_fresh hbused (hbunspoiled _ hr)]
    exact ⟨rfl, rfl⟩
  · intro adeeds bdeeds y hadeeds hbdeeds a' b' haapplied hbapplied
    exact hagrees.applied_later hacurrent hbcurrent haused hbused hadeeds hbdeeds haapplied hbapplied

/-- A result that arrives while the user switches the display, or while the document is saved. -/
theorem completion_commutes_of_save :
    let d : Document := ⟨⟨"file:///a.js", rfl⟩, "javascript", none⟩
    let r : Coverage := ⟨.zero, [], Binary64.isPercent_zero⟩
    let settings : Settings := ⟨fun _ => true, .clear⟩
    let s := (create true).playAll settings Meaning.direct [.connection true, .activate (some d),
      .progress 0, .answer 0 (.ok (some r)), .progress 0]
    let c := s.controller
    let x : Completion := ⟨⟨0, ⟨1⟩, d⟩, some r⟩
    let y : Completion := ⟨⟨1, ⟨2⟩, d⟩, none⟩
    let a := (c.computed x).2.perform settings Meaning.direct (.saved d)
    let b := ((c.perform settings Meaning.direct (.saved d)).computed x).2
    let deeds : List (Deed Outcome) := [.progress 1, .answer 1 (.ok none), .progress 1]
    let a' := a.performAll settings Meaning.direct deeds
    let b' := b.performAll settings Meaning.direct deeds
    c.pool.completions = [x] ∧ c.pool.isCancelled x.ticket = false ∧
      ((c.computed x).2.perform settings Meaning.direct .toggle).Agrees
        ((c.perform settings Meaning.direct .toggle).computed x).2 ∧
      a.state.coverage = some r ∧ b.state.coverage = none ∧ a.AgreesButResult b ∧
      y ∈ a'.pool.completions ∧ (a'.computed y).2.Agrees (b'.computed y).2 := by
  intro d r settings s c x y a b deeds a' b'
  have hqueue : c.pool.completions = [x] := by decide +kernel
  have hmem : x ∈ c.pool.completions ++ s.held.contents := by
    refine List.mem_append_left _ ?_
    rw [hqueue]
    exact List.mem_cons_self
  have hdisposed : c.disposed = false := by decide +kernel
  have hcommutes := completion_commutes settings Meaning.direct true
    [.connection true, .activate (some d), .progress 0, .answer 0 (.ok (some r)), .progress 0]
    hdisposed x hmem
  have htoggle := (hcommutes .toggle (by decide)).1 (by decide +kernel)
  have hsaved := (hcommutes (.saved d) (by decide)).2 (by decide +kernel)
  have hinside : ∀ deed ∈ deeds, deed.isInside = true := by simp [deeds, Deed.isInside]
  have haapplied : (a'.computed y).1 = true := by decide +kernel
  have hbapplied : (b'.computed y).1 = true := by decide +kernel
  exact ⟨hqueue, by decide +kernel, htoggle, by decide +kernel, by decide +kernel, hsaved.1,
    by decide +kernel, hsaved.2.2 deeds deeds y hinside hinside haapplied hbapplied⟩

end Session

end CoverageTracker
