import CoverageTracker.Proofs.Session.Consistent
import CoverageTracker.Proofs.Session.Views
set_option autoImplicit false

/-!
# The two views never contradict each other

The diagnostics of a state do not ask whether the backend is available, and its status does.  So the
views agree only in states in which a document is tracked only while the backend is available
(`State.status_of_diagnostics`), and every state that a session reaches is one (`Consistent`).
-/

namespace CoverageTracker

variable {ρ : Type}

namespace State

variable {s : State}

/-- Whatever diagnostics show are the uncovered ranges of the result whose percentage the status
shows, and nothing is under way. -/
theorem status_of_diagnostics {uri : Uri} {ds : List Diagnostic}
    (hconnected : ∀ d, s.active = some d → s.connected = true)
    (h : s.diagnostics = some (uri, ds)) :
    ∃ d r, s.active = some d ∧ s.coverage = some r ∧ r.uncovered ≠ [] ∧
      uri = d.uri ∧ ds = r.uncovered.map UncoveredRange.diagnostic ∧
      s.status = some ⟨false, some r.percent, true⟩ := by
  unfold diagnostics at h
  split at h
  · cases h
  · rename_i hshown
    obtain ⟨hshow, hpending⟩ : s.showUncovered = true ∧ s.pending = none := by simpa using hshown
    split at h
    · rename_i d r hactive hcoverage
      split at h
      · cases h
      · rename_i huncovered
        cases h
        refine ⟨d, r, hactive, hcoverage, by simpa using huncovered, rfl, rfl, ?_⟩
        simp [status, hactive, hconnected d hactive, hcoverage, hpending, hshow]
    · cases h

/-- A status without a percentage is one of a computation under way. -/
theorem computing_of_status {status : Status} (h : s.status = some status)
    (hpercent : status.percent = none) : status.computing = true := by
  unfold State.status at h
  split at h
  · cases h
  · split at h
    · cases h
    · cases h
      rfl
    · cases h
      cases hpercent

end State

/-- The views are told the status of every state that is rendered, and no other. -/
theorem Recorder.statuses_rendered (states : List State) :
    statuses (states.flatMap State.render) = states.map State.status := by
  induction states with
  | nil => rfl
  | cons state states ih =>
    rw [List.flatMap_cons, statuses_append, ih, state.render_eq]
    cases state.diagnostics <;> rfl

namespace Session

/-- The two views never contradict each other.  As long as the controller is in use, whatever the
store of diagnostics holds are the uncovered ranges of the last result, under the URI of the tracked
document and no other, and the status shows the percentage of the same result, that uncovered ranges
are shown, and that nothing is being computed.  So while there is no status, or something is being
computed, the store is empty.  And no status without a percentage was ever shown, except while
computing. -/
theorem views_never_contradict (settings : Settings) (m : Meaning ρ) (showUncovered : Bool)
    (moves : List (Move ρ)) :
    let s := (create showUncovered).playAll settings m moves
    let c := s.controller
    c.disposed = false → s.dropped = false →
    (∀ entry ∈ Recorder.published c.sinks,
      ∃ d r, c.state.active = some d ∧ c.state.coverage = some r ∧ r.uncovered ≠ [] ∧
        Recorder.published c.sinks =
          [(d.uri.text, r.uncovered.map UncoveredRange.diagnostic)] ∧
        Recorder.lastStatus c.sinks = some ⟨false, some r.percent, true⟩) ∧
    ((∀ status, Recorder.lastStatus c.sinks = some status → status.computing = true) →
      Recorder.published c.sinks = []) ∧
    ∀ status, some status ∈ Recorder.statuses c.sinks → status.percent = none →
      status.computing = true := by
  intro s c hused hdropped
  obtain ⟨hstatus, hpublished⟩ :=
    current_playAll settings m showUncovered moves hdropped hused
  -- the diagnostics do not ask whether the backend is available; the invariant does it for them
  have hconnected := (consistent_playAll settings m showUncovered moves).connected
  have hshown : ∀ entry ∈ Recorder.published c.sinks,
      ∃ d r, c.state.active = some d ∧ c.state.coverage = some r ∧ r.uncovered ≠ [] ∧
        Recorder.published c.sinks =
          [(d.uri.text, r.uncovered.map UncoveredRange.diagnostic)] ∧
        Recorder.lastStatus c.sinks = some ⟨false, some r.percent, true⟩ := by
    intro entry hentry
    rw [hpublished, Option.mem_toList, Option.map_eq_some_iff] at hentry
    obtain ⟨⟨uri, ds⟩, hdiagnostics, _⟩ := hentry
    obtain ⟨d, r, hactive, hcoverage, huncovered, rfl, rfl, hsame⟩ :=
      State.status_of_diagnostics hconnected hdiagnostics
    refine ⟨d, r, hactive, hcoverage, huncovered, ?_, hstatus.trans hsame⟩
    rw [hpublished, hdiagnostics]
    rfl
  refine ⟨hshown, ?_, ?_⟩
  · intro hcomputing
    refine List.eq_nil_iff_forall_not_mem.mpr fun entry hentry => ?_
    obtain ⟨_, _, _, _, _, _, hlast⟩ := hshown entry hentry
    cases hcomputing _ hlast
  · obtain ⟨states, hstates⟩ := sinks_playAll_of_used settings m showUncovered moves hused
    intro status hmem hpercent
    rw [hstates, Recorder.statuses_rendered] at hmem
    obtain ⟨state, _, hstate⟩ := List.mem_map.mp hmem
    exact state.computing_of_status hstate hpercent

/-- The uncovered range of a result is shown with its percentage, until a save starts the next
computation. -/
theorem views_never_contradict_of_save :
    let d : Document := ⟨⟨"file:///a.js", rfl⟩, "javascript", none⟩
    let settings : Settings := ⟨fun _ => true, .clear⟩
    let r : Coverage := ⟨.hundred, [⟨.ofLines 1 2, none⟩], Binary64.isPercent_hundred⟩
    let moves : List (Move Outcome) := [.connection true, .activate (some d),
      .resolve "file:///a.js" (.ok (some r)), .settle]
    let shown := (create true).playAll settings .direct moves
    let saved := (create true).playAll settings .direct (moves ++ [.save d])
    Recorder.published shown.controller.sinks =
        [("file:///a.js", r.uncovered.map UncoveredRange.diagnostic)] ∧
      Recorder.lastStatus shown.controller.sinks = some ⟨false, some r.percent, true⟩ ∧
      Recorder.published saved.controller.sinks = [] := by
  intro d settings r moves shown saved
  have hshown := views_never_contradict settings .direct true moves (by decide +kernel)
    (by decide +kernel)
  have hsaved := views_never_contradict settings .direct true (moves ++ [.save d])
    (by decide +kernel) (by decide +kernel)
  have hentry : ("file:///a.js", r.uncovered.map UncoveredRange.diagnostic) ∈
      Recorder.published shown.controller.sinks := by decide +kernel
  have hactive : shown.controller.state.active = some d := by decide +kernel
  have hcoverage : shown.controller.state.coverage = some r := by decide +kernel
  have hstatus : Recorder.lastStatus saved.controller.sinks =
      some ⟨true, some r.percent, true⟩ := by decide +kernel
  rw [show (create true).playAll settings .direct moves = shown from rfl] at hshown
  rw [show (create true).playAll settings .direct (moves ++ [.save d]) = saved from rfl] at hsaved
  clear_value shown saved
  obtain ⟨d', r', hd, hr, _, hpublished, hlast⟩ := hshown.1 _ hentry
  rw [hactive, Option.some.injEq] at hd
  rw [hcoverage, Option.some.injEq] at hr
  subst hd hr
  refine ⟨hpublished, hlast, hsaved.2.1 ?_⟩
  intro status hsame
  rw [hstatus, Option.some.injEq] at hsame
  rw [← hsame]

end Session

end CoverageTracker
