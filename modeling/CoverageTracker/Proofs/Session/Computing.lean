import CoverageTracker.Proofs.Session.Consistent
import CoverageTracker.Proofs.Session.Disposal
import CoverageTracker.Proofs.Session.Tracking
set_option autoImplicit false

/-!
# The status of a computation under way

In the state of a controller a status of a computation under way and a pending request go together
(`Controller.Consistent.computing_status`), and as long as the controller is in use the status view
shows the status of the state.  Disposing of the controller ends the pending request without a
rendering.  So whatever the status view shows at that moment it shows for good, a computation that
was cancelled by it too.
-/

namespace CoverageTracker

variable {ρ : Type}

namespace Recorder

/-- Whether the status that shows is one of a computation under way. -/
def showsComputing (calls : List SinkCall) : Bool := (lastStatus calls).any Status.computing

/-- What is no status leaves the status as it is. -/
theorem lastStatus_append_of_no_status {calls later : List SinkCall} (h : statuses later = []) :
    lastStatus (calls ++ later) = lastStatus calls := by
  rw [lastStatus, statuses_append, h, List.append_nil]
  rfl

end Recorder

/-- Whatever is pending is of the tracked document, and the backend is available for it, so nothing
keeps the status from showing it. -/
theorem Controller.Consistent.computing_status {c : Controller ρ} (h : c.Consistent) :
    c.state.status.any Status.computing = c.state.pending.isSome := by
  unfold State.status
  cases hactive : c.state.active with
  | none =>
    rw [(h.idle_of_untracked hactive).2]
    rfl
  | some d =>
    rw [h.connected d hactive]
    cases c.state.coverage with
    | none => cases c.state.pending <;> rfl
    | some r => rfl

namespace Session

/-- As long as the controller is in use, the status is one of a computation under way exactly while
a request is pending, and the pending request is not cancelled unless others cancel it.  Once the
controller is disposed of no request is pending any more, whatever happens, and the status stays as
it was before; so it goes on showing a computation exactly if one was pending at the disposal. -/
theorem computing_until_disposal (settings : Settings) (m : Meaning ρ) (showUncovered : Bool)
    (before after : List (Move ρ)) :
    let s := (create showUncovered).playAll settings m before
    let t := s.playAll settings m [.dispose]
    let u := t.playAll settings m after
    s.controller.disposed = false → s.dropped = false →
    Recorder.showsComputing s.controller.sinks = s.controller.state.pending.isSome ∧
    ((∀ reply, m.cancels reply = none) → (∀ move ∈ before, move ≠ .cancelPending) →
      ∀ r, s.controller.state.pending = some r →
        s.controller.pool.isCancelled r.ticket = false) ∧
    u.controller.state.pending = none ∧
    (Recorder.statuses [settings.release] = [] →
      Recorder.lastStatus u.controller.sinks = Recorder.lastStatus s.controller.sinks ∧
      Recorder.showsComputing u.controller.sinks = s.controller.state.pending.isSome) := by
  intro s t u hused hdropped
  have hstatus : Recorder.lastStatus s.controller.sinks = s.controller.state.status :=
    (current_playAll settings m showUncovered before hdropped hused).1
  have hshows : Recorder.showsComputing s.controller.sinks =
      s.controller.state.pending.isSome := by
    rw [Recorder.showsComputing, hstatus]
    exact (consistent_playAll settings m showUncovered before).computing_status
  have ht : t = _ := dispose_eq hused hdropped
  have hinert : u.controller = { t.controller with pool := u.controller.pool } :=
    inert_playAll (by rw [ht]) (by rw [ht]) after
  refine ⟨hshows, ?_, ?_, ?_⟩
  · intro hcancels hmoves r hr
    exact unspoiled_playAll settings hcancels showUncovered hmoves r hr
  · rw [hinert, ht]
  · intro hrelease
    have hlast : Recorder.lastStatus u.controller.sinks =
        Recorder.lastStatus s.controller.sinks := by
      rw [hinert, ht]
      exact Recorder.lastStatus_append_of_no_status hrelease
    refine ⟨hlast, ?_⟩
    rw [Recorder.showsComputing, hlast]
    exact hshows

/-- A result is there when a save starts the next computation, and the disposal comes upon it: the
status goes on showing the percentage, and that it is being computed anew, also when the computation
returns and the document is activated once more. -/
theorem computing_until_disposal_of_save :
    let d : Document := ⟨⟨"file:///a.js", rfl⟩, "javascript", none⟩
    let r : Coverage := ⟨.hundred, [], Binary64.isPercent_hundred⟩
    let settings : Settings := ⟨fun _ => true, .dispose⟩
    let before : List (Move Outcome) := [.connection true, .activate (some d),
      .resolve "file:///a.js" (.ok (some r)), .settle, .save d]
    let after : List (Move Outcome) := [.resolve "file:///a.js" (.ok none), .settle,
      .activate (some d)]
    let s := (create true).playAll settings Meaning.direct before
    let u := (s.playAll settings .direct [.dispose]).playAll settings .direct after
    s.controller.state.pending = some ⟨1, ⟨2⟩, d⟩ ∧ s.controller.pool.isCancelled 1 = false ∧
      u.controller.state.pending = none ∧
      Recorder.lastStatus u.controller.sinks = some ⟨true, some Binary64.hundred, true⟩ ∧
      Recorder.showsComputing u.controller.sinks = true := by
  intro d r settings before after
  obtain ⟨_, hlive, hpending, hstatus⟩ :=
    computing_until_disposal settings Meaning.direct true before after (by decide +kernel)
      (by decide +kernel)
  obtain ⟨hlast, hshows⟩ := hstatus rfl
  have hsaved : ((create true).playAll settings Meaning.direct before).controller.state.pending =
      some ⟨1, ⟨2⟩, d⟩ := by decide +kernel
  refine ⟨hsaved, ?_, hpending, ?_, ?_⟩
  · exact hlive (fun _ => rfl) (by simp [before]) ⟨1, ⟨2⟩, d⟩ hsaved
  · exact hlast.trans (by decide +kernel)
  · exact hshows.trans (congrArg Option.isSome hsaved)

/-- The status claims a computation that is not running any more: the only one was cancelled when
the controller was disposed of. -/
theorem computing_after_disposal :
    let d : Document := ⟨⟨"file:///a.js", rfl⟩, "javascript", none⟩
    let c := ((create true).playAll ⟨fun _ => true, .dispose⟩ Meaning.direct
      [.connection true, .activate (some d), .dispose]).controller
    Recorder.lastStatus c.sinks = some ⟨true, none, true⟩ ∧ c.state.pending = none ∧
      c.issued = 1 ∧ c.pool.isCancelled 0 = true := by
  decide +kernel

end Session

end CoverageTracker
