import CoverageTracker.Proofs.Service.Focus
import CoverageTracker.Proofs.Session.Provenance
set_option autoImplicit false

/-!
# Reconnects

A disconnect that a service has read parts a run: nothing that was issued before it is known or
pending at any later moment, and when the service reads that the backend is available again, it
starts afresh with the document in focus (`connection_reconnect`).

What counts is what the service reads.  The connectivity is a watched value, of which only the last
one is read, and a controller tells a reconnect by comparing that value with the one it read before.
So a disconnect is not noticed if the backend is available again by the time of the next look:
reading the value then changes nothing (`connection_still`), and what was computed before stays.
-/

namespace CoverageTracker

variable {ρ : Type} {settings : Settings} {m : Meaning ρ}

namespace Controller

variable {c : Controller ρ}

/-- A reconnect forgets everything and computes the document in focus anew. -/
theorem connection_reconnect (focus : Option Document) (hdisposed : c.disposed = false)
    (hconsistent : c.Consistent) (hdisconnected : c.state.connected = false) :
    let state := (c.connection settings true focus).state
    state.coverage = none ∧ state.active = focus.filter settings.eligible ∧
      state.pending.map Request.document = focus.filter settings.eligible ∧
      ∀ r, state.pending = some r → r.id.number = c.issued + 1 := by
  have huntracked := hconsistent.active_of_disconnected hdisconnected
  obtain ⟨hcoverage, hpending⟩ := hconsistent.idle_of_untracked huntracked
  unfold connection
  rw [if_neg (by simp [hdisposed])]
  simp only [hdisconnected, render]
  cases focus with
  | none => simp [hcoverage, huntracked, hpending]
  | some d =>
    cases heligible : settings.eligible d with
    | true => simp [activate, heligible, track_eq, huntracked, Option.filter]
    | false => simp [activate, heligible, untrack_eq, Option.filter]

end Controller

namespace Service

open Holding

variable {v : Service ρ}

theorem play_read (hrunning : v.isRunning = true) (hseen : v.seen ≠ v.connection.version) :
    v.play settings m (.take .connection) = v.readConnection settings := by
  simp [play, take, hrunning, hseen]

section Runs

variable (settings : Settings) (m : Meaning ρ) (link : Link) (connected : Bool)
  (focus : Option Document) (showUncovered : Bool)

theorem traced_run (run : List (Occurrence ρ)) :
    Traced m ((create settings link connected focus (Controller.create showUncovered)).playAll
      settings m run).holding :=
  ((steps_run settings m link connected focus (Controller.create showUncovered)
    run).keeps_of_consistent
    (fun _ _ hsound hconsistent hstep h => h.step hsound hconsistent hstep)
    (sound_create showUncovered) (.create showUncovered) (traced_create showUncovered)).2.2

/-- Two moments of one run. -/
theorem since_run (before after : List (Occurrence ρ)) :
    let start := create settings link connected focus (Controller.create showUncovered)
    (start.playAll settings m before).controller.Since
      (start.playAll settings m (before ++ after)).controller := by
  intro start
  obtain ⟨hsound, hconsistent⟩ :=
    sound_run settings m link connected focus showUncovered before
  rw [playAll_append]
  exact ((steps_playAll after (start.playAll settings m before)).keeps_of_consistent
    (P := fun a => (start.playAll settings m before).controller.Since a.controller)
    (fun _ _ hsound hconsistent hstep h => since_step h hsound hconsistent hstep)
    hsound hconsistent (.refl hconsistent)).2.2

end Runs

/-- Nothing that was computed before a disconnect survives it, once the service has read the
disconnect: whatever is pending or known at a later moment was issued since.  A service that has
seen the last notification has read the value of the connectivity.  When it then reads that the
backend is available again, it drops what it knew and requests the document in focus, if that is
eligible; but when it reads that the backend is available and read so before, it changes nothing,
whatever was published in between. -/
theorem renewed_since_disconnect (settings : Settings) (m : Meaning ρ) (link : Link)
    (connected : Bool) (focus : Option Document) (showUncovered : Bool)
    (before after : List (Occurrence ρ)) :
    let start := create settings link connected focus (Controller.create showUncovered)
    let k := start.playAll settings m before
    let v := start.playAll settings m (before ++ after)
    let read := k.play settings m (.take .connection)
    (k.seen = k.connection.version → k.controller.state.connected = k.connection.value) ∧
    (k.controller.state.connected = false →
      (∀ r, v.controller.state.pending = some r → k.controller.issued < r.id.number) ∧
      ∀ r, v.controller.state.coverage = some r →
        ∃ x, v.controller.applied.getLast? = some x ∧ x.result = some r ∧
          k.controller.issued < x.request.id.number) ∧
    (k.ended = none → k.seen ≠ k.connection.version → k.connection.value = true →
      (k.controller.state.connected = false →
        read.controller.state.coverage = none ∧
        read.controller.state.active = k.focus.filter settings.eligible ∧
        read.controller.state.pending.map Request.document =
          k.focus.filter settings.eligible ∧
        ∀ r, read.controller.state.pending = some r →
          r.id.number = k.controller.issued + 1) ∧
      (k.controller.state.connected = true →
        read.controller.state = k.controller.state ∧
        read.controller.issued = k.controller.issued)) := by
  intro start k v read
  have hsince : k.controller.Since v.controller :=
    since_run settings m link connected focus showUncovered before after
  have htraced : Traced m v.holding :=
    traced_run settings m link connected focus showUncovered (before ++ after)
  have hconsistent : k.controller.Consistent :=
    (sound_run settings m link connected focus showUncovered before).2
  refine ⟨(informed_run settings m link connected focus showUncovered before).current, ?_, ?_⟩
  · intro hdisconnected
    have huntracked : ∀ uri, ¬ k.controller.Tracks uri := by
      intro uri htracks
      cases hdisconnected.symm.trans htracks.1
    refine ⟨fun r hr => hsince.pending r hr (huntracked _), fun r hr => ?_⟩
    obtain ⟨d, x, hd, hlast, hresult, _⟩ := htraced.shown r hr
    exact ⟨x, hlast, hresult, hsince.shown d r x hd hr hlast (huntracked _)⟩
  · intro hended hseen hvalue
    have hrunning : k.isRunning = true := Option.isNone_iff_eq_none.mpr hended
    have hdisposed : k.controller.disposed = false :=
      (disposed_run settings m link connected focus showUncovered before).trans (by
        rw [hrunning]
        rfl)
    have hread : read.controller = k.controller.connection settings true k.focus := by
      simp only [read, play_read hrunning hseen, readConnection, hvalue]
    rw [hread]
    refine ⟨Controller.connection_reconnect k.focus hdisposed hconsistent, ?_⟩
    intro hconnected
    rw [Controller.connection_still k.focus hdisposed hconnected]
    exact ⟨rfl, rfl⟩

/-- The backend goes and comes back between two looks.  Both changes are published, the service
reads the last one, and the coverage that was computed before them stays; nothing is requested. -/
theorem kept_after_unread_disconnect :
    let a : Document := ⟨⟨"file:///a.js", rfl⟩, "javascript", none⟩
    let r : Coverage := ⟨.zero, [], Binary64.isPercent_zero⟩
    let before : List (Occurrence Outcome) :=
      [.progress 0, .resolve "file:///a.js" (.ok (some r)), .progress 0, .take .completion]
    let after : List (Occurrence Outcome) := [.publish false, .publish true, .take .connection]
    let settings : Settings := ⟨fun _ => true, .clear⟩
    let start := create settings .status true (some a) (Controller.create true)
    let k := start.playAll settings Meaning.direct before
    let v := start.playAll settings Meaning.direct (before ++ after)
    (start.ledger settings Meaning.direct (before ++ after)).published = [false, true] ∧
    v.ended = none ∧ v.seen = v.connection.version ∧ v.controller.state.connected = true ∧
    v.controller.state.coverage = some r ∧ v.controller.state.pending = none ∧
    k.controller.issued = 1 ∧ v.controller.issued = 1 := by
  decide +kernel

end Service

end CoverageTracker
