import CoverageTracker.Recorder
import CoverageTracker.Proofs.Session.Moves
import Mathlib.Data.List.Basic
set_option autoImplicit false

/-!
# The views show the state

Every transition renders the state that it ends in, once, and nothing else does
(`sinks_play`).  So views that store what they are told show the state at any time
(`current_play`): a rendering replaces all that was shown before it.
-/

namespace CoverageTracker

variable {ρ : Type} {m : Meaning ρ} {settings : Settings}

/-! ## Rendering -/

/-- A rendering is a status, a clearing, and at most one set of diagnostics. -/
theorem State.render_eq (s : State) :
    s.render = .status s.status :: .clear ::
      (s.diagnostics.map fun d => SinkCall.publish d.1 d.2).toList := by
  unfold State.render
  cases s.diagnostics <;> rfl

namespace Recorder

theorem statuses_append (before after : List SinkCall) :
    statuses (before ++ after) = statuses before ++ statuses after :=
  List.filterMap_append

/-- After a rendering the status view shows the status of the rendered state. -/
theorem lastStatus_append_render (calls : List SinkCall) (s : State) :
    lastStatus (calls ++ s.render) = s.status := by
  have hstatuses : statuses s.render = [s.status] := by
    rw [s.render_eq]
    cases s.diagnostics <;> rfl
  rw [lastStatus, statuses_append, hstatuses, List.getLast?_concat]
  rfl

/-- After a rendering the store holds the diagnostics of the rendered state and no others. -/
theorem published_append_render (calls : List SinkCall) (s : State) :
    published (calls ++ s.render) = (s.diagnostics.map fun d => (d.1.text, d.2)).toList := by
  rw [published, List.foldl_append, s.render_eq]
  cases s.diagnostics <;> rfl

end Recorder

namespace Controller

variable {a b c c' : Controller ρ}

/-! ## What the views are told -/

theorem Renders.sinks (h : c.Renders c') : c'.sinks =
    c.sinks ++ (if c.disposed then [] else [c'.state]).flatMap State.render := by
  cases h with
  | disposed hdisposed => simp [hdisposed]
  | once changed hdisposed _ hsinks _ => simp [hdisposed, render, hsinks]

/-- The state that a completion that is handed over leaves, if it is applied. -/
def appliedState (h : Completion × Controller ρ) : Option State :=
  if (h.2.computed h.1).1 then some (h.2.computed h.1).2.state else none

theorem sinks_computed (x : Completion) (c : Controller ρ) :
    (c.computed x).2.sinks = c.sinks ++ (appliedState (x, c)).toList.flatMap State.render := by
  rcases c.fresh_or_stale x with ⟨hdisposed, hfresh⟩ | hstale
  · simp [appliedState, c.computed_of_fresh hdisposed hfresh, render, accept]
  · simp [appliedState, c.computed_of_stale hstale]

/-! ## What the views show -/

/-- Until a controller is disposed of, the views, given what they were told, show its state. -/
def Current (c : Controller ρ) : Prop :=
  c.disposed = false →
    Recorder.lastStatus c.sinks = c.state.status ∧
    Recorder.published c.sinks = (c.state.diagnostics.map fun d => (d.1.text, d.2)).toList

theorem current_create (showUncovered : Bool) : (create showUncovered : Controller ρ).Current := by
  intro _
  cases showUncovered <;> exact ⟨rfl, rfl⟩

theorem current_render (c : Controller ρ) : c.render.Current := fun _ =>
  ⟨Recorder.lastStatus_append_render c.sinks c.state,
    Recorder.published_append_render c.sinks c.state⟩

theorem Current.congr (h : c.Current) (hdisposed : c'.disposed = c.disposed)
    (hstate : c'.state = c.state) (hsinks : c'.sinks = c.sinks) : c'.Current := by
  unfold Current at h ⊢
  rw [hdisposed, hstate, hsinks]
  exact h

theorem Current.renders (h : c.Current) (hrenders : c.Renders c') : c'.Current := by
  cases hrenders with
  | disposed _ => exact h
  | once changed _ _ _ _ => exact current_render changed

theorem Current.computed (h : c.Current) (x : Completion) : (c.computed x).2.Current := by
  rcases c.fresh_or_stale x with ⟨hdisposed, hfresh⟩ | hstale
  · rw [c.computed_of_fresh hdisposed hfresh]
    exact current_render _
  · rw [c.computed_of_stale hstale]
    exact h

/-- Two controllers are in the same state, have issued as many requests, and their views show the
same. -/
structure Agrees (a b : Controller ρ) : Prop where
  state : a.state = b.state
  issued : a.issued = b.issued
  status : Recorder.lastStatus a.sinks = Recorder.lastStatus b.sinks
  published : Recorder.published a.sinks = Recorder.published b.sinks

theorem Agrees.refl (c : Controller ρ) : c.Agrees c := ⟨rfl, rfl, rfl, rfl⟩

/-- Views that show the state show the same in the same state. -/
theorem Agrees.of_current (ha : a.Current) (hb : b.Current) (haused : a.disposed = false)
    (hbused : b.disposed = false) (hstate : a.state = b.state) (hissued : a.issued = b.issued) :
    a.Agrees b where
  state := hstate
  issued := hissued
  status := by rw [(ha haused).1, (hb hbused).1, hstate]
  published := by rw [(ha haused).2, (hb hbused).2, hstate]

end Controller

namespace Session

variable {s s' : Session ρ} {move : Move ρ} {answer : Answer}

/-! ## Moves -/

/-- The states that a move renders, in order: a transition of a controller that is not disposed
renders the state that it ends in, and each applied completion the state that it leaves. -/
def rendered (m : Meaning ρ) (move : Move ρ) (s s' : Session ρ) : List State :=
  match move.kind with
  | .transition => if s.controller.disposed then [] else [s'.controller.state]
  | .handover => (s.handovers m move).filterMap Controller.appliedState
  | _ => []

/-- What the store of diagnostics is told when a move disposes of the controller. -/
def released (settings : Settings) (move : Move ρ) (s : Session ρ) : List SinkCall :=
  match move with
  | .dispose => if s.controller.disposed then [] else [settings.release]
  | _ => []

theorem released_of_not_ending (hkind : move.kind ≠ .ending) : released settings move s = [] := by
  cases move with
  | dispose => exact absurd rfl hkind
  | _ => rfl

/-- What a move tells the views. -/
theorem sinks_play (h : s.play settings m move = some (answer, s')) :
    s'.controller.sinks = s.controller.sinks ++
      (rendered m move s s').flatMap State.render ++ released settings move s := by
  cases hkind : move.kind with
  | quiet =>
    rw [released_of_not_ending (by simp [hkind]), (alike_of_quiet hkind h).sinks]
    simp [rendered, hkind]
  | transition =>
    rw [released_of_not_ending (by simp [hkind]), (renders_of_transition hkind h).2.2.sinks]
    simp [rendered, hkind]
  | handover =>
    have hsinks : s'.controller.sinks = s.controller.sinks ++
        (s.handovers m move).flatMap fun h =>
          (Controller.appliedState h).toList.flatMap State.render :=
      log_of_handover (fun _ _ => rfl) Controller.sinks_computed hkind h
    rw [released_of_not_ending (by simp [hkind]), hsinks]
    simp [rendered, hkind, List.filterMap_eq_flatMap_toList, List.flatMap_assoc]
  | ending =>
    simp only [rendered, hkind, List.flatMap_nil, List.append_nil]
    unfold play at h
    cases move with
    | dispose =>
      obtain ⟨_, _, rfl⟩ := operate_eq_some h
      simp only [released, Controller.dispose, Controller.cancelPending_eq]
      split
      · simp
      · rfl
    | drop =>
      simp only at h
      split at h
      · cases h
        simp [released]
      · cases h
        simp [released, Controller.drop, Controller.cancelPending_eq]
    | _ => cases hkind

/-- A disposed controller tells the views nothing. -/
theorem sinks_play_of_disposed (h : s.play settings m move = some (answer, s'))
    (hdisposed : s.controller.disposed = true) : s'.controller.sinks = s.controller.sinks := by
  cases hkind : move.kind with
  | quiet => exact (alike_of_quiet hkind h).sinks
  | transition =>
    have hsinks := (renders_of_transition hkind h).2.2.sinks
    simpa [hdisposed] using hsinks
  | handover =>
    have hcomputed : ∀ (x : Completion) (c : Controller ρ),
        (c.disposed = true ∧ c.sinks = s.controller.sinks) →
          (c.computed x).2.disposed = true ∧ (c.computed x).2.sinks = s.controller.sinks := by
      intro x c hc
      rw [c.computed_of_stale (Or.inl hc.1)]
      exact hc
    exact (handover_induction (fun _ _ hc => hc) hcomputed hkind h fun _ => ⟨hdisposed, rfl⟩).2
  | ending =>
    have hsinks := sinks_play h
    have hreleased : released settings move s = [] := by
      cases move <;> simp [released, hdisposed]
    simpa [rendered, hkind, hreleased] using hsinks

/-- Until the controller is disposed of, the views are only told renderings of states. -/
theorem sinks_playAll_of_used (settings : Settings) (m : Meaning ρ) (showUncovered : Bool)
    (moves : List (Move ρ)) :
    let c := ((create showUncovered).playAll settings m moves).controller
    c.disposed = false → ∃ states : List State, c.sinks = states.flatMap State.render := by
  refine playAll_induction (P := fun s : Session ρ => s.controller.disposed = false →
    ∃ states : List State, s.controller.sinks = states.flatMap State.render) moves ?_
    fun _ => ⟨[], rfl⟩
  intro s s' move answer _ hplay hs hused
  have hbefore : s.controller.disposed = false := by
    cases hdisposed : s.controller.disposed with
    | false => rfl
    | true =>
      rw [disposed_play hdisposed hplay] at hused
      cases hused
  have hreleased : released settings move s = [] := by
    cases move with
    | dispose =>
      unfold play at hplay
      obtain ⟨_, _, rfl⟩ := operate_eq_some hplay
      simp [Controller.dispose, hbefore, Controller.cancelPending_eq] at hused
    | _ => rfl
  obtain ⟨states, hstates⟩ := hs hbefore
  refine ⟨states ++ rendered m move s s', ?_⟩
  rw [sinks_play hplay, hreleased, hstates, List.append_nil, List.flatMap_append]

theorem current_play (hs : s.dropped = false → s.controller.Current)
    (h : s.play settings m move = some (answer, s')) :
    s'.dropped = false → s'.controller.Current := by
  cases hkind : move.kind with
  | quiet =>
    have halike := alike_of_quiet hkind h
    intro hdropped
    rw [halike.dropped] at hdropped
    exact (hs hdropped).congr halike.disposed halike.state halike.sinks
  | transition =>
    obtain ⟨hdropped, _, hrenders⟩ := renders_of_transition hkind h
    exact fun _ => (hs hdropped).renders hrenders
  | handover =>
    have hpool : ∀ (c : Controller ρ) (pool : Pool ρ), c.Current →
        ({ c with pool } : Controller ρ).Current := fun _ _ hc => hc.congr rfl rfl rfl
    exact fun _ => handover_induction hpool (fun x _ hc => hc.computed x) hkind h hs
  | ending =>
    unfold play at h
    cases move with
    | dispose =>
      obtain ⟨hdropped, _, rfl⟩ := operate_eq_some h
      intro _
      simp only [Controller.dispose, Controller.cancelPending_eq]
      split
      · exact hs hdropped
      · intro hused
        cases hused
    | drop =>
      simp only at h
      split at h
      · cases h
        exact hs
      · cases h
        intro hdropped
        cases hdropped
    | _ => cases hkind

/-- Until a controller is disposed of or given up, its views show its state. -/
theorem current_playAll (settings : Settings) (m : Meaning ρ) (showUncovered : Bool)
    (moves : List (Move ρ)) :
    let s := (create showUncovered).playAll settings m moves
    s.dropped = false → s.controller.Current :=
  playAll_induction (P := fun s => s.dropped = false → s.controller.Current) moves
    (fun _ _ _ _ _ hplay hs => current_play hs hplay)
    fun _ => Controller.current_create showUncovered

/-- The views show the state, once for each transition.  A move tells them the status, the clearing
and the diagnostics of each state that it renders, in this order, and nothing else: a transition
renders the state that it ends in, an applied completion the state that it leaves, and no other
move renders.  So as long as the controller is in use, what the views hold is the status and the
diagnostics of its state. -/
theorem views_show_state (settings : Settings) (m : Meaning ρ) (showUncovered : Bool)
    (moves : List (Move ρ)) :
    let s := (create showUncovered).playAll settings m moves
    (∀ move answer s', s.play settings m move = some (answer, s') →
      (s'.controller.sinks = s.controller.sinks ++
        ((rendered m move s s').flatMap fun state =>
          .status state.status :: .clear ::
            (state.diagnostics.map fun d => SinkCall.publish d.1 d.2).toList) ++
        released settings move s) ∧
      (s.controller.disposed = true → s'.controller.sinks = s.controller.sinks)) ∧
    (s.controller.disposed = false → s.dropped = false →
      Recorder.lastStatus s.controller.sinks = s.controller.state.status ∧
      Recorder.published s.controller.sinks =
        (s.controller.state.diagnostics.map fun d => (d.1.text, d.2)).toList) := by
  intro s
  refine ⟨?_, ?_⟩
  · intro move answer s' hplay
    refine ⟨?_, sinks_play_of_disposed hplay⟩
    have hsinks := sinks_play hplay
    have hrender : (State.render : State → List SinkCall) = fun state =>
        .status state.status :: .clear ::
          (state.diagnostics.map fun d => SinkCall.publish d.1 d.2).toList :=
      funext State.render_eq
    rw [hrender] at hsinks
    exact hsinks
  · intro hdisposed hdropped
    exact current_playAll settings m showUncovered moves hdropped hdisposed

end Session

end CoverageTracker
