import CoverageTracker.Proofs.Session.Views
import Mathlib.Data.Nat.Bits
set_option autoImplicit false

/-!
# The display preference

Whether uncovered ranges are shown is a matter of the views alone.  What is left of a controller
without the preference, and without the mark that the status bears for it, is its core
(`Controller.core`).  The core after a move, and what the move answers, depend on the core before it
only (`play_core`); a toggle leaves the core as it is (`core_toggle`), for the views are current.
So toggles can be put into a session and taken out of it anywhere, and no core along it changes
(`core_playAll`).
-/

namespace CoverageTracker

variable {ρ : Type} {m : Meaning ρ} {settings : Settings}

/-- Whether a move switches the display of uncovered ranges. -/
def Move.isToggle : Move ρ → Bool
  | .toggle => true
  | _ => false

theorem Move.eq_toggle {move : Move ρ} (h : move.isToggle = true) : move = .toggle := by
  cases move <;> first | rfl | cases h

/-! ## Statuses without the preference -/

/-- A status without its mark for the preference. -/
def Status.unmarked (s : Status) : Status := { s with showing := false }

theorem Status.map_unmarked_map_unmarked (s : Option Status) :
    (s.map Status.unmarked).map Status.unmarked = s.map Status.unmarked := by
  cases s <;> rfl

/-- The preference marks the status and has no other influence on it. -/
theorem State.status_hidden (s : State) :
    ({ s with showUncovered := false } : State).status = s.status.map Status.unmarked := by
  unfold State.status
  split
  · rfl
  · cases s.coverage <;> cases s.pending <;> rfl

theorem State.status_toggled (s : State) :
    ({ s with showUncovered := !s.showUncovered } : State).status.map Status.unmarked =
      s.status.map Status.unmarked := by
  rw [← State.status_hidden, ← State.status_hidden]

theorem Recorder.lastStatus_concat (calls : List SinkCall) (call : SinkCall) :
    lastStatus (calls ++ [call]) =
      match call with
      | .status s => s
      | _ => lastStatus calls := by
  cases call <;> simp [lastStatus, statuses]

namespace Controller

variable {a b c : Controller ρ}

/-! ## Cores -/

/-- What must not depend on the preference: the controller without it, and of all that the views
were told the status that shows, unmarked. -/
def core (c : Controller ρ) : Controller ρ :=
  { c with
    state := { c.state with showUncovered := false }
    sinks := [.status ((Recorder.lastStatus c.sinks).map Status.unmarked)] }

theorem core_core (c : Controller ρ) : c.core.core = c.core := by
  have hstatus : (Recorder.lastStatus c.core.sinks).map Status.unmarked =
      (Recorder.lastStatus c.sinks).map Status.unmarked :=
    Status.map_unmarked_map_unmarked _
  rw [core, hstatus]
  rfl

theorem core_pool (pool : Pool ρ) (c : Controller ρ) :
    ({ c with pool } : Controller ρ).core = ({ c.core with pool } : Controller ρ).core :=
  congrArg (fun c : Controller ρ => { c with pool }) c.core_core.symm

theorem core_render (c : Controller ρ) : c.render.core = c.core.render.core := by
  simp only [core, render, Recorder.lastStatus_append_render, State.status_hidden,
    Status.map_unmarked_map_unmarked]

/-- The views may be told one thing more. -/
theorem core_tell (call : SinkCall) (c : Controller ρ) :
    ({ c with sinks := c.sinks ++ [call] } : Controller ρ).core =
      ({ c.core with sinks := c.core.sinks ++ [call] } : Controller ρ).core := by
  have hcore := c.core_core
  simp only [core, Recorder.lastStatus_concat] at hcore ⊢
  cases call with
  | status s => rfl
  | _ => exact hcore.symm

/-! ## Operations on cores -/

theorem core_untrack (c : Controller ρ) : c.untrack.core = c.core.untrack := by
  rw [untrack_eq, untrack_eq]
  rfl

theorem core_track (d : Document) (c : Controller ρ) : (c.track d).core = c.core.track d := by
  rw [track_eq, track_eq]
  rfl

theorem core_activate (d : Option Document) (c : Controller ρ) :
    (c.activate settings d).core = c.core.activate settings d := by
  have hconnected : c.core.state.connected = c.state.connected := rfl
  unfold activate
  rw [hconnected]
  cases d with
  | none => exact c.core_untrack
  | some d =>
    simp only
    split
    · exact c.core_track d
    · exact c.core_untrack

theorem core_activated (d : Option Document) (c : Controller ρ) :
    (c.activated settings d).core = (c.core.activated settings d).core := by
  have hdisposed : c.core.disposed = c.disposed := rfl
  unfold activated
  rw [hdisposed]
  split
  · exact c.core_core.symm
  · rw [core_render, core_activate]

theorem core_connection (connected : Bool) (focus : Option Document) (c : Controller ρ) :
    (c.connection settings connected focus).core =
      (c.core.connection settings connected focus).core := by
  have hdisposed : c.core.disposed = c.disposed := rfl
  have hconnected : c.core.state.connected = c.state.connected := rfl
  unfold connection
  rw [hdisposed, hconnected]
  split
  · exact c.core_core.symm
  · simp only
    split
    · rw [core_render, core_activate]
      rfl
    · split
      · rw [core_render, core_activate]
        rfl
      · rw [core_render]
        rfl

/-- A toggle of a controller whose views are current leaves the core as it is. -/
theorem core_toggle (h : c.Current) : c.toggle.core = c.core := by
  unfold toggle
  split
  · rfl
  · rename_i hdisposed
    have hstatus := (h (by simpa using hdisposed)).1
    simp only [core, render, Recorder.lastStatus_append_render, State.status_toggled, hstatus]

theorem core_computed (x : Completion) (c : Controller ρ) :
    (c.computed x).1 = (c.core.computed x).1 ∧
      (c.computed x).2.core = (c.core.computed x).2.core := by
  rcases c.fresh_or_stale x with ⟨hdisposed, hfresh⟩ | hstale
  · rw [c.computed_of_fresh hdisposed hfresh, c.core.computed_of_fresh hdisposed hfresh]
    exact ⟨rfl, core_render (c.accept x)⟩
  · rw [c.computed_of_stale hstale, c.core.computed_of_stale hstale]
    exact ⟨rfl, c.core_core.symm⟩

theorem core_poll (h : a.core = b.core) : a.poll.1 = b.poll.1 ∧ a.poll.2.core = b.poll.2.core := by
  generalize hqueue : b.pool.completions = queue
  have hsame : a.pool.completions = queue := by
    rw [← hqueue]
    exact congrArg (fun c => c.pool.completions) h
  induction queue generalizing a b with
  | nil =>
    rw [a.poll_of_nil hsame, b.poll_of_nil hqueue]
    exact ⟨rfl, h⟩
  | cons x rest ih =>
    have hrequeue : (a.requeue rest).core = (b.requeue rest).core := congrArg (requeue rest) h
    obtain ⟨hanswer, hcore⟩ := (a.requeue rest).core_computed x
    obtain ⟨hanswer', hcore'⟩ := (b.requeue rest).core_computed x
    rw [hrequeue] at hanswer hcore
    obtain ⟨hcount, hend⟩ := ih (hcore.trans hcore'.symm) (completions_computed x _)
      (completions_computed x _)
    rw [a.poll_of_cons hsame, b.poll_of_cons hqueue, hanswer, hanswer', hcount]
    exact ⟨rfl, hend⟩

theorem core_dispose (c : Controller ρ) :
    (c.dispose settings).core = (c.core.dispose settings).core := by
  have hdisposed : c.core.disposed = c.disposed := rfl
  unfold dispose
  rw [hdisposed]
  split
  · exact c.core_core.symm
  · simp only [cancelPending_eq]
    exact core_tell settings.release { c with
      state := { c.state with pending := none }
      disposed := true
      pool := c.pool.cancelOf c.state.pending }

theorem core_drop (c : Controller ρ) : c.drop.core = c.core.drop.core := by
  have hdrop : ∀ c : Controller ρ, c.drop.core = c.core.drop := by
    intro c
    simp only [drop, cancelPending_eq]
    rfl
  rw [hdrop, hdrop, core_core]

/-! ## Operations and the preference -/

theorem showUncovered_activate (settings : Settings) (d : Option Document) (c : Controller ρ) :
    (c.activate settings d).state.showUncovered = c.state.showUncovered := by
  unfold activate
  split
  · split
    · rw [track_eq]
    · rw [untrack_eq]
  · rw [untrack_eq]

theorem showUncovered_activated (d : Option Document) (c : Controller ρ) :
    (c.activated settings d).state.showUncovered = c.state.showUncovered := by
  unfold activated
  split
  · rfl
  · exact c.showUncovered_activate settings d

theorem showUncovered_connection (connected : Bool) (focus : Option Document) (c : Controller ρ) :
    (c.connection settings connected focus).state.showUncovered = c.state.showUncovered := by
  unfold connection
  split
  · rfl
  · simp only
    split
    · exact showUncovered_activate settings none _
    · split
      · exact showUncovered_activate settings focus _
      · rfl

theorem showUncovered_toggle (c : Controller ρ) :
    c.toggle.state.showUncovered = (c.state.showUncovered ^^ !c.disposed) := by
  unfold toggle
  cases c.disposed with
  | true => simp
  | false => simp [render]

theorem showUncovered_computed (x : Completion) (c : Controller ρ) :
    (c.computed x).2.state.showUncovered = c.state.showUncovered := by
  rcases c.fresh_or_stale x with ⟨hdisposed, hfresh⟩ | hstale
  · rw [c.computed_of_fresh hdisposed hfresh]
    rfl
  · rw [c.computed_of_stale hstale]

/-! ## Controllers that differ in the preference -/

/-- Two controllers that differ at most in the preference and in what the views were told of it. -/
structure Mirrors (a b : Controller ρ) : Prop where
  active : a.state.active = b.state.active
  coverage : a.state.coverage = b.state.coverage
  pending : a.state.pending = b.state.pending
  connected : a.state.connected = b.state.connected
  issued : a.issued = b.issued
  disposed : a.disposed = b.disposed
  /-- the computations and the queue, and in the log which calls the backend got, in order -/
  pool : a.pool = b.pool
  applied : a.applied = b.applied
  /-- the statuses that show agree on what is known and whether it is being computed -/
  status : (Recorder.lastStatus a.sinks).map (fun s => (s.computing, s.percent)) =
    (Recorder.lastStatus b.sinks).map fun s => (s.computing, s.percent)

theorem mirrors_of_core (h : a.core = b.core) : a.Mirrors b where
  active := congrArg (fun c => c.state.active) h
  coverage := congrArg (fun c => c.state.coverage) h
  pending := congrArg (fun c => c.state.pending) h
  connected := congrArg (fun c => c.state.connected) h
  issued := congrArg (fun c => c.issued) h
  disposed := congrArg (fun c => c.disposed) h
  pool := congrArg (fun c => c.pool) h
  applied := congrArg (fun c => c.applied) h
  status := by
    have hshown : (Recorder.lastStatus a.sinks).map Status.unmarked =
        (Recorder.lastStatus b.sinks).map Status.unmarked :=
      congrArg (fun c : Controller ρ => Recorder.lastStatus c.sinks) h
    have hfigures := congrArg (Option.map fun s => (s.computing, s.percent)) hshown
    rw [Option.map_map, Option.map_map] at hfigures
    exact hfigures

/-- Two toggles in a row leave everything as it was but the log, and the views show the same. -/
theorem toggle_toggle (h : c.Current) (hdisposed : c.disposed = false) :
    c.toggle.toggle = { c with sinks := c.toggle.toggle.sinks } ∧ c.toggle.toggle.Agrees c := by
  have hsame : c.toggle.toggle = { c with sinks := c.toggle.toggle.sinks } := by
    simp [toggle, render, hdisposed]
  have hcurrent : c.toggle.toggle.Current := (h.renders c.renders_toggle).renders (renders_toggle _)
  have hused : c.toggle.toggle.disposed = false := by
    rw [hsame]
    exact hdisposed
  refine ⟨hsame, .of_current hcurrent h hused hdisposed ?_ ?_⟩
  · exact congrArg (fun c => c.state) hsame
  · exact congrArg (fun c => c.issued) hsame

end Controller

namespace Session

variable {s t s' : Session ρ} {move : Move ρ} {answer : Answer}

/-! ## Moves on cores -/

/-- A session with the core of its controller. -/
def core (s : Session ρ) : Session ρ := { s with controller := s.controller.core }

theorem operate_core {f : Controller ρ → Answer × Controller ρ}
    (hf : ∀ c, (f c).1 = (f c.core).1 ∧ (f c).2.core = (f c.core).2.core) (s : Session ρ) :
    (s.operate f).map (Prod.map id core) = (s.core.operate f).map (Prod.map id core) := by
  have hdropped : s.core.dropped = s.dropped := rfl
  unfold operate
  rw [hdropped]
  split
  · rfl
  · obtain ⟨hanswer, hcore⟩ := hf s.controller
    simp only [Option.map_some, Prod.map, id, core, hanswer, hcore]

/-- The pool, the focus and the slots are replaced in a session as in its core. -/
theorem core_of_pool (pool : Pool ρ) (focus : Option Document) (held : Slots) (s : Session ρ) :
    core ⟨{ s.controller with pool }, s.dropped, focus, held⟩ =
      core ⟨{ s.core.controller with pool }, s.dropped, focus, held⟩ :=
  congrArg (fun c => Session.mk c s.dropped focus held) (s.controller.core_pool pool)

theorem receive_core (s : Session ρ) :
    Prod.map id core s.receive = Prod.map id core s.core.receive := by
  have hpool : s.core.controller.pool = s.controller.pool := rfl
  unfold receive Controller.next Pool.receive
  rw [hpool]
  cases s.controller.pool.completions with
  | nil => exact congrArg (Prod.mk _) (s.core_of_pool _ _ _)
  | cons x rest => exact congrArg (Prod.mk _) (s.core_of_pool _ _ _)

/-- The answer to a move other than a toggle, and the core after it, depend on the core before it
only. -/
theorem play_core (hmove : move.isToggle = false) (s : Session ρ) :
    (s.play settings m move).map (Prod.map id core) =
      (s.core.play settings m move).map (Prod.map id core) := by
  have hdropped : s.core.dropped = s.dropped := rfl
  have hheld : s.core.held = s.held := rfl
  unfold play
  cases move with
  | connection connected => exact operate_core (fun c => ⟨rfl, c.core_connection connected _⟩) s
  | activate d => exact operate_core (fun c => ⟨rfl, c.core_activated d⟩) s
  | save d => exact operate_core (fun c => ⟨rfl, c.core_activated (some d)⟩) s
  | toggle => cases hmove
  | focus d => exact congrArg (fun s => some (Answer.nothing, s)) (s.core_of_pool _ _ _)
  | cancelPending =>
    refine operate_core (fun c => ?_) s
    have hpending : c.core.state.pending = c.state.pending := rfl
    rw [hpending]
    cases c.state.pending with
    | none => exact ⟨rfl, c.core_core.symm⟩
    | some r => exact ⟨rfl, c.core_pool _⟩
  | poll =>
    refine operate_core (fun c => ?_) s
    obtain ⟨hcount, hcore⟩ := Controller.core_poll c.core_core.symm
    exact ⟨congrArg Answer.count hcount, hcore⟩
  | progress t => exact congrArg (fun s => some (Answer.nothing, s)) (s.core_of_pool _ _ _)
  | run => exact congrArg (fun s => some (Answer.nothing, s)) (s.core_of_pool _ _ _)
  | settle =>
    refine operate_core (fun c => ?_) s
    have hrun : (c.run m).core = (c.core.run m).core := c.core_pool _
    obtain ⟨hcount, hcore⟩ := Controller.core_poll hrun
    exact ⟨congrArg Answer.count hcount, hcore⟩
  | resolve uri reply => exact congrArg (fun s => some (Answer.flag _, s)) (s.core_of_pool _ _ _)
  | answer t reply => exact congrArg (fun s => some (Answer.flag _, s)) (s.core_of_pool _ _ _)
  | receive =>
    simp only [hdropped]
    split
    · rfl
    · exact congrArg some s.receive_core
  | apply slot =>
    simp only [hheld]
    cases s.held.get? slot with
    | none => rfl
    | some x =>
      refine operate_core (fun c => ?_) { s with held := s.held.clear slot }
      obtain ⟨hanswer, hcore⟩ := c.core_computed x
      exact ⟨congrArg Answer.flag hanswer, hcore⟩
  | openHeld slot =>
    simp only [hheld]
    cases s.held.get? slot with
    | none => rfl
    | some x => exact congrArg (fun s => some (Answer.opened _, s)) (s.core_of_pool _ _ _)
  | discard slot => exact congrArg (fun s => some (Answer.flag _, s)) (s.core_of_pool _ _ _)
  | dispose => exact operate_core (fun c => ⟨rfl, c.core_dispose⟩) s
  | drop =>
    simp only [hdropped]
    split
    · exact congrArg (fun s => some (Answer.nothing, s)) (s.core_of_pool _ _ _)
    · exact congrArg (fun c => some (Answer.nothing, Session.mk c true s.focus s.held))
        s.controller.core_drop

/-- A toggle leaves the core as it is, as long as the views are current. -/
theorem play_toggle_core (hs : s.dropped = false → s.controller.Current)
    (h : s.play settings m .toggle = some (answer, s')) : s'.core = s.core := by
  unfold play at h
  obtain ⟨hdropped, _, rfl⟩ := operate_eq_some h
  exact congrArg (fun c => Session.mk c s.dropped s.focus s.held)
    (Controller.core_toggle (hs hdropped))

/-! ## Sessions without toggles -/

theorem current_after (hs : s.dropped = false → s.controller.Current) (move : Move ρ) :
    (s.after settings m move).dropped = false → (s.after settings m move).controller.Current := by
  cases hplay : s.play settings m move with
  | none =>
    rw [after_of_none hplay]
    exact hs
  | some result =>
    rw [after_of_play hplay]
    exact current_play hs hplay

theorem core_after_toggle (hs : s.dropped = false → s.controller.Current) :
    (s.after settings m .toggle).core = s.core := by
  cases hplay : s.play settings m .toggle with
  | none => rw [after_of_none hplay]
  | some result =>
    rw [after_of_play hplay]
    exact play_toggle_core hs hplay

theorem core_after (hmove : move.isToggle = false) (h : s.core = t.core) :
    (s.after settings m move).core = (t.after settings m move).core := by
  have hplay : (t.play settings m move).map (Prod.map id core) =
      (s.play settings m move).map (Prod.map id core) := by
    rw [play_core hmove, ← h, ← play_core hmove]
  cases hs : s.play settings m move with
  | none =>
    rw [hs, Option.map_none, Option.map_eq_none_iff] at hplay
    rw [after_of_none hs, after_of_none hplay, h]
  | some result =>
    rw [hs, Option.map_some, Option.map_eq_some_iff] at hplay
    obtain ⟨result', ht, hsame⟩ := hplay
    rw [after_of_play hs, after_of_play ht]
    exact congrArg (fun r => r.2) hsame.symm

/-- Toggles can be taken out of a session: the core after it stays the same. -/
theorem core_playAll (moves : List (Move ρ)) (hs : s.dropped = false → s.controller.Current)
    (h : s.core = t.core) :
    (s.playAll settings m moves).core =
      (t.playAll settings m (moves.filter fun move => !move.isToggle)).core := by
  induction moves generalizing s t with
  | nil => exact h
  | cons move moves ih =>
    rw [playAll_cons]
    cases hmove : move.isToggle with
    | true =>
      rw [List.filter_cons_of_neg (by simp [hmove]), Move.eq_toggle hmove]
      exact ih (current_after hs _) ((core_after_toggle hs).trans h)
    | false =>
      rw [List.filter_cons_of_pos (by simp [hmove]), playAll_cons]
      exact ih (current_after hs move) (core_after hmove h)

/-! ## The preference itself -/

/-- Whether a move switches the preference: a toggle does, until the controller is disposed of or
given up. -/
def switches (move : Move ρ) (s : Session ρ) : Bool :=
  move.isToggle && !s.dropped && !s.controller.disposed

/-- How often the preference is switched. -/
def switched (settings : Settings) (m : Meaning ρ) : List (Move ρ) → Session ρ → Nat
  | [], _ => 0
  | move :: moves, s => (s.switches move).toNat + switched settings m moves (s.after settings m move)

theorem switches_of_not_toggle (hmove : move.isToggle = false) (s : Session ρ) :
    s.switches move = false := by
  rw [switches, hmove]
  rfl

theorem showUncovered_play_of_not_toggle (hmove : move.isToggle = false)
    (h : s.play settings m move = some (answer, s')) :
    s'.controller.state.showUncovered = s.controller.state.showUncovered := by
  cases hkind : move.kind with
  | quiet => rw [(alike_of_quiet hkind h).state]
  | transition =>
    unfold play at h
    cases move with
    | connection connected =>
      obtain ⟨_, _, rfl⟩ := operate_eq_some h
      exact s.controller.showUncovered_connection connected s.focus
    | activate d =>
      obtain ⟨_, _, rfl⟩ := operate_eq_some h
      exact s.controller.showUncovered_activated d
    | save d =>
      obtain ⟨_, _, rfl⟩ := operate_eq_some h
      exact s.controller.showUncovered_activated (some d)
    | toggle => cases hmove
    | _ => cases hkind
  | handover =>
    exact handover_induction
      (P := fun c => c.state.showUncovered = s.controller.state.showUncovered)
      (fun _ _ hc => hc) (fun x c hc => (c.showUncovered_computed x).trans hc) hkind h
      fun _ => rfl
  | ending =>
    unfold play at h
    cases move with
    | dispose =>
      obtain ⟨_, _, rfl⟩ := operate_eq_some h
      simp only [Controller.dispose, Controller.cancelPending_eq]
      split <;> rfl
    | drop =>
      simp only at h
      split at h
      · cases h
        rfl
      · cases h
        simp only [Controller.drop, Controller.cancelPending_eq]
    | _ => cases hkind

theorem showUncovered_after (move : Move ρ) (s : Session ρ) :
    (s.after settings m move).controller.state.showUncovered =
      (s.controller.state.showUncovered ^^ s.switches move) := by
  cases hmove : move.isToggle with
  | false =>
    rw [switches_of_not_toggle hmove, Bool.xor_false]
    cases hplay : s.play settings m move with
    | none => rw [after_of_none hplay]
    | some result =>
      rw [after_of_play hplay]
      exact showUncovered_play_of_not_toggle hmove hplay
  | true =>
    rw [Move.eq_toggle hmove, switches, after, play, operate]
    cases s.dropped with
    | true => simp [Move.isToggle]
    | false => simpa [Move.isToggle] using s.controller.showUncovered_toggle

theorem showUncovered_playAll (moves : List (Move ρ)) (s : Session ρ) :
    (s.playAll settings m moves).controller.state.showUncovered =
      (s.controller.state.showUncovered ^^ (s.switched settings m moves).bodd) := by
  induction moves generalizing s with
  | nil => simp [switched, playAll]
  | cons move moves ih =>
    rw [playAll_cons, ih, showUncovered_after, switched, Nat.bodd_add, Bool.xor_assoc]
    cases s.switches move <;> rfl

/-! ## Any two sessions -/

theorem core_create (showUncovered : Bool) :
    (create showUncovered : Session ρ).core = (create false).core :=
  rfl

/-- Whatever the preference is at first, and wherever it is switched, two sessions that are the same
but for that go the same way: their controllers differ in the preference only, and in its mark on
the status, and every further move gets the same answer.  The preferences differ if they did at
first, or else if the number of switches was odd in all; and switching twice in a row changes
nothing, neither in the controller nor in what the views show. -/
theorem display_unnoticed (settings : Settings) (m : Meaning ρ) (show₁ show₂ : Bool)
    (moves₁ moves₂ : List (Move ρ))
    (hmoves : moves₁.filter (fun move => !move.isToggle) =
      moves₂.filter fun move => !move.isToggle) :
    let s₁ := (create show₁).playAll settings m moves₁
    let s₂ := (create show₂).playAll settings m moves₂
    s₁.controller.Mirrors s₂.controller ∧
    (∀ move : Move ρ, move.isToggle = false →
      (s₁.play settings m move).map Prod.fst = (s₂.play settings m move).map Prod.fst) ∧
    ((s₁.controller.state.showUncovered ^^ s₂.controller.state.showUncovered) =
      ((show₁ ^^ show₂) ^^ ((create show₁).switched settings m moves₁ +
        (create show₂).switched settings m moves₂).bodd)) ∧
    (s₁.dropped = false → s₁.controller.disposed = false →
      let t := s₁.playAll settings m [.toggle, .toggle]
      t = { s₁ with controller := { s₁.controller with sinks := t.controller.sinks } } ∧
      t.controller.Agrees s₁.controller) := by
  intro s₁ s₂
  have hcurrent : ∀ show₀, (create show₀ : Session ρ).dropped = false →
      (create show₀ : Session ρ).controller.Current :=
    fun show₀ _ => Controller.current_create show₀
  have hcore : s₁.core = s₂.core := by
    calc s₁.core
        = ((create false).playAll settings m (moves₁.filter fun move => !move.isToggle)).core :=
          core_playAll moves₁ (hcurrent show₁) (core_create show₁)
      _ = ((create false).playAll settings m (moves₂.filter fun move => !move.isToggle)).core := by
          rw [hmoves]
      _ = s₂.core := (core_playAll moves₂ (hcurrent show₂) (core_create show₂)).symm
  refine ⟨Controller.mirrors_of_core (congrArg Session.controller hcore), ?_, ?_, ?_⟩
  · intro move hmove
    have hplay : (s₁.play settings m move).map (Prod.map id core) =
        (s₂.play settings m move).map (Prod.map id core) := by
      rw [play_core hmove, hcore, ← play_core hmove]
    have hanswers := congrArg (Option.map Prod.fst) hplay
    rw [Option.map_map, Option.map_map] at hanswers
    exact hanswers
  · have hshow : ∀ p q u v : Bool, ((p ^^ u) ^^ (q ^^ v)) = ((p ^^ q) ^^ (u ^^ v)) := by decide
    rw [showUncovered_playAll, showUncovered_playAll, Nat.bodd_add]
    exact hshow show₁ show₂ _ _
  · intro hdropped hdisposed t
    have hcurrent₁ := current_playAll settings m show₁ moves₁
    have ht : t = { s₁ with controller := s₁.controller.toggle.toggle } := by
      simp [t, playAll, play, operate, hdropped]
    obtain ⟨hsame, hagrees⟩ := Controller.toggle_toggle (hcurrent₁ hdropped) hdisposed
    rw [ht]
    exact ⟨congrArg (fun c => { s₁ with controller := c }) hsame, hagrees⟩

/-- The preference is on at first and switched three times in the one session, off and never
switched in the other. -/
theorem display_unnoticed_of_toggles :
    let d : Document := ⟨⟨"file:///a.js", rfl⟩, "javascript", none⟩
    let r : Coverage := ⟨.zero, [], Binary64.isPercent_zero⟩
    let settings : Settings := ⟨fun _ => true, .clear⟩
    let moves₁ : List (Move Outcome) := [.toggle, .connection true, .activate (some d), .toggle,
      .resolve "file:///a.js" (.ok (some r)), .settle, .toggle]
    let moves₂ : List (Move Outcome) := [.connection true, .activate (some d),
      .resolve "file:///a.js" (.ok (some r)), .settle]
    let s₁ := (create true).playAll settings Meaning.direct moves₁
    let s₂ := (create false).playAll settings Meaning.direct moves₂
    s₁.controller.Mirrors s₂.controller ∧
      (s₁.playAll settings Meaning.direct [.toggle, .toggle]).controller.Agrees s₁.controller := by
  intro d r settings moves₁ moves₂ s₁ s₂
  have hmoves : moves₁.filter (fun move => !move.isToggle) =
      moves₂.filter fun move => !move.isToggle := rfl
  have hunnoticed := display_unnoticed settings Meaning.direct true false moves₁ moves₂ hmoves
  have htoggles := hunnoticed.2.2.2 (by decide +kernel) (by decide +kernel)
  exact ⟨hunnoticed.1, htoggles.2⟩

end Session

end CoverageTracker
