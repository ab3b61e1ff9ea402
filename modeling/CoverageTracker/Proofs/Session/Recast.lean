import CoverageTracker.Session
import CoverageTracker.Proofs.Pool.Recast
set_option autoImplicit false

/-!
# Sessions over other replies

A controller looks at its pool only to start and cancel computations and to ask who was cancelled.
So a session may be played with other replies that come to the same (`play_recast`): every move
answers the same and leaves the recast session.  Over the same replies this says whom a session
warned (`warnings_playAll`).
-/

namespace CoverageTracker

variable {ρ σ : Type}

/-- The same move with another reply. -/
def Move.map (f : ρ → σ) : Move ρ → Move σ
  | .connection connected => .connection connected
  | .activate d => .activate d
  | .save d => .save d
  | .toggle => .toggle
  | .focus d => .focus d
  | .cancelPending => .cancelPending
  | .poll => .poll
  | .progress t => .progress t
  | .run => .run
  | .settle => .settle
  | .resolve uri reply => .resolve uri (f reply)
  | .answer t reply => .answer t (f reply)
  | .receive => .receive
  | .apply slot => .apply slot
  | .openHeld slot => .openHeld slot
  | .discard slot => .discard slot
  | .dispose => .dispose
  | .drop => .drop

theorem Move.map_id_eq (move : Move ρ) : move.map id = move := by cases move <;> rfl

namespace Controller

/-- A controller over a pool with other replies. -/
def recast (f : ρ → σ) (outcome : σ → Outcome) (c : Controller ρ) : Controller σ :=
  ⟨c.state, c.issued, c.disposed, c.pool.recast f outcome, c.sinks, c.applied⟩

section Transitions

variable (f : ρ → σ) (outcome : σ → Outcome) (c : Controller ρ)

theorem cancelPending_recast :
    (c.recast f outcome).cancelPending = c.cancelPending.recast f outcome := by
  have hpending : (c.recast f outcome).state.pending = c.state.pending := rfl
  unfold cancelPending
  rw [hpending]
  cases c.state.pending with
  | none => rfl
  | some r => simp only [recast, Pool.recast_cancel]

theorem issue_recast (d : Document) :
    (c.recast f outcome).issue d = Prod.map id (recast f outcome) (c.issue d) := by
  have hstart := Pool.start_recast f outcome c.pool ⟨c.issued + 1⟩ d
  simp only [issue, recast, hstart]
  rfl

theorem track_recast (d : Document) :
    (c.recast f outcome).track d = (c.track d).recast f outcome := by
  unfold track
  rw [cancelPending_recast, issue_recast]
  rfl

theorem untrack_recast : (c.recast f outcome).untrack = c.untrack.recast f outcome := by
  unfold untrack
  rw [cancelPending_recast]
  rfl

theorem activate_recast (s : Settings) (d : Option Document) :
    (c.recast f outcome).activate s d = (c.activate s d).recast f outcome := by
  unfold activate
  cases d with
  | none => exact untrack_recast f outcome c
  | some d =>
    simp only [track_recast, untrack_recast, apply_ite (recast f outcome)]
    rfl

theorem activated_recast (s : Settings) (d : Option Document) :
    (c.recast f outcome).activated s d = (c.activated s d).recast f outcome := by
  simp only [activated, activate_recast, apply_ite (recast f outcome)]
  rfl

theorem connection_recast (s : Settings) (connected : Bool) (focus : Option Document) :
    (c.recast f outcome).connection s connected focus =
      (c.connection s connected focus).recast f outcome := by
  have hactivate := activate_recast f outcome { c with state := { c.state with connected } } s
  unfold connection
  show (if c.disposed then _ else _) = _
  split
  · rfl
  · cases connected with
    | false => exact congrArg render (hactivate none)
    | true =>
      show (if !c.state.connected && focus.isSome then _ else _ : Controller σ).render = _
      simp only [Bool.not_true, Bool.false_eq_true, if_false]
      split
      · exact congrArg render (hactivate focus)
      · rfl

theorem toggle_recast : (c.recast f outcome).toggle = c.toggle.recast f outcome := by
  simp only [toggle, apply_ite (recast f outcome)]
  rfl

theorem computed_recast (x : Completion) :
    (c.recast f outcome).computed x = Prod.map id (recast f outcome) (c.computed x) := by
  have hopen : (c.recast f outcome).pool.openCompletion x = c.pool.openCompletion x :=
    Pool.openCompletion_recast f outcome c.pool x
  unfold computed
  rw [hopen]
  show (if c.disposed then _ else _) = _
  split
  · rfl
  · cases c.pool.openCompletion x <;> rfl

theorem poll_recast : (c.recast f outcome).poll = Prod.map id (recast f outcome) c.poll := by
  have hcount : ∀ (queue : List Completion) (n : Nat) (c : Controller ρ),
      queue.foldl count (n, c.recast f outcome) =
        Prod.map id (recast f outcome) (queue.foldl count (n, c)) := by
    intro queue
    induction queue with
    | nil => exact fun n c => rfl
    | cons x queue ih =>
      intro n c
      rw [List.foldl_cons, List.foldl_cons, ← ih]
      simp only [count, computed_recast]
      rfl
  exact hcount c.pool.completions 0 { c with pool := { c.pool with completions := [] } }

theorem next_recast : (c.recast f outcome).next = Prod.map id (recast f outcome) c.next := by
  have hreceive := Pool.receive_recast f outcome c.pool
  simp only [next, recast, hreceive]
  rfl

theorem dispose_recast (s : Settings) :
    (c.recast f outcome).dispose s = (c.dispose s).recast f outcome := by
  have hcancel := cancelPending_recast f outcome { c with disposed := true }
  unfold dispose
  show (if c.disposed then _ else _) = _
  split
  · rfl
  · simp only [recast] at hcancel ⊢
    rw [hcancel]

theorem drop_recast : (c.recast f outcome).drop = c.drop.recast f outcome := by
  unfold drop
  rw [cancelPending_recast]
  rfl

theorem resolve_recast (uri : String) (reply : ρ) :
    (c.recast f outcome).resolve uri (f reply) =
      Prod.map id (recast f outcome) (c.resolve uri reply) := by
  have hresolve := Pool.resolve_recast f outcome c.pool uri reply
  simp only [resolve, recast, hresolve]
  rfl

theorem answer_recast (t : Ticket) (reply : ρ) :
    (c.recast f outcome).answer t (f reply) =
      Prod.map id (recast f outcome) (c.answer t reply) := by
  have hanswer := Pool.answer_recast f outcome c.pool t reply
  simp only [answer, recast, hanswer]
  rfl

end Transitions

section Turns

variable {f : ρ → σ} {m : Meaning ρ} {m' : Meaning σ}

theorem progress_recast (h : m.Recasts f m') (t : Ticket) (c : Controller ρ) :
    (c.recast f m'.outcome).progress m' t = (c.progress m t).recast f m'.outcome := by
  simp only [progress, recast, Pool.recast_progress h]

theorem run_recast (h : m.Recasts f m') (c : Controller ρ) :
    (c.recast f m'.outcome).run m' = (c.run m).recast f m'.outcome := by
  simp only [run, recast, Pool.recast_run h]

end Turns

end Controller

namespace Session

/-- A session of a controller over a pool with other replies. -/
def recast (f : ρ → σ) (outcome : σ → Outcome) (s : Session ρ) : Session σ :=
  ⟨s.controller.recast f outcome, s.dropped, s.focus, s.held⟩

variable {f : ρ → σ} {m : Meaning ρ} {m' : Meaning σ} {settings : Settings} {s : Session ρ}

theorem operate_recast {outcome : σ → Outcome} {g : Controller ρ → Answer × Controller ρ}
    {g' : Controller σ → Answer × Controller σ}
    (h : ∀ c, g' (c.recast f outcome) = Prod.map id (Controller.recast f outcome) (g c)) :
    (s.recast f outcome).operate g' = (s.operate g).map (Prod.map id (recast f outcome)) := by
  unfold operate
  show (if s.dropped then _ else _) = _
  split
  · rfl
  · have hcontroller := h s.controller
    simp only [recast, hcontroller]
    rfl

theorem receive_recast (f : ρ → σ) (outcome : σ → Outcome) (s : Session ρ) :
    (s.recast f outcome).receive = Prod.map id (recast f outcome) s.receive := by
  have hnext := s.controller.next_recast f outcome
  simp only [receive, recast, hnext]
  rcases s.controller.next with ⟨found, c⟩
  cases found <;> rfl

/-- A move with another reply that comes to the same answers the same, and leaves the session with
the other reply. -/
theorem play_recast (h : m.Recasts f m') (settings : Settings) (move : Move ρ) (s : Session ρ) :
    (s.recast f m'.outcome).play settings m' (move.map f) =
      (s.play settings m move).map (Prod.map id (recast f m'.outcome)) := by
  have hheld : (s.recast f m'.outcome).held = s.held := rfl
  -- an operation of the controller commutes by its own lemma, and the surroundings are the same
  unfold play Move.map
  cases move with
  | connection connected =>
    exact operate_recast fun c =>
      congrArg (Prod.mk _) (c.connection_recast f m'.outcome settings connected s.focus)
  | activate d =>
    exact operate_recast fun c => congrArg (Prod.mk _) (c.activated_recast f m'.outcome settings d)
  | save d =>
    exact operate_recast fun c =>
      congrArg (Prod.mk _) (c.activated_recast f m'.outcome settings (some d))
  | toggle => exact operate_recast fun c => congrArg (Prod.mk _) (c.toggle_recast f m'.outcome)
  | focus d => rfl
  | cancelPending =>
    refine operate_recast fun c => ?_
    have hpending : (c.recast f m'.outcome).state.pending = c.state.pending := rfl
    rw [hpending]
    cases c.state.pending with
    | none => rfl
    | some r =>
      simp only [Controller.recast, ← Pool.recast_cancel]
      rfl
  | poll =>
    refine operate_recast fun c => ?_
    rw [c.poll_recast f m'.outcome]
    rfl
  | progress t =>
    simp only [recast, Controller.progress_recast h]
    rfl
  | run =>
    simp only [recast, Controller.run_recast h]
    rfl
  | settle =>
    refine operate_recast fun c => ?_
    rw [Controller.run_recast h, (c.run m).poll_recast f m'.outcome]
    rfl
  | resolve uri reply =>
    simp only [recast, s.controller.resolve_recast f m'.outcome uri reply]
    rfl
  | answer t reply =>
    simp only [recast, s.controller.answer_recast f m'.outcome t reply]
    rfl
  | receive =>
    simp only [receive_recast]
    show (if s.dropped then _ else _) = _
    split <;> rfl
  | apply slot =>
    simp only [hheld]
    cases s.held.get? slot with
    | none => rfl
    | some x =>
      refine operate_recast (s := { s with held := s.held.clear slot }) fun c => ?_
      rw [c.computed_recast f m'.outcome]
      rfl
  | openHeld slot =>
    simp only [hheld]
    cases s.held.get? slot with
    | none => rfl
    | some x =>
      have hopen := Pool.openCompletion_recast f m'.outcome s.controller.pool x
      simp only [recast, Controller.recast, hopen]
      rfl
  | discard slot => rfl
  | dispose =>
    exact operate_recast fun c => congrArg (Prod.mk _) (c.dispose_recast f m'.outcome settings)
  | drop =>
    show (if s.dropped then _ else _) = _
    split
    · rfl
    · simp only [recast, s.controller.drop_recast f m'.outcome]
      rfl

theorem answer_recast (h : m.Recasts f m') (settings : Settings) (move : Move ρ) (s : Session ρ) :
    ((s.recast f m'.outcome).play settings m' (move.map f)).map Prod.fst =
      (s.play settings m move).map Prod.fst := by
  rw [play_recast h, Option.map_map]
  rfl

theorem playAll_recast (h : m.Recasts f m') (settings : Settings) (moves : List (Move ρ))
    (s : Session ρ) :
    (s.recast f m'.outcome).playAll settings m' (moves.map (Move.map f)) =
      (s.playAll settings m moves).recast f m'.outcome := by
  induction moves generalizing s with
  | nil => rfl
  | cons move moves ih =>
    simp only [List.map_cons, playAll, List.foldl_cons] at ih ⊢
    rw [← ih, play_recast h]
    cases s.play settings m move <;> rfl

/-- A session starts without replies. -/
theorem playAll_create_recast (h : m.Recasts f m') (settings : Settings) (showUncovered : Bool)
    (moves : List (Move ρ)) :
    (create showUncovered).playAll settings m' (moves.map (Move.map f)) =
      ((create showUncovered).playAll settings m moves).recast f m'.outcome :=
  playAll_recast h settings moves (create showUncovered)

/-- A session warned of the failures among the replies that were taken in time, and of nothing
else. -/
theorem warnings_playAll (settings : Settings) (m : Meaning ρ) (showUncovered : Bool)
    (moves : List (Move ρ)) :
    let p := ((create showUncovered).playAll settings m moves).controller.pool
    p.warnings = Pool.failures m.outcome p.arrivals := by
  intro p
  have hrecast := playAll_create_recast m.recasts_id settings showUncovered moves
  have hmoves : moves.map (Move.map id) = moves := by
    rw [funext Move.map_id_eq]
    exact List.map_id moves
  rw [hmoves] at hrecast
  have hpool : p = p.recast id m.outcome := congrArg (fun s => s.controller.pool) hrecast
  have hwarnings := congrArg Pool.warnings hpool
  rw [Pool.recast_id] at hwarnings
  exact hwarnings

/-! ## Sessions that look the same -/

/-- Two sessions are the same but for what the replies are and whom they warned: the same state, the
same number of requests, the same calls of the views, the same completions applied, queued and
held, and pools that have called the backend for the same. -/
structure Resembles (s : Session ρ) (s' : Session σ) : Prop where
  state : s.controller.state = s'.controller.state
  issued : s.controller.issued = s'.controller.issued
  disposed : s.controller.disposed = s'.controller.disposed
  sinks : s.controller.sinks = s'.controller.sinks
  applied : s.controller.applied = s'.controller.applied
  dropped : s.dropped = s'.dropped
  focus : s.focus = s'.focus
  held : s.held = s'.held
  pool : s.controller.pool.Resembles s'.controller.pool

theorem Resembles.symm {s : Session ρ} {s' : Session σ} (h : s.Resembles s') : s'.Resembles s :=
  ⟨h.state.symm, h.issued.symm, h.disposed.symm, h.sinks.symm, h.applied.symm, h.dropped.symm,
    h.focus.symm, h.held.symm, h.pool.symm⟩

theorem Resembles.trans {τ : Type} {s : Session ρ} {s' : Session σ} {s'' : Session τ}
    (h : s.Resembles s') (h' : s'.Resembles s'') : s.Resembles s'' :=
  ⟨h.state.trans h'.state, h.issued.trans h'.issued, h.disposed.trans h'.disposed,
    h.sinks.trans h'.sinks, h.applied.trans h'.applied, h.dropped.trans h'.dropped,
    h.focus.trans h'.focus, h.held.trans h'.held, h.pool.trans h'.pool⟩

theorem resembles_recast (f : ρ → σ) (outcome : σ → Outcome) (s : Session ρ) :
    s.Resembles (s.recast f outcome) :=
  ⟨rfl, rfl, rfl, rfl, rfl, rfl, rfl, rfl, Pool.resembles_recast f outcome s.controller.pool⟩

/-- Replies under one meaning and what `f` makes of them under another come to the same runs:
whatever is played, the two sessions are the same, warn of the same, and answer every move the
same. -/
def SameRuns (f : ρ → σ) (m : Meaning ρ) (m' : Meaning σ) : Prop :=
  ∀ (settings : Settings) (showUncovered : Bool) (moves : List (Move ρ)),
    let s := (create showUncovered).playAll settings m moves
    let s' := (create showUncovered).playAll settings m' (moves.map (Move.map f))
    s.Resembles s' ∧ s'.controller.pool.warnings = s.controller.pool.warnings ∧
      ∀ move : Move ρ,
        (s'.play settings m' (move.map f)).map Prod.fst = (s.play settings m move).map Prod.fst

/-- So it is if each reply stands for the very outcome that it is replaced by. -/
theorem sameRuns_of_recasts (h : m.Recasts f m')
    (houtcome : ∀ reply, m'.outcome (f reply) = m.outcome reply) : SameRuns f m m' := by
  intro settings showUncovered moves s s'
  have hrecast : s' = s.recast f m'.outcome := playAll_create_recast h settings showUncovered moves
  have hwarnings : s.controller.pool.warnings =
      Pool.failures m.outcome s.controller.pool.arrivals :=
    warnings_playAll settings m showUncovered moves
  rw [hrecast]
  refine ⟨resembles_recast f m'.outcome s, ?_, fun move => answer_recast h settings move s⟩
  rw [hwarnings]
  exact Pool.failures_map f houtcome s.controller.pool.arrivals

end Session

end CoverageTracker
