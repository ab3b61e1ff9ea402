import CoverageTracker.Proofs.Session.Holding
set_option autoImplicit false

/-!
# What moves do to the controller

To a controller there are four kinds of move.  A quiet one concerns the computations and the
held completions only (`alike_of_quiet`); a transition renders once (`renders_of_transition`); a
handover gives the controller completions, from a slot or in a poll, and adds to every log what
they add one after another (`log_of_handover`); and the last two moves end the use of the
controller.  `handovers` lists what a move hands over, each completion with the controller that it
is handed to, in the middle of a poll too, and nothing else is ever applied (`applied_play`).  To the
tasks there are two: those in which they take turns or get replies, and those in which they stay as
far as they are (`still_play`).
-/

namespace CoverageTracker

variable {ρ : Type} {m : Meaning ρ} {settings : Settings}

/-- What a move is to the controller. -/
inductive Move.Kind where
  /-- it concerns the computations and the held completions only -/
  | quiet
  /-- it changes the state and renders it -/
  | transition
  /-- it hands completions over -/
  | handover
  /-- it ends the use of the controller -/
  | ending
  deriving DecidableEq, Repr

/-- The kind of a move. -/
def Move.kind : Move ρ → Move.Kind
  | .connection _ | .activate _ | .save _ | .toggle => .transition
  | .poll | .settle | .apply _ => .handover
  | .dispose | .drop => .ending
  | .focus _ | .cancelPending | .progress _ | .run | .resolve _ _ | .answer _ _ | .receive
  | .openHeld _ | .discard _ => .quiet

/-- Whether tasks take turns in a move, or get replies. -/
def Move.stirs : Move ρ → Bool
  | .progress _ | .run | .settle | .resolve _ _ | .answer _ _ => true
  | _ => false

/-! ## Polls -/

/-- Whatever completions keep as they are handed over, a poll keeps. -/
theorem Controller.poll_induction {P : Controller ρ → Prop}
    (hpool : ∀ (c : Controller ρ) (pool : Pool ρ), P c → P { c with pool })
    (hcomputed : ∀ x c, P c → P (c.computed x).2) {c : Controller ρ} (h : P c) : P c.poll.2 := by
  generalize hqueue : c.pool.completions = queue
  induction queue generalizing c with
  | nil =>
    rw [c.poll_of_nil hqueue]
    exact h
  | cons x rest ih =>
    rw [c.poll_of_cons hqueue]
    exact ih (hcomputed x _ (hpool c _ h)) (completions_computed x _)

section Log

variable {α : Type} {log : Controller ρ → List α}
  {entries : Completion × Controller ρ → List α}

/-- A log that does not depend on the pool, and grows by what each completion adds. -/
theorem Controller.log_poll
    (hpool : ∀ (c : Controller ρ) (pool : Pool ρ), log { c with pool } = log c)
    (hcomputed : ∀ x c, log (c.computed x).2 = log c ++ entries (x, c)) (c : Controller ρ) :
    log c.poll.2 = log c ++ (handed c.pool.completions c).flatMap entries := by
  generalize hqueue : c.pool.completions = queue
  induction queue generalizing c with
  | nil =>
    rw [c.poll_of_nil hqueue]
    simp [handed]
  | cons x rest ih =>
    have hrequeue : log (c.requeue rest) = log c := hpool c _
    rw [c.poll_of_cons hqueue, handed, ih _ (completions_computed x _), hcomputed, hrequeue,
      List.flatMap_cons, List.append_assoc]

theorem Controller.applied_computed (x : Completion) (c : Controller ρ) :
    (c.computed x).2.applied = c.applied ++ if (c.computed x).1 then [x] else [] := by
  rcases c.fresh_or_stale x with ⟨hdisposed, hfresh⟩ | hstale
  · rw [c.computed_of_fresh hdisposed hfresh]
    rfl
  · simp [c.computed_of_stale hstale]

end Log

/-! ## What a controller does to its pool -/

namespace Controller

variable (c : Controller ρ)

theorem still_activate (s : Settings) (d : Option Document) :
    c.pool.Still (c.activate s d).pool := by
  unfold activate
  split
  · split
    · rw [track_eq]
      exact (Pool.still_cancelOf _ c.pool).trans (Pool.still_start _ _ _)
    · rw [untrack_eq]
      exact Pool.still_cancelOf _ c.pool
  · rw [untrack_eq]
    exact Pool.still_cancelOf _ c.pool

theorem still_activated (s : Settings) (d : Option Document) :
    c.pool.Still (c.activated s d).pool := by
  unfold activated
  split
  · exact .refl _
  · exact still_activate c s d

theorem still_connection (s : Settings) (connected : Bool) (focus : Option Document) :
    c.pool.Still (c.connection s connected focus).pool := by
  have hactivate :=
    still_activate ({ c with state := { c.state with connected } } : Controller ρ) s
  unfold connection
  split
  · exact .refl _
  · cases connected with
    | false => exact hactivate none
    | true =>
      simp only [Bool.not_true, Bool.false_eq_true, if_false]
      split
      · exact hactivate focus
      · exact .refl _

theorem still_toggle : c.pool.Still c.toggle.pool := by
  unfold toggle
  split <;> exact .refl _

theorem still_poll : c.pool.Still c.poll.2.pool := by
  rw [pool_poll]
  exact .of_tasks_eq rfl rfl rfl

theorem still_dispose (s : Settings) : c.pool.Still (c.dispose s).pool := by
  unfold dispose
  split
  · exact .refl _
  · rw [cancelPending_eq]
    exact Pool.still_cancelOf _ c.pool

theorem still_drop : c.pool.Still c.drop.pool := by
  rw [drop, cancelPending_eq]
  exact (Pool.still_cancelOf _ c.pool).trans (.of_tasks_eq rfl rfl rfl)

end Controller

namespace Session

variable {s s' : Session ρ} {move : Move ρ} {answer : Answer}

/-! ## Quiet moves -/

/-- What a quiet move does not change. -/
structure Alike (s s' : Session ρ) : Prop where
  dropped : s'.dropped = s.dropped
  state : s'.controller.state = s.controller.state
  issued : s'.controller.issued = s.controller.issued
  disposed : s'.controller.disposed = s.controller.disposed
  sinks : s'.controller.sinks = s.controller.sinks
  applied : s'.controller.applied = s.controller.applied

/-- Another pool, focus and other held completions make no difference. -/
theorem alike_of_pool (s : Session ρ) (pool : Pool ρ) (focus : Option Document) (held : Slots) :
    Alike s ⟨{ s.controller with pool }, s.dropped, focus, held⟩ :=
  ⟨rfl, rfl, rfl, rfl, rfl, rfl⟩

theorem alike_of_quiet (hkind : move.kind = .quiet)
    (h : s.play settings m move = some (answer, s')) : Alike s s' := by
  unfold play at h
  cases move with
  | focus d =>
    cases h
    exact alike_of_pool s _ _ _
  | cancelPending =>
    obtain ⟨_, _, rfl⟩ := operate_eq_some h
    cases hpending : s.controller.state.pending with
    | none => exact alike_of_pool s _ _ _
    | some r => exact alike_of_pool s _ _ _
  | progress t =>
    cases h
    exact alike_of_pool s _ _ _
  | run =>
    cases h
    exact alike_of_pool s _ _ _
  | resolve uri reply =>
    cases h
    exact alike_of_pool s _ _ _
  | answer t reply =>
    cases h
    exact alike_of_pool s _ _ _
  | receive =>
    simp only at h
    split at h
    · cases h
    · have hreceive : s.receive.2 = s' := congrArg Prod.snd (Option.some.inj h)
      rw [← hreceive]
      unfold receive Controller.next Pool.receive
      cases s.controller.pool.completions with
      | nil => exact alike_of_pool s _ _ _
      | cons x rest => exact alike_of_pool s _ _ _
  | openHeld slot =>
    simp only at h
    split at h
    · cases h
    · cases h
      exact alike_of_pool s _ _ _
  | discard slot =>
    cases h
    exact alike_of_pool s _ _ _
  | _ => cases hkind

/-! ## Transitions -/

theorem renders_of_transition (hkind : move.kind = .transition)
    (h : s.play settings m move = some (answer, s')) :
    s.dropped = false ∧ s'.dropped = false ∧ s.controller.Renders s'.controller := by
  unfold play at h
  cases move with
  | connection connected =>
    obtain ⟨hdropped, _, rfl⟩ := operate_eq_some h
    exact ⟨hdropped, hdropped, s.controller.renders_connection settings connected s.focus⟩
  | activate d =>
    obtain ⟨hdropped, _, rfl⟩ := operate_eq_some h
    exact ⟨hdropped, hdropped, s.controller.renders_activated settings d⟩
  | save d =>
    obtain ⟨hdropped, _, rfl⟩ := operate_eq_some h
    exact ⟨hdropped, hdropped, s.controller.renders_activated settings (some d)⟩
  | toggle =>
    obtain ⟨hdropped, _, rfl⟩ := operate_eq_some h
    exact ⟨hdropped, hdropped, s.controller.renders_toggle⟩
  | _ => cases hkind

/-! ## Handovers -/

/-- The completions that a move hands over to the controller, each with the controller that it is
handed to. -/
def handovers (m : Meaning ρ) (move : Move ρ) (s : Session ρ) :
    List (Completion × Controller ρ) :=
  if s.dropped then []
  else
    match move with
    | .apply slot => (s.held.get? slot).toList.map fun x => (x, s.controller)
    | .poll => Controller.handed s.controller.pool.completions s.controller
    | .settle => Controller.handed (s.controller.run m).pool.completions (s.controller.run m)
    | _ => []

theorem handovers_of_not_handover (hkind : move.kind ≠ .handover) : s.handovers m move = [] := by
  unfold handovers
  split
  · rfl
  · cases move with
    | poll => exact absurd rfl hkind
    | settle => exact absurd rfl hkind
    | apply slot => exact absurd rfl hkind
    | _ => rfl

/-- A move that hands completions over adds to a log what they add one after another. -/
theorem log_of_handover {α : Type} {log : Controller ρ → List α}
    {entries : Completion × Controller ρ → List α}
    (hpool : ∀ (c : Controller ρ) (pool : Pool ρ), log { c with pool } = log c)
    (hcomputed : ∀ x c, log (c.computed x).2 = log c ++ entries (x, c))
    (hkind : move.kind = .handover) (h : s.play settings m move = some (answer, s')) :
    log s'.controller = log s.controller ++ (s.handovers m move).flatMap entries := by
  unfold play at h
  cases move with
  | poll =>
    obtain ⟨hdropped, _, rfl⟩ := operate_eq_some h
    have hlog := Controller.log_poll hpool hcomputed s.controller
    simpa [handovers, hdropped] using hlog
  | settle =>
    obtain ⟨hdropped, _, rfl⟩ := operate_eq_some h
    have hlog := Controller.log_poll hpool hcomputed (s.controller.run m)
    have hrun : log (s.controller.run m) = log s.controller := hpool s.controller _
    rw [hrun] at hlog
    simpa [handovers, hdropped] using hlog
  | apply slot =>
    simp only at h
    split at h
    · cases h
    · rename_i x hslot
      obtain ⟨hdropped, _, rfl⟩ := operate_eq_some h
      have hdropped : s.dropped = false := hdropped
      simpa [handovers, hdropped, hslot] using hcomputed x s.controller
  | _ => cases hkind

/-- Whatever completions keep as they are handed over, a move that hands them over keeps. -/
theorem handover_induction {P : Controller ρ → Prop}
    (hpool : ∀ (c : Controller ρ) (pool : Pool ρ), P c → P { c with pool })
    (hcomputed : ∀ x c, P c → P (c.computed x).2) (hkind : move.kind = .handover)
    (h : s.play settings m move = some (answer, s')) (hs : s.dropped = false → P s.controller) :
    P s'.controller := by
  unfold play at h
  cases move with
  | poll =>
    obtain ⟨hdropped, _, rfl⟩ := operate_eq_some h
    exact Controller.poll_induction hpool hcomputed (hs hdropped)
  | settle =>
    obtain ⟨hdropped, _, rfl⟩ := operate_eq_some h
    exact Controller.poll_induction hpool hcomputed (hpool _ _ (hs hdropped))
  | apply slot =>
    simp only at h
    split at h
    · cases h
    · rename_i x hslot
      obtain ⟨hdropped, _, rfl⟩ := operate_eq_some h
      exact hcomputed x _ (hs hdropped)
  | _ => cases hkind

/-- A move applies what it hands over and nothing else. -/
theorem applied_play (h : s.play settings m move = some (answer, s')) :
    s'.controller.applied = s.controller.applied ++
      (s.handovers m move).flatMap fun h => if (h.2.computed h.1).1 then [h.1] else [] := by
  cases hkind : move.kind with
  | quiet =>
    rw [handovers_of_not_handover (by simp [hkind]), (alike_of_quiet hkind h).applied]
    simp
  | transition =>
    have hrenders := (renders_of_transition hkind h).2.2
    have happlied : s'.controller.applied = s.controller.applied := by
      generalize s'.controller = c at hrenders
      cases hrenders with
      | disposed _ => rfl
      | once changed _ _ _ happlied => exact happlied
    rw [handovers_of_not_handover (by simp [hkind]), happlied]
    simp
  | handover => exact log_of_handover (fun _ _ => rfl) Controller.applied_computed hkind h
  | ending =>
    rw [handovers_of_not_handover (by simp [hkind]), List.flatMap_nil, List.append_nil]
    unfold play at h
    cases move with
    | dispose =>
      obtain ⟨_, _, rfl⟩ := operate_eq_some h
      simp only [Controller.dispose, Controller.cancelPending_eq]
      split <;> rfl
    | drop =>
      simp only at h
      split at h
      · cases h
        rfl
      · cases h
        simp only [Controller.drop, Controller.cancelPending_eq]
    | _ => cases hkind

/-! ## Between turns -/

/-- No task gets any further in a move that does not let it. -/
theorem still_play (hmove : move.stirs = false) (h : s.play settings m move = some (answer, s')) :
    s.controller.pool.Still s'.controller.pool := by
  unfold play at h
  cases move with
  | connection connected =>
    obtain ⟨_, _, rfl⟩ := operate_eq_some h
    exact s.controller.still_connection settings connected s.focus
  | activate d =>
    obtain ⟨_, _, rfl⟩ := operate_eq_some h
    exact s.controller.still_activated settings d
  | save d =>
    obtain ⟨_, _, rfl⟩ := operate_eq_some h
    exact s.controller.still_activated settings (some d)
  | toggle =>
    obtain ⟨_, _, rfl⟩ := operate_eq_some h
    exact s.controller.still_toggle
  | cancelPending =>
    obtain ⟨_, _, rfl⟩ := operate_eq_some h
    cases hpending : s.controller.state.pending with
    | none => exact .refl _
    | some r => exact Pool.still_cancel r.ticket _
  | poll =>
    obtain ⟨_, _, rfl⟩ := operate_eq_some h
    exact s.controller.still_poll
  | receive =>
    simp only at h
    split at h
    · cases h
    · have hreceive : s.receive.2 = s' := congrArg Prod.snd (Option.some.inj h)
      rw [← hreceive]
      unfold receive Controller.next Pool.receive
      cases s.controller.pool.completions with
      | nil => exact .refl _
      | cons x rest => exact .of_tasks_eq rfl rfl rfl
  | apply slot =>
    simp only at h
    split at h
    · cases h
    · rename_i x _
      obtain ⟨_, _, rfl⟩ := operate_eq_some h
      show s.controller.pool.Still (s.controller.computed x).2.pool
      rw [s.controller.pool_computed x]
      exact .refl _
  | openHeld slot =>
    simp only at h
    split at h
    · cases h
    · cases h
      exact .refl _
  | focus d =>
    cases h
    exact .refl _
  | discard slot =>
    cases h
    exact .refl _
  | dispose =>
    obtain ⟨_, _, rfl⟩ := operate_eq_some h
    exact s.controller.still_dispose settings
  | drop =>
    simp only at h
    split at h
    · cases h
      exact .refl _
    · cases h
      exact s.controller.still_drop
  | progress t => cases hmove
  | run => cases hmove
  | settle => cases hmove
  | resolve uri reply => cases hmove
  | answer t reply => cases hmove

/-- Only one move gives the controller up. -/
theorem dropped_play (hmove : move ≠ .drop) (h : s.play settings m move = some (answer, s')) :
    s'.dropped = s.dropped := by
  cases hkind : move.kind with
  | quiet => exact (alike_of_quiet hkind h).dropped
  | transition =>
    obtain ⟨hbefore, hafter, _⟩ := renders_of_transition hkind h
    exact hafter.trans hbefore.symm
  | handover =>
    unfold play at h
    cases move with
    | poll =>
      obtain ⟨_, _, rfl⟩ := operate_eq_some h
      rfl
    | settle =>
      obtain ⟨_, _, rfl⟩ := operate_eq_some h
      rfl
    | apply slot =>
      simp only at h
      split at h
      · cases h
      · obtain ⟨_, _, rfl⟩ := operate_eq_some h
        rfl
    | _ => cases hkind
  | ending =>
    unfold play at h
    cases move with
    | dispose =>
      obtain ⟨_, _, rfl⟩ := operate_eq_some h
      rfl
    | drop => exact absurd rfl hmove
    | _ => cases hkind

/-- Disposal is for good. -/
theorem disposed_play (hdisposed : s.controller.disposed = true)
    (h : s.play settings m move = some (answer, s')) : s'.controller.disposed = true := by
  cases hkind : move.kind with
  | quiet =>
    rw [(alike_of_quiet hkind h).disposed]
    exact hdisposed
  | transition =>
    rw [(renders_of_transition hkind h).2.2.disposed_eq]
    exact hdisposed
  | handover =>
    refine handover_induction (P := fun c => c.disposed = true) (fun _ _ hc => hc) ?_ hkind h
      fun _ => hdisposed
    intro x c hc
    rw [(c.computed_keeps x).1]
    exact hc
  | ending =>
    unfold play at h
    cases move with
    | dispose =>
      obtain ⟨_, _, rfl⟩ := operate_eq_some h
      simp [Controller.dispose, hdisposed]
    | drop =>
      simp only at h
      split at h
      · cases h
        exact hdisposed
      · cases h
        simp only [Controller.drop, Controller.cancelPending_eq]
        exact hdisposed
    | _ => cases hkind

end Session

end CoverageTracker
