import CoverageTracker.Session
import CoverageTracker.Proofs.Controller.Transitions
import CoverageTracker.Proofs.Pool.Schedule
import CoverageTracker.Proofs.Pool.Stillness
import Mathlib.Logic.Relation
set_option autoImplicit false

/-!
# What can happen to a controller, in small steps

A move of a session may do several things at once: a reconnect tracks a document and renders,
a poll applies one completion after another.  `Holding.Step` has one case for each thing that
can happen, and every move of a session is a sequence of such steps (`steps_play`), except that
somebody may cancel the pending request behind the controller's back or throw a received
completion away: these two are a `Disturbance`.  So whatever every step and every disturbance
keeps holds throughout every session (`playAll_keeps`), and without moves that disturb whatever
every step keeps (`playAll_keeps_of_calm`).
-/

namespace CoverageTracker

variable {ρ : Type}

/-! ## Held completions -/

namespace Slots

/-- The completions that are held. -/
def contents (s : Slots) : List Completion := s.items.filterMap id

theorem contents_keep (c : Completion) (s : Slots) : (s.keep c).2.contents = s.contents ++ [c] := by
  simp [contents, keep]

/-- Taking a completion out leaves the others. -/
theorem contents_clear {slot : Nat} {x : Completion} {s : Slots} (h : s.get? slot = some x) :
    ∃ before after, s.contents = before ++ x :: after ∧
      (s.clear slot).contents = before ++ after := by
  have hitem : s.items[slot]? = some (some x) := Option.join_eq_some_iff.mp h
  obtain ⟨hlt, hget⟩ := List.getElem?_eq_some_iff.mp hitem
  have hitems : s.items = s.items.take slot ++ some x :: s.items.drop (slot + 1) := by
    rw [← hget, List.getElem_cons_drop, List.take_append_drop]
  refine ⟨(s.items.take slot).filterMap id, (s.items.drop (slot + 1)).filterMap id, ?_, ?_⟩
  · have hcontents := congrArg (List.filterMap id) hitems
    rw [List.filterMap_append] at hcontents
    exact hcontents
  · simp only [contents, clear]
    rw [List.set_eq_take_append_cons_drop, if_pos hlt, List.filterMap_append,
      List.filterMap_cons_none rfl]

theorem contents_clear_of_none {slot : Nat} {s : Slots} (h : s.get? slot = none) :
    (s.clear slot).contents = s.contents := by
  simp only [get?, Option.join_eq_none_iff] at h
  rcases h with hnone | hempty
  · simp only [contents, clear]
    rw [List.set_eq_of_length_le (List.getElem?_eq_none_iff.mp hnone)]
  · obtain ⟨hlt, hget⟩ := List.getElem?_eq_some_iff.mp hempty
    simp only [contents, clear]
    rw [← hget, List.set_getElem_self]

end Slots

theorem Pool.still_cancelOf (request : Option Request) (p : Pool ρ) :
    Still p (p.cancelOf request) := by
  cases request with
  | none => exact .refl p
  | some r => exact still_cancel r.ticket p

/-- A controller with the completions that were received from it and not used yet, and whether
it was given up. -/
structure Holding (ρ : Type) where
  controller : Controller ρ
  dropped : Bool
  held : List Completion

namespace Holding

/-- The completions that were queued and not used yet. -/
def outstanding (a : Holding ρ) : List Completion := a.controller.pool.completions ++ a.held

/-! ## Steps -/

/-- What can happen to a controller. -/
inductive Step (settings : Settings) (m : Meaning ρ) : Holding ρ → Holding ρ → Prop
  /-- a task has its turn -/
  | progress (t : Ticket) (c : Controller ρ) (dropped : Bool) (held : List Completion) :
      Step settings m ⟨c, dropped, held⟩ ⟨c.progress m t, dropped, held⟩
  /-- the backend replies -/
  | resolve (uri : String) (reply : ρ) (c : Controller ρ) (dropped : Bool)
      (held : List Completion) :
      Step settings m ⟨c, dropped, held⟩ ⟨(c.resolve uri reply).2, dropped, held⟩
  /-- the backend replies out of line -/
  | answer (t : Ticket) (reply : ρ) (c : Controller ρ) (dropped : Bool) (held : List Completion) :
      Step settings m ⟨c, dropped, held⟩ ⟨(c.answer t reply).2, dropped, held⟩
  /-- the views are told something, or the user wants to see something else -/
  | display (showUncovered : Bool) (sinks : List SinkCall) (c : Controller ρ)
      (held : List Completion) :
      Step settings m ⟨c, false, held⟩
        ⟨{ c with state := { c.state with showUncovered }, sinks }, false, held⟩
  /-- the backend becomes available, or is so still -/
  | connect (c : Controller ρ) (held : List Completion) : c.disposed = false →
      Step settings m ⟨c, false, held⟩
        ⟨{ c with state := { c.state with connected := true } }, false, held⟩
  /-- the backend becomes unavailable, and no document is tracked -/
  | disconnect (c : Controller ρ) (held : List Completion) : c.disposed = false →
      Step settings m ⟨c, false, held⟩
        ⟨{ c with state := { c.state with connected := false } }.untrack, false, held⟩
  /-- no document is tracked any more -/
  | untrack (c : Controller ρ) (held : List Completion) : c.disposed = false →
      Step settings m ⟨c, false, held⟩ ⟨c.untrack, false, held⟩
  /-- a document is tracked -/
  | track (d : Document) (c : Controller ρ) (held : List Completion) : c.disposed = false →
      c.state.connected = true → settings.eligible d = true →
      Step settings m ⟨c, false, held⟩ ⟨c.track d, false, held⟩
  /-- the oldest completion is received -/
  | receive (x : Completion) (rest : List Completion) (c : Controller ρ)
      (held : List Completion) : c.pool.completions = x :: rest →
      Step settings m ⟨c, false, held⟩ ⟨c.requeue rest, false, held ++ [x]⟩
  /-- a fresh completion is applied -/
  | accept (x : Completion) (c : Controller ρ) (before after : List Completion) :
      c.disposed = false → c.pool.isCancelled x.request.ticket = false →
      Step settings m ⟨c, false, before ++ x :: after⟩ ⟨c.accept x, false, before ++ after⟩
  /-- a stale completion is ignored -/
  | ignore (x : Completion) (c : Controller ρ) (before after : List Completion) :
      c.disposed = true ∨ c.pool.isCancelled x.request.ticket = true →
      Step settings m ⟨c, false, before ++ x :: after⟩ ⟨c, false, before ++ after⟩
  /-- the controller is disposed of -/
  | dispose (c : Controller ρ) (held : List Completion) : c.disposed = false →
      Step settings m ⟨c, false, held⟩
        ⟨{ c with disposed := true }.cancelPending, false, held⟩
  /-- the controller is given up -/
  | drop (c : Controller ρ) (held : List Completion) :
      Step settings m ⟨c, false, held⟩ ⟨c.drop, true, held⟩

/-- What others can do behind the back of a controller. -/
inductive Disturbance : Holding ρ → Holding ρ → Prop
  /-- the pending request is cancelled -/
  | cancel (r : Request) (c : Controller ρ) (held : List Completion) :
      c.state.pending = some r →
      Disturbance ⟨c, false, held⟩ ⟨{ c with pool := c.pool.cancel r.ticket }, false, held⟩
  /-- a received completion is used elsewhere or thrown away -/
  | forget (x : Completion) (c : Controller ρ) (dropped : Bool)
      (before after : List Completion) :
      Disturbance ⟨c, dropped, before ++ x :: after⟩ ⟨c, dropped, before ++ after⟩

/-- Any number of steps. -/
abbrev Steps (settings : Settings) (m : Meaning ρ) : Holding ρ → Holding ρ → Prop :=
  Relation.ReflTransGen (Step settings m)

variable {settings : Settings} {m : Meaning ρ} {a b : Holding ρ}

/-- Whatever every step keeps, any number of steps keeps. -/
theorem Steps.induction {P : Holding ρ → Prop} (h : Steps settings m a b)
    (hstep : ∀ a b, Step settings m a b → P a → P b) (ha : P a) : P b := by
  induction h with
  | refl => exact ha
  | tail _ hlast ih => exact hstep _ _ hlast ih

/-! ## Steps and tasks -/

/-- To the tasks a step is a turn of one of them, a reply, or nothing that gets any of them
further. -/
theorem pool_step (hstep : Step settings m a b) :
    (∃ t, b.controller.pool = a.controller.pool.progress m t) ∨
    (∃ uri reply, b.controller.pool = (a.controller.pool.resolve uri reply).2) ∨
    (∃ t reply, b.controller.pool = (a.controller.pool.answer t reply).2) ∨
    a.controller.pool.Still b.controller.pool := by
  have hstill : a.controller.pool.Still b.controller.pool →
      (∃ t, b.controller.pool = a.controller.pool.progress m t) ∨
      (∃ uri reply, b.controller.pool = (a.controller.pool.resolve uri reply).2) ∨
      (∃ t reply, b.controller.pool = (a.controller.pool.answer t reply).2) ∨
      a.controller.pool.Still b.controller.pool := fun h => Or.inr (Or.inr (Or.inr h))
  cases hstep with
  | progress t c dropped held => exact Or.inl ⟨t, rfl⟩
  | resolve uri reply c dropped held => exact Or.inr (Or.inl ⟨uri, reply, rfl⟩)
  | answer t reply c dropped held => exact Or.inr (Or.inr (Or.inl ⟨t, reply, rfl⟩))
  | display _ _ c held => exact hstill (.refl _)
  | connect c held _ => exact hstill (.refl _)
  | disconnect c held _ =>
    rw [Controller.untrack_eq] at hstill ⊢
    exact hstill (Pool.still_cancelOf _ _)
  | untrack c held _ =>
    rw [Controller.untrack_eq] at hstill ⊢
    exact hstill (Pool.still_cancelOf _ _)
  | track d c held _ _ _ =>
    rw [Controller.track_eq] at hstill ⊢
    exact hstill ((Pool.still_cancelOf _ _).trans (Pool.still_start _ _ _))
  | receive x rest c held _ => exact hstill (.of_tasks_eq rfl rfl rfl)
  | accept x c before after _ _ => exact hstill (.refl _)
  | ignore x c before after _ => exact hstill (.refl _)
  | dispose c held _ =>
    rw [Controller.cancelPending_eq] at hstill ⊢
    exact hstill (Pool.still_cancelOf _ _)
  | drop c held =>
    rw [Controller.drop, Controller.cancelPending_eq] at hstill ⊢
    exact hstill ((Pool.still_cancelOf _ _).trans (.of_tasks_eq rfl rfl rfl))

/-- A disturbance gets no task further. -/
theorem still_disturb (hdisturbance : Disturbance a b) :
    a.controller.pool.Still b.controller.pool := by
  cases hdisturbance with
  | cancel r c held _ => exact Pool.still_cancel r.ticket c.pool
  | forget x c dropped before after => exact .refl _

/-! ## Transitions as steps -/

section Transitions

variable (c : Controller ρ) (held : List Completion)

theorem step_render : Step settings m ⟨c, false, held⟩ ⟨c.render, false, held⟩ :=
  .display c.state.showUncovered _ c held

theorem step_activate (d : Option Document) (hdisposed : c.disposed = false) :
    Step settings m ⟨c, false, held⟩ ⟨c.activate settings d, false, held⟩ := by
  unfold Controller.activate
  split
  · split
    · rename_i d heligible
      rw [Bool.and_eq_true] at heligible
      exact .track d c held hdisposed heligible.1 heligible.2
    · exact .untrack c held hdisposed
  · exact .untrack c held hdisposed

theorem steps_activated (d : Option Document) :
    Steps settings m ⟨c, false, held⟩ ⟨c.activated settings d, false, held⟩ := by
  unfold Controller.activated
  split
  · exact .refl
  · rename_i hdisposed
    exact .tail (.single (step_activate c held d (by simpa using hdisposed))) (step_render _ held)

theorem steps_connection (connected : Bool) (focus : Option Document) :
    Steps settings m ⟨c, false, held⟩ ⟨c.connection settings connected focus, false, held⟩ := by
  unfold Controller.connection
  split
  · exact .refl
  · rename_i hdisposed
    have hdisposed : c.disposed = false := by simpa using hdisposed
    refine Relation.ReflTransGen.tail ?_ (step_render _ held)
    cases connected with
    | false => exact .single (.disconnect c held hdisposed)
    | true =>
      have hconnect : Steps settings m ⟨c, false, held⟩
          ⟨{ c with state := { c.state with connected := true } }, false, held⟩ :=
        .single (.connect c held hdisposed)
      simp only [Bool.not_true, Bool.false_eq_true, if_false]
      split
      · exact hconnect.tail (step_activate _ held focus hdisposed)
      · exact hconnect

theorem steps_toggle : Steps settings m ⟨c, false, held⟩ ⟨c.toggle, false, held⟩ := by
  unfold Controller.toggle
  split
  · exact .refl
  · exact .single (.display (!c.state.showUncovered) _ c held)

/-- A completion that is handed over is applied or ignored. -/
theorem steps_computed (x : Completion) (before after : List Completion) :
    Steps settings m ⟨c, false, before ++ x :: after⟩
      ⟨(c.computed x).2, false, before ++ after⟩ := by
  rcases c.fresh_or_stale x with ⟨hdisposed, hfresh⟩ | hstale
  · rw [c.computed_of_fresh hdisposed hfresh]
    exact .tail (.single (.accept x c before after hdisposed hfresh)) (step_render _ _)
  · rw [c.computed_of_stale hstale]
    exact .single (.ignore x c before after hstale)

theorem steps_poll : Steps settings m ⟨c, false, held⟩ ⟨c.poll.2, false, held⟩ := by
  generalize hqueue : c.pool.completions = queue
  induction queue generalizing c with
  | nil =>
    rw [c.poll_of_nil hqueue]
  | cons x rest ih =>
    have hreceive : Steps settings m ⟨c, false, held⟩ ⟨c.requeue rest, false, held ++ [x]⟩ :=
      .single (.receive x rest c held hqueue)
    have hcomputed : Steps settings m ⟨c.requeue rest, false, held ++ [x]⟩
        ⟨((c.requeue rest).computed x).2, false, held ++ []⟩ :=
      steps_computed (c.requeue rest) x held []
    rw [List.append_nil] at hcomputed
    rw [c.poll_of_cons hqueue]
    exact (hreceive.trans hcomputed).trans (ih _ (Controller.completions_computed x _))

theorem steps_dispose : Steps settings m ⟨c, false, held⟩ ⟨c.dispose settings, false, held⟩ := by
  unfold Controller.dispose
  split
  · exact .refl
  · rename_i hdisposed
    exact .tail (.single (.dispose c held (by simpa using hdisposed)))
      (.display _ _ _ held)

theorem steps_run (dropped : Bool) :
    Steps settings m ⟨c, dropped, held⟩ ⟨c.run m, dropped, held⟩ := by
  have hprogress : ∀ t p,
      Steps settings m ⟨c, dropped, held⟩ ⟨{ c with pool := p }, dropped, held⟩ →
      Steps settings m ⟨c, dropped, held⟩ ⟨{ c with pool := p.progress m t }, dropped, held⟩ :=
    fun t p h => h.tail (.progress t { c with pool := p } dropped held)
  exact Pool.run_induction hprogress .refl

end Transitions

end Holding

/-! ## Moves as steps -/

/-- Whether a move leaves the pending request and the held completions to the controller. -/
def Move.isCalm : Move ρ → Bool
  | .cancelPending => false
  | .openHeld _ => false
  | .discard _ => false
  | _ => true

namespace Session

open Holding

variable {settings : Settings} {m : Meaning ρ} {move : Move ρ} {answer : Answer} {s s' : Session ρ}

/-- The controller of a session with the completions that are held. -/
def holding (s : Session ρ) : Holding ρ := ⟨s.controller, s.dropped, s.held.contents⟩

theorem operate_eq_some {f : Controller ρ → Answer × Controller ρ}
    (h : s.operate f = some (answer, s')) :
    s.dropped = false ∧ answer = (f s.controller).1 ∧
      s' = { s with controller := (f s.controller).2 } := by
  unfold operate at h
  split at h
  · cases h
  · rename_i hdropped
    simp only [Option.some.injEq, Prod.mk.injEq] at h
    exact ⟨by simpa using hdropped, h.1.symm, h.2.symm⟩

theorem steps_operate {f : Controller ρ → Answer × Controller ρ}
    (h : s.operate f = some (answer, s'))
    (hf : ∀ c held, Steps settings m ⟨c, false, held⟩ ⟨(f c).2, false, held⟩) :
    Steps settings m s.holding s'.holding := by
  obtain ⟨hdropped, _, rfl⟩ := operate_eq_some h
  unfold holding
  rw [hdropped]
  exact hf s.controller s.held.contents

theorem steps_receive (hdropped : s.dropped = false) :
    Steps settings m s.holding s.receive.2.holding := by
  unfold receive Controller.next Pool.receive holding
  cases hqueue : s.controller.pool.completions with
  | nil => exact .refl
  | cons x rest =>
    simp only [hdropped, Slots.contents_keep]
    exact .single (.receive x rest s.controller _ hqueue)

theorem steps_apply {slot : Nat} (h : s.play settings m (.apply slot) = some (answer, s')) :
    Steps settings m s.holding s'.holding := by
  simp only [play] at h
  split at h
  · cases h
  · rename_i x hslot
    obtain ⟨before, after, hcontents, hclear⟩ := Slots.contents_clear hslot
    obtain ⟨hdropped, _, rfl⟩ := operate_eq_some h
    simp only [holding, hcontents, hclear]
    have hdropped : s.dropped = false := hdropped
    rw [hdropped]
    exact steps_computed s.controller x before after

/-- A move that disturbs nothing is a sequence of steps. -/
theorem steps_play (hcalm : move.isCalm = true)
    (h : s.play settings m move = some (answer, s')) : Steps settings m s.holding s'.holding := by
  unfold play at h
  cases move with
  | connection connected => exact steps_operate h fun c held => steps_connection c held connected _
  | activate d => exact steps_operate h fun c held => steps_activated c held d
  | save d => exact steps_operate h fun c held => steps_activated c held (some d)
  | toggle => exact steps_operate h fun c held => steps_toggle c held
  | focus d =>
    cases h
    exact .refl
  | cancelPending => cases hcalm
  | poll => exact steps_operate h fun c held => steps_poll c held
  | progress t =>
    cases h
    exact .single (.progress t _ _ _)
  | run =>
    cases h
    exact steps_run _ _ _
  | settle =>
    exact steps_operate h fun c held => (steps_run c held false).trans (steps_poll (c.run m) held)
  | resolve uri reply =>
    cases h
    exact .single (.resolve uri reply _ _ _)
  | answer t reply =>
    cases h
    exact .single (.answer t reply _ _ _)
  | receive =>
    simp only at h
    split at h
    · cases h
    · rename_i hdropped
      have hreceive := Option.some.inj h
      have hsteps : Steps settings m s.holding s.receive.2.holding :=
        steps_receive (by simpa using hdropped)
      rw [hreceive] at hsteps
      exact hsteps
  | apply slot => exact steps_apply h
  | openHeld slot => cases hcalm
  | discard slot => cases hcalm
  | dispose => exact steps_operate h fun c held => steps_dispose c held
  | drop =>
    simp only at h
    split at h
    · cases h
      exact .refl
    · rename_i hdropped
      cases h
      have hdropped : s.dropped = false := by simpa using hdropped
      unfold holding
      rw [hdropped]
      exact .single (.drop _ _)

/-- Any other move changes nothing or is one disturbance. -/
theorem disturbance_play (hcalm : move.isCalm = false)
    (h : s.play settings m move = some (answer, s')) :
    s'.holding = s.holding ∨ Disturbance s.holding s'.holding := by
  unfold play at h
  cases move with
  | cancelPending =>
    obtain ⟨hdropped, _, rfl⟩ := operate_eq_some h
    simp only [holding, hdropped]
    cases hpending : s.controller.state.pending with
    | none => exact Or.inl rfl
    | some r => exact Or.inr (.cancel r s.controller _ hpending)
  | openHeld slot =>
    simp only at h
    split at h
    · cases h
    · rename_i x hslot
      obtain ⟨before, after, hcontents, hclear⟩ := Slots.contents_clear hslot
      cases h
      simp only [holding, hcontents, hclear]
      exact Or.inr (.forget x _ _ before after)
  | discard slot =>
    cases h
    cases hslot : s.held.get? slot with
    | none =>
      left
      simp only [holding, Slots.contents_clear_of_none hslot]
    | some x =>
      obtain ⟨before, after, hcontents, hclear⟩ := Slots.contents_clear hslot
      simp only [holding, hcontents, hclear]
      exact Or.inr (.forget x _ _ before after)
  | _ => cases hcalm

/-! ## Whole sessions -/

/-- The session after a move, or as it is if the move cannot be played. -/
def after (settings : Settings) (m : Meaning ρ) (move : Move ρ) (s : Session ρ) : Session ρ :=
  ((s.play settings m move).map Prod.snd).getD s

theorem playAll_cons (settings : Settings) (m : Meaning ρ) (move : Move ρ) (moves : List (Move ρ))
    (s : Session ρ) :
    s.playAll settings m (move :: moves) = (s.after settings m move).playAll settings m moves :=
  rfl

theorem after_of_play (h : s.play settings m move = some (answer, s')) :
    s.after settings m move = s' := by
  rw [after, h]
  rfl

theorem after_of_none (h : s.play settings m move = none) : s.after settings m move = s := by
  rw [after, h]
  rfl

theorem playAll_append (settings : Settings) (m : Meaning ρ) (before after : List (Move ρ))
    (s : Session ρ) :
    s.playAll settings m (before ++ after) =
      (s.playAll settings m before).playAll settings m after :=
  List.foldl_append

theorem playAll_concat (settings : Settings) (m : Meaning ρ) (moves : List (Move ρ))
    (move : Move ρ) (s : Session ρ) :
    s.playAll settings m (moves ++ [move]) = (s.playAll settings m moves).after settings m move :=
  playAll_append settings m moves [move] s

/-- Whatever every move that can be played keeps, every session keeps. -/
theorem playAll_induction {P : Session ρ → Prop} (moves : List (Move ρ))
    (hplay : ∀ s s' move answer, move ∈ moves → s.play settings m move = some (answer, s') →
      P s → P s')
    (h : P s) : P (s.playAll settings m moves) := by
  induction moves generalizing s with
  | nil => exact h
  | cons move moves ih =>
    refine ih (fun s s' other answer hother => hplay s s' other answer (.tail move hother)) ?_
    show P (((s.play settings m move).map Prod.snd).getD s)
    cases hmove : s.play settings m move with
    | none => exact h
    | some result => exact hplay s result.2 move result.1 List.mem_cons_self hmove h

/-- Whatever every step and every disturbance keeps, every session keeps. -/
theorem playAll_keeps {P : Holding ρ → Prop} (moves : List (Move ρ))
    (hstep : ∀ a b, Step settings m a b → P a → P b)
    (hdisturbance : ∀ a b, Disturbance a b → P a → P b)
    (h : P s.holding) : P (s.playAll settings m moves).holding := by
  refine playAll_induction (P := fun s => P s.holding) moves ?_ h
  intro s s' move answer _ hplay hs
  cases hcalm : move.isCalm with
  | true => exact (steps_play hcalm hplay).induction hstep hs
  | false =>
    rcases disturbance_play hcalm hplay with hsame | hdisturbed
    · rw [hsame]
      exact hs
    · exact hdisturbance _ _ hdisturbed hs

/-- Without moves that disturb, whatever every step keeps, every session keeps. -/
theorem playAll_keeps_of_calm {P : Holding ρ → Prop} {moves : List (Move ρ)}
    (hcalm : ∀ move ∈ moves, move.isCalm = true)
    (hstep : ∀ a b, Step settings m a b → P a → P b)
    (h : P s.holding) : P (s.playAll settings m moves).holding := by
  refine playAll_induction (P := fun s => P s.holding) moves ?_ h
  intro s s' move answer hmove hplay hs
  exact (steps_play (hcalm move hmove) hplay).induction hstep hs

end Session

end CoverageTracker
