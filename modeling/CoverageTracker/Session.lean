import CoverageTracker.Controller
import CoverageTracker.Slots
set_option autoImplicit false

/-!
# Controller sessions

A controller among those who use it: the editor with its focus, a host that may hold
completions back, the tasks, and the backend.  A session is a list of moves; each move is
one operation of the controller, one step of a task or one reply of the backend, and they
may come in any order.
-/

namespace CoverageTracker

/-- What can happen to a controller. -/
inductive Move (ρ : Type) where
  /-- the backend becomes available or unavailable -/
  | connection (connected : Bool)
  /-- the editor's active document changes -/
  | activate (d : Option Document)
  /-- a document is saved -/
  | save (d : Document)
  /-- the display of uncovered ranges is switched -/
  | toggle
  /-- the document that a reconnect would find in focus changes -/
  | focus (d : Option Document)
  /-- somebody cancels the pending request without telling the controller -/
  | cancelPending
  /-- every queued completion is received -/
  | poll
  /-- one task takes a step -/
  | progress (t : Ticket)
  /-- all tasks go on as far as they can -/
  | run
  /-- all tasks go on as far as they can, and every queued completion is received -/
  | settle
  /-- the backend replies -/
  | resolve (uri : String) (reply : ρ)
  /-- the backend replies to one task, whatever the place of its call -/
  | answer (t : Ticket) (reply : ρ)
  /-- the oldest completion is received and held -/
  | receive
  /-- a held completion is applied -/
  | apply (slot : Nat)
  /-- a held completion is opened elsewhere -/
  | openHeld (slot : Nat)
  /-- a held completion is thrown away -/
  | discard (slot : Nat)
  /-- the controller is disposed of -/
  | dispose
  /-- the controller is given up -/
  | drop

/-- What a move answers. -/
inductive Answer where
  | nothing
  | flag (b : Bool)
  | count (n : Nat)
  /-- a completion, and the slot that holds it now -/
  | received (slot : Nat) (c : Completion)
  /-- what a completion yields; nothing once it was cancelled -/
  | opened (content : Option (Document × Option Coverage))
  deriving Repr

/-- A controller and what surrounds it. -/
structure Session (ρ : Type) where
  controller : Controller ρ
  /-- whether the controller was given up -/
  dropped : Bool
  focus : Option Document
  held : Slots
  deriving Repr

namespace Session

variable {ρ : Type}

/-- The start of a session. -/
def create (showUncovered : Bool) : Session ρ :=
  ⟨Controller.create showUncovered, false, none, Slots.empty⟩

/-- An operation of the controller; none once it was given up. -/
def operate (f : Controller ρ → Answer × Controller ρ) (s : Session ρ) :
    Option (Answer × Session ρ) :=
  if s.dropped then none
  else
    let (answer, controller) := f s.controller
    some (answer, { s with controller })

/-- Receives the oldest completion and holds it. -/
def receive (s : Session ρ) : Answer × Session ρ :=
  match s.controller.next with
  | (none, controller) => (.nothing, { s with controller })
  | (some c, controller) =>
    let (slot, held) := s.held.keep c
    (.received slot c, { s with controller, held })

/-- Plays a move.  None if it names an empty slot, or needs a controller that was given up. -/
def play (settings : Settings) (m : Meaning ρ) (move : Move ρ) (s : Session ρ) :
    Option (Answer × Session ρ) :=
  match move with
  | .connection connected =>
    s.operate fun c => (.nothing, c.connection settings connected s.focus)
  | .activate d => s.operate fun c => (.nothing, c.activated settings d)
  | .save d => s.operate fun c => (.nothing, c.saved settings d)
  | .toggle => s.operate fun c => (.nothing, c.toggle)
  | .focus d => some (.nothing, { s with focus := d })
  | .cancelPending => s.operate fun c =>
    match c.state.pending with
    | some r => (.nothing, { c with pool := c.pool.cancel r.ticket })
    | none => (.flag false, c)
  | .poll => s.operate fun c =>
    let (n, c) := c.poll
    (.count n, c)
  | .progress t => some (.nothing, { s with controller := s.controller.progress m t })
  | .run => some (.nothing, { s with controller := s.controller.run m })
  | .settle => s.operate fun c =>
    let (n, c) := (c.run m).poll
    (.count n, c)
  | .resolve uri reply =>
    let (handed, controller) := s.controller.resolve uri reply
    some (.flag handed, { s with controller })
  | .answer t reply =>
    let (handed, controller) := s.controller.answer t reply
    some (.flag handed, { s with controller })
  | .receive => if s.dropped then none else some s.receive
  | .apply slot =>
    match s.held.get? slot with
    | none => none
    | some completion => { s with held := s.held.clear slot }.operate fun c =>
      let (applied, c) := c.computed completion
      (.flag applied, c)
  | .openHeld slot =>
    match s.held.get? slot with
    | none => none
    | some completion =>
      some (.opened (s.controller.pool.openCompletion completion),
        { s with held := s.held.clear slot })
  | .discard slot =>
    some (.flag (s.held.get? slot).isSome, { s with held := s.held.clear slot })
  | .dispose => s.operate fun c => (.nothing, c.dispose settings)
  | .drop =>
    if s.dropped then some (.nothing, s)
    else some (.nothing, { s with controller := s.controller.drop, dropped := true })

/-- Plays moves one after another; a move that cannot be played is passed over. -/
def playAll (settings : Settings) (m : Meaning ρ) (moves : List (Move ρ)) (s : Session ρ) :
    Session ρ :=
  moves.foldl (fun s move => ((s.play settings m move).map Prod.snd).getD s) s

end Session

end CoverageTracker
