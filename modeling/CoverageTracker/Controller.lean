import CoverageTracker.Pool
import CoverageTracker.State
set_option autoImplicit false

/-!
# The controller

Keeps the state of the tracked document up to date and both views consistent with it.
Every transition changes the state as a whole and then renders it once: the status, then
the diagnostics.

At most one computation counts at a time, the pending one.  Whatever replaces or drops it
cancels it first, and a completion is applied only if its computation was never
cancelled; so no completion is applied late, in whatever order completions arrive.
-/

namespace CoverageTracker

/-- What the views are told. -/
inductive SinkCall where
  /-- the status to show, if any -/
  | status (s : Option Status)
  /-- remove all diagnostics -/
  | clear
  /-- the diagnostics of a document -/
  | publish (uri : Uri) (diagnostics : List Diagnostic)
  /-- release the store of diagnostics -/
  | dispose
  deriving DecidableEq, Repr

/-- What the two views are told when a state is rendered. -/
def State.render (s : State) : List SinkCall :=
  [.status s.status, .clear] ++
    match s.diagnostics with
    | some (uri, ds) => [.publish uri ds]
    | none => []

/-- The surroundings of a controller that never change. -/
structure Settings where
  /-- which documents are tracked -/
  eligible : Document → Bool
  /-- what the store of diagnostics is told when the controller is disposed of -/
  release : SinkCall

/-- A controller with its pool of computations.  `sinks` is all that the views were told and
`applied` the completions that were applied, both in order. -/
structure Controller (ρ : Type) where
  state : State
  /-- how many requests were issued, fewer than `2 ^ 64`; the last one has this number -/
  issued : Nat
  disposed : Bool
  pool : Pool ρ
  sinks : List SinkCall
  applied : List Completion
  deriving Repr

namespace Controller

variable {ρ : Type}

/-- A controller that was told nothing yet. -/
def create (showUncovered : Bool) : Controller ρ :=
  ⟨State.fresh showUncovered, 0, false, Pool.empty, [], []⟩

/-! ## Parts of transitions -/

/-- Tells the views the state. -/
def render (c : Controller ρ) : Controller ρ := { c with sinks := c.sinks ++ c.state.render }

/-- Cancels the pending computation, if there is one. -/
def cancelPending (c : Controller ρ) : Controller ρ :=
  match c.state.pending with
  | some r => { c with state := { c.state with pending := none }, pool := c.pool.cancel r.ticket }
  | none => c

/-- Starts the computation of a document under the next number. -/
def issue (d : Document) (c : Controller ρ) : Request × Controller ρ :=
  let (request, pool) := c.pool.start ⟨c.issued + 1⟩ d
  (request, { c with issued := c.issued + 1, pool })

/-- Tracks a document: a new computation replaces the pending one.  The last result is kept if
it is of the same document. -/
def track (d : Document) (c : Controller ρ) : Controller ρ :=
  let (request, c) := c.cancelPending.issue d
  let coverage := if c.state.active.any (Document.same · d) then c.state.coverage else none
  { c with state := { c.state with active := some d, coverage, pending := some request } }

/-- Tracks no document. -/
def untrack (c : Controller ρ) : Controller ρ :=
  let c := c.cancelPending
  { c with state := { c.state with active := none, coverage := none } }

/-- Tracks the given document if it is eligible and the backend is available, and otherwise
none. -/
def activate (s : Settings) (d : Option Document) (c : Controller ρ) : Controller ρ :=
  match d with
  | some d => if c.state.connected && s.eligible d then c.track d else c.untrack
  | none => c.untrack

/-! ## Transitions -/

/-- The editor's active document changed. -/
def activated (s : Settings) (d : Option Document) (c : Controller ρ) : Controller ρ :=
  if c.disposed then c else (c.activate s d).render

/-- A document was saved. -/
def saved (s : Settings) (d : Document) (c : Controller ρ) : Controller ρ := c.activated s (some d)

/-- The backend became available or unavailable.  On a reconnect the document that has the
focus is tracked, for nothing computed before can be trusted. -/
def connection (s : Settings) (connected : Bool) (focus : Option Document) (c : Controller ρ) :
    Controller ρ :=
  if c.disposed then c
  else
    let before := c.state.connected
    let c := { c with state := { c.state with connected } }
    let c :=
      if !connected then c.activate s none
      else if !before && focus.isSome then c.activate s focus
      else c
    c.render

/-- The user switched the display of uncovered ranges. -/
def toggle (c : Controller ρ) : Controller ρ :=
  if c.disposed then c
  else { c with state := { c.state with showUncovered := !c.state.showUncovered } }.render

/-- A computation finished.  True if its completion was applied. -/
def computed (completion : Completion) (c : Controller ρ) : Bool × Controller ρ :=
  if c.disposed then (false, c)
  else
    match c.pool.openCompletion completion with
    | none => (false, c)
    | some (_, result) =>
      (true, { c with
        state := { c.state with pending := none, coverage := result }
        applied := c.applied ++ [completion] }.render)

/-- Applies one completion and counts those that were applied. -/
def count (acc : Nat × Controller ρ) (completion : Completion) : Nat × Controller ρ :=
  let (applied, c) := acc.2.computed completion
  (if applied then acc.1 + 1 else acc.1, c)

/-- Receives every completion that is queued.  The answer is how many were applied. -/
def poll (c : Controller ρ) : Nat × Controller ρ :=
  c.pool.completions.foldl count (0, { c with pool := { c.pool with completions := [] } })

/-- Receives the oldest completion without applying it. -/
def next (c : Controller ρ) : Option Completion × Controller ρ :=
  let (completion, pool) := c.pool.receive
  (completion, { c with pool })

/-- Ends the tracking for good. -/
def dispose (s : Settings) (c : Controller ρ) : Controller ρ :=
  if c.disposed then c
  else
    let c := { c with disposed := true }.cancelPending
    { c with sinks := c.sinks ++ [s.release] }

/-- Gives the controller up: the pending computation is cancelled and no completion is
received any more. -/
def drop (c : Controller ρ) : Controller ρ :=
  let c := c.cancelPending
  { c with pool := c.pool.close }

/-! ## The world around -/

/-- A step of a computation. -/
def progress (m : Meaning ρ) (t : Ticket) (c : Controller ρ) : Controller ρ :=
  { c with pool := c.pool.progress m t }

/-- Lets all computations go on as far as they can. -/
def run (m : Meaning ρ) (c : Controller ρ) : Controller ρ := { c with pool := c.pool.run m }

/-- A reply of the backend. -/
def resolve (uri : String) (reply : ρ) (c : Controller ρ) : Bool × Controller ρ :=
  let (handed, pool) := c.pool.resolve uri reply
  (handed, { c with pool })

/-- A reply of the backend to one task, whatever the place of its call. -/
def answer (t : Ticket) (reply : ρ) (c : Controller ρ) : Bool × Controller ρ :=
  let (handed, pool) := c.pool.answer t reply
  (handed, { c with pool })

end Controller

end CoverageTracker
