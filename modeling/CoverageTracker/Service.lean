import CoverageTracker.Controller
import CoverageTracker.Watch
set_option autoImplicit false

/-!
# The service

Feeds a controller from three sources: the events of the host, the connectivity of the
backend, and the queue of completions.  Whenever several of them are ready the service may
take any, so a step of it is named by its branch.  It ends on a shutdown, when the host
closes the queue of events, and when nobody can change the connectivity any more; however
it ends, it disposes of the controller.

`settle` is one schedule among those: the service handles what is ready before any task
goes on.
-/

namespace CoverageTracker

/-- What the host reports. -/
inductive HostEvent where
  /-- the focus moved; none when no document has it -/
  | active (d : Option Document)
  /-- a document was saved -/
  | saved (d : Document)
  /-- the user switched the display of uncovered ranges -/
  | toggle
  /-- the host ends -/
  | shutdown
  deriving DecidableEq, Repr

/-- Who publishes the connectivity. -/
inductive Link where
  /-- every value is a notification, and none can be published once nobody watches -/
  | raw
  /-- only a change of the value is a notification -/
  | status
  deriving DecidableEq, Repr

/-- What the service can wait for. -/
inductive Branch where
  | event
  | connection
  | completion
  deriving DecidableEq, Repr

/-- Why a service ended. -/
inductive Ending where
  /-- the host reported its end -/
  | shutdown
  /-- the host closed the queue of events -/
  | eventsClosed
  /-- nobody can publish the connectivity any more -/
  | connectionClosed
  deriving DecidableEq, Repr

/-- A service with its sources. -/
structure Service (ρ : Type) where
  controller : Controller ρ
  /-- events that were sent and not yet handled -/
  events : List HostEvent
  /-- whether more events can be sent -/
  eventsOpen : Bool
  link : Link
  connection : Watch
  /-- the version of the connectivity that the service has seen -/
  seen : Nat
  /-- whether the connectivity can still be published -/
  connectionOpen : Bool
  /-- the document that the host has in focus -/
  focus : Option Document
  /-- why the service ended; none while it runs -/
  ended : Option Ending
  deriving Repr

namespace Service

variable {ρ : Type}

/-- Whether the service has not ended. -/
def isRunning (v : Service ρ) : Bool := v.ended.isNone

/-- Applies the connectivity as it is now. -/
def readConnection (s : Settings) (v : Service ρ) : Service ρ :=
  { v with
    seen := v.connection.version
    controller := v.controller.connection s v.connection.value v.focus }

/-- Starts a service: the connectivity at the start is applied before anything else. -/
def create (s : Settings) (link : Link) (connected : Bool) (focus : Option Document)
    (c : Controller ρ) : Service ρ :=
  readConnection s ⟨c, [], true, link, Watch.create connected, 0, true, focus, none⟩

/-! ## The sources -/

/-- The host sends an event; false if nobody receives it. -/
def send (e : HostEvent) (v : Service ρ) : Bool × Service ρ :=
  if v.isRunning && v.eventsOpen then (true, { v with events := v.events ++ [e] }) else (false, v)

/-- The connectivity is published; none if that is no longer possible.  The answer of a raw
link is whether anybody watches, that of a status the connectivity. -/
def publish (connected : Bool) (v : Service ρ) : Option (Bool × Service ρ) :=
  if !v.connectionOpen then none
  else
    match v.link with
    | .raw =>
      if v.isRunning then some (true, { v with connection := v.connection.send connected })
      else some (false, v)
    | .status =>
      let connection := v.connection.sendIfChanged connected
      some (connection.value, { v with connection })

/-- No more events can be sent. -/
def closeEvents (v : Service ρ) : Service ρ := { v with eventsOpen := false }

/-- The connectivity cannot be published any more. -/
def closeConnection (v : Service ρ) : Service ρ := { v with connectionOpen := false }

/-- The focus of the host moves. -/
def focusOn (d : Option Document) (v : Service ρ) : Service ρ := { v with focus := d }

/-- A reply of the backend. -/
def resolve (uri : String) (reply : ρ) (v : Service ρ) : Bool × Service ρ :=
  let (handed, controller) := v.controller.resolve uri reply
  (handed, { v with controller })

/-- A step of a computation. -/
def progress (m : Meaning ρ) (t : Ticket) (v : Service ρ) : Service ρ :=
  { v with controller := v.controller.progress m t }

/-! ## Steps of the service -/

/-- Ends the service. -/
def stop (s : Settings) (why : Ending) (v : Service ρ) : Service ρ :=
  { v with controller := v.controller.dispose s, events := [], ended := some why }

/-- Handles an event. -/
def handle (s : Settings) (e : HostEvent) (v : Service ρ) : Service ρ :=
  match e with
  | .active d => { v with controller := v.controller.activated s d }
  | .saved d => { v with controller := v.controller.saved s d }
  | .toggle => { v with controller := v.controller.toggle }
  | .shutdown => v.stop s .shutdown

/-- Takes a branch; none if it is not ready.  All events are received before the end of their
queue is, and the latest connectivity is seen before its end is. -/
def take (s : Settings) (b : Branch) (v : Service ρ) : Option (Service ρ) :=
  if !v.isRunning then none
  else
    match b with
    | .event =>
      match v.events with
      | e :: rest => some ({ v with events := rest }.handle s e)
      | [] => if v.eventsOpen then none else some (v.stop s .eventsClosed)
    | .connection =>
      if v.seen ≠ v.connection.version then some (v.readConnection s)
      else if v.connectionOpen then none
      else some (v.stop s .connectionClosed)
    | .completion =>
      match v.controller.next with
      | (some completion, c) => some { v with controller := (c.computed completion).2 }
      | (none, _) => none

/-! ## A schedule -/

/-- Takes the first branch that is ready. -/
def takeFirst (s : Settings) (v : Service ρ) : Option (Service ρ) :=
  v.take s .event <|> v.take s .connection <|> v.take s .completion

/-- Up to `n` rounds: in each the service takes a step, or if it cannot all tasks go on as far
as they can. -/
def rounds (s : Settings) (m : Meaning ρ) : Nat → Service ρ → Service ρ
  | 0, v => v
  | n + 1, v =>
    match v.takeFirst s with
    | some v => rounds s m n v
    | none =>
      if v.controller.pool.runnable.isEmpty then v
      else rounds s m n { v with controller := v.controller.run m }

/-- An upper bound of the rounds that are left.  Each event and each notification may start
one task, each task leaves one completion, and the tasks go on at most once between two
steps of the service. -/
def budget (v : Service ρ) : Nat :=
  2 * (2 * v.events.length + v.controller.pool.tasks.length +
    v.controller.pool.completions.length + 4)

/-- Lets the service and the tasks go on until none of them can. -/
def settle (s : Settings) (m : Meaning ρ) (v : Service ρ) : Service ρ := v.rounds s m v.budget

end Service

end CoverageTracker
