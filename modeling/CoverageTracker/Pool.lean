import CoverageTracker.Backend
set_option autoImplicit false

/-!
# The pool of computations

Every started request is a task.  A task calls the backend once, awaits its reply, and
leaves a completion in the queue of completions, at most one and only if it was not
cancelled by then.  A task that was cancelled ends at its next step, without a completion
and without a warning; cancelling wakes it.

`progress` is one step of one task and may be taken for any task at any time, so every
interleaving is a list of tickets.  `run` takes the steps of the runnable tasks in the
order in which they were started or woken, until none can go on.

The pool is generic in what the backend replies; `Meaning` says what a reply comes to.
-/

namespace CoverageTracker

/-- What replies mean. -/
structure Meaning (ρ : Type) where
  /-- the outcome that the reply stands for -/
  outcome : ρ → Outcome
  /-- a request that is cancelled at the moment the reply is taken -/
  cancels : ρ → Option Ticket

/-- Replies that are outcomes. -/
def Meaning.direct : Meaning Outcome := ⟨id, fun _ => none⟩

/-- How far a task has come. -/
inductive Phase (ρ : Type) where
  /-- it has not called the backend -/
  | queued
  /-- it awaits a reply -/
  | waiting
  /-- a reply has come -/
  | answered (reply : ρ)
  /-- it has ended -/
  | done
  deriving DecidableEq, Repr

/-- A computation. -/
structure Task (ρ : Type) where
  id : RequestId
  document : Document
  cancelled : Bool
  phase : Phase ρ
  deriving Repr

/-- The handle on the task of a ticket. -/
def Task.request {ρ : Type} (t : Ticket) (task : Task ρ) : Request := ⟨t, task.id, task.document⟩

/-- A reply that a task took. -/
structure Arrival (ρ : Type) where
  request : Request
  reply : ρ
  /-- whether the request was cancelled by then -/
  cancelled : Bool
  deriving Repr

/-- Tasks by ticket, with the backend that they call and the queue that their completions go
to.  `calls`, `arrivals` and `warnings` keep who called the backend, which replies were taken
and who failed, in order. -/
structure Pool (ρ : Type) where
  tasks : List (Task ρ)
  /-- the tasks that can go on, in the order of their turns -/
  runnable : List Ticket
  backend : Backend ρ
  completions : List Completion
  /-- whether anybody can still receive completions -/
  isOpen : Bool
  calls : List Request
  arrivals : List (Arrival ρ)
  warnings : List Warning
  deriving Repr

namespace Pool

variable {ρ : Type}

/-- No tasks. -/
def empty : Pool ρ := ⟨[], [], Backend.empty, [], true, [], [], []⟩

/-! ## Handles -/

/-- Whether a task was cancelled. -/
def isCancelled (t : Ticket) (p : Pool ρ) : Bool := (p.tasks[t]?.map Task.cancelled).getD false

/-- Gives a task its turn, unless it has one coming. -/
def wake (t : Ticket) (p : Pool ρ) : Pool ρ :=
  { p with runnable := if t ∈ p.runnable then p.runnable else p.runnable ++ [t] }

/-- Changes a task. -/
def modify (t : Ticket) (f : Task ρ → Task ρ) (p : Pool ρ) : Pool ρ :=
  { p with tasks := p.tasks.modify t f }

/-- Whether a task is still to end. -/
def isUnfinished (task : Task ρ) : Bool :=
  match task.phase with
  | .done => false
  | _ => true

/-- Starts a computation; its task waits for its first turn. -/
def start (id : RequestId) (document : Document) (p : Pool ρ) : Request × Pool ρ :=
  let ticket := p.tasks.length
  (⟨ticket, id, document⟩,
    { p with
      tasks := p.tasks ++ [⟨id, document, false, .queued⟩]
      runnable := p.runnable ++ [ticket] })

/-- Cancels a computation, now and for good; a task that has not ended gets a turn to end. -/
def cancel (t : Ticket) (p : Pool ρ) : Pool ρ :=
  { p.modify t fun task => { task with cancelled := true } with
    runnable := if p.tasks[t]?.any isUnfinished then (p.wake t).runnable else p.runnable }

/-! ## Replies -/

/-- Hands a reply to a task, which gets a turn. -/
def hand (t : Ticket) (reply : ρ) (p : Pool ρ) : Pool ρ :=
  (p.modify t fun task => { task with phase := .answered reply }).wake t

/-- A reply of the backend: handed to the oldest call that is awaited, or kept.  True if it was
handed over. -/
def resolve (uri : String) (reply : ρ) (p : Pool ρ) : Bool × Pool ρ :=
  match p.backend.settle uri reply with
  | (some t, backend) => (true, ({ p with backend } : Pool ρ).hand t reply)
  | (none, backend) => (false, { p with backend })

/-- A reply of a backend that keeps no line: handed to the task it is for, whatever the place
of its call.  False if that task awaits no reply. -/
def answer (t : Ticket) (reply : ρ) (p : Pool ρ) : Bool × Pool ρ :=
  match p.tasks[t]?.map Task.phase with
  | some .waiting => (true, ({ p with backend := p.backend.withdraw t } : Pool ρ).hand t reply)
  | _ => (false, p)

/-! ## Steps of tasks -/

/-- Ends a task. -/
def finish (t : Ticket) (p : Pool ρ) : Pool ρ := p.modify t fun task => { task with phase := .done }

/-- Queues a completion, if anybody can still receive it. -/
def complete (c : Completion) (p : Pool ρ) : Pool ρ :=
  { p with completions := if p.isOpen then p.completions ++ [c] else p.completions }

/-- Warns of a failure. -/
def warn (r : Request) (outcome : Outcome) (p : Pool ρ) : Pool ρ :=
  { p with warnings := match outcome with
      | .ok _ => p.warnings
      | .error e => p.warnings ++ [⟨r, e⟩] }

/-- Cancels the request that a reply cancels, if there is one. -/
def heed (m : Meaning ρ) (reply : ρ) (p : Pool ρ) : Pool ρ :=
  match m.cancels reply with
  | some other => p.cancel other
  | none => p

/-- The last step of a task that has its reply: a completion unless it is cancelled by now,
and a warning if the reply is a failure. -/
def takeReply (m : Meaning ρ) (t : Ticket) (task : Task ρ) (reply : ρ) (p : Pool ρ) : Pool ρ :=
  let p := (p.finish t).heed m reply
  let late := p.isCancelled t
  let p := { p with arrivals := p.arrivals ++ [⟨task.request t, reply, late⟩] }
  if late then p
  else
    (p.warn (task.request t) (m.outcome reply)).complete
      ⟨task.request t, Outcome.coverage (m.outcome reply)⟩

/-- The first step of a task: it calls the backend. -/
def callBackend (m : Meaning ρ) (t : Ticket) (task : Task ρ) (p : Pool ρ) : Pool ρ :=
  let p := { p with calls := p.calls ++ [task.request t] }
  match p.backend.call task.document.uri.text t with
  | (some reply, backend) => ({ p with backend } : Pool ρ).takeReply m t task reply
  | (none, backend) => ({ p with backend } : Pool ρ).modify t fun task =>
      { task with phase := .waiting }

/-- One step of a task. -/
def step (m : Meaning ρ) (t : Ticket) (task : Task ρ) (p : Pool ρ) : Pool ρ :=
  match task.phase, task.cancelled with
  | .done, _ => p
  | .queued, true => p.finish t
  | .queued, false => p.callBackend m t task
  | .waiting, true => ({ p with backend := p.backend.abandon t } : Pool ρ).finish t
  | .waiting, false => p
  | .answered _, true => p.finish t
  | .answered reply, false => p.takeReply m t task reply

/-- The turn of a task. -/
def progress (m : Meaning ρ) (t : Ticket) (p : Pool ρ) : Pool ρ :=
  match p.tasks[t]? with
  | none => p
  | some task => step m t task { p with runnable := p.runnable.erase t }

/-! ## Running -/

/-- An upper bound of the turns that are left: a task that ends gives at most one other task a
turn. -/
def budget (p : Pool ρ) : Nat := p.runnable.length + 2 * p.tasks.countP isUnfinished

/-- Takes up to `n` turns. -/
def turns (m : Meaning ρ) : Nat → Pool ρ → Pool ρ
  | 0, p => p
  | n + 1, p =>
    match p.runnable with
    | [] => p
    | t :: _ => turns m n (p.progress m t)

/-- Takes turns until no task can go on. -/
def run (m : Meaning ρ) (p : Pool ρ) : Pool ρ := p.turns m p.budget

/-! ## Receiving -/

/-- Takes the oldest completion. -/
def receive (p : Pool ρ) : Option Completion × Pool ρ :=
  match p.completions with
  | [] => (none, p)
  | c :: rest => (some c, { p with completions := rest })

/-- Nobody receives completions any more. -/
def close (p : Pool ρ) : Pool ρ := { p with completions := [], isOpen := false }

/-- What a completion yields: its document and result, or nothing once it is cancelled. -/
def openCompletion (c : Completion) (p : Pool ρ) : Option (Document × Option Coverage) :=
  if p.isCancelled c.request.ticket then none else some (c.request.document, c.result)

end Pool

end CoverageTracker
