import CoverageTracker.Request
set_option autoImplicit false

/-!
# A backend that answers on demand

Calls and replies meet per URI, first in, first out.  A call takes the oldest reply that is
ready, or waits; a reply goes to the oldest call that waits and is still awaited, or is
kept ready.  A call that nobody awaits any more stays in line until a reply comes to it,
and is then passed over.
-/

namespace CoverageTracker

/-- A call without a reply. -/
structure Call where
  uri : String
  caller : Ticket
  /-- whether the caller still awaits a reply -/
  awaited : Bool
  deriving DecidableEq, Repr

/-- The replies that no call has taken and the calls that no reply has come to, both in the
order in which they came. -/
structure Backend (ρ : Type) where
  ready : List (String × ρ)
  waiting : List Call
  deriving Repr

namespace Backend

variable {ρ : Type}

/-- Nothing ready and nobody waiting. -/
def empty : Backend ρ := ⟨[], []⟩

/-- Takes the oldest reply for a URI out of a line of replies. -/
def takeReady (uri : String) : List (String × ρ) → Option ρ × List (String × ρ)
  | [] => (none, [])
  | (u, r) :: rest =>
    if u = uri then (some r, rest)
    else
      let (found, left) := takeReady uri rest
      (found, (u, r) :: left)

/-- Takes the oldest awaited call for a URI out of a line of calls, and those before it that
are not awaited. -/
def takeAwaited (uri : String) : List Call → Option Ticket × List Call
  | [] => (none, [])
  | c :: rest =>
    if c.uri = uri then
      if c.awaited then (some c.caller, rest) else takeAwaited uri rest
    else
      let (found, left) := takeAwaited uri rest
      (found, c :: left)

/-- A call: its reply if one is ready, and otherwise the call waits. -/
def call (uri : String) (caller : Ticket) (b : Backend ρ) : Option ρ × Backend ρ :=
  match takeReady uri b.ready with
  | (some r, ready) => (some r, { b with ready })
  | (none, _) => (none, { b with waiting := b.waiting ++ [⟨uri, caller, true⟩] })

/-- A reply: the caller it is handed to, and if there is none the reply is kept. -/
def settle (uri : String) (reply : ρ) (b : Backend ρ) : Option Ticket × Backend ρ :=
  match takeAwaited uri b.waiting with
  | (some caller, waiting) => (some caller, { b with waiting })
  | (none, waiting) => (none, ⟨b.ready ++ [(uri, reply)], waiting⟩)

/-- The caller stops waiting. -/
def abandon (caller : Ticket) (b : Backend ρ) : Backend ρ :=
  { b with waiting := b.waiting.map fun c =>
      if c.caller = caller then { c with awaited := false } else c }

/-- The call of a caller leaves the line. -/
def withdraw (caller : Ticket) (b : Backend ρ) : Backend ρ :=
  { b with waiting := b.waiting.filter fun c => c.caller != caller }

/-- How many calls are waiting and awaited. -/
def live (b : Backend ρ) : Nat := b.waiting.countP Call.awaited

end Backend

end CoverageTracker
