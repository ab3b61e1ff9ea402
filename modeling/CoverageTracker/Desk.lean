import CoverageTracker.Pool
import CoverageTracker.Slots
set_option autoImplicit false

/-!
# Requests by name

Requests without a controller: any number of them, under names of the caller's choice and
with numbers of the caller's choice, over one backend and one queue of completions.
Dropping a handle forgets the name and nothing else.
-/

namespace CoverageTracker

/-- A reply that cancels the request of a name at the moment it is taken. -/
structure Cued (ρ : Type) where
  reply : ρ
  cancels : Option String
  deriving Repr

/-- A pool with named handles and held completions. -/
structure Desk (ρ : Type) where
  pool : Pool (Cued ρ)
  names : List (String × Request)
  held : Slots
  deriving Repr

namespace Desk

variable {ρ : Type}

/-- No requests. -/
def empty : Desk ρ := ⟨Pool.empty, [], Slots.empty⟩

/-- The handle of a name. -/
def named? (name : String) (d : Desk ρ) : Option Request :=
  (d.names.find? fun e => e.1 == name).map Prod.snd

/-- What cued replies mean: the reply's own meaning, and whom the name stands for. -/
def meaning (m : Meaning ρ) (d : Desk ρ) : Meaning (Cued ρ) :=
  ⟨fun c => m.outcome c.reply, fun c => (c.cancels.bind d.named?).map Request.ticket⟩

/-- Starts a request under a name, which an earlier request of that name loses. -/
def start (name : String) (id : RequestId) (document : Document) (d : Desk ρ) :
    Request × Desk ρ :=
  let (request, pool) := d.pool.start id document
  (request, { d with pool, names := (name, request) :: d.names.filter fun e => e.1 != name })

/-- Cancels the request of a name. -/
def cancel (name : String) (d : Desk ρ) : Option (Request × Desk ρ) :=
  (d.named? name).map fun r => (r, { d with pool := d.pool.cancel r.ticket })

/-- Drops the handle of a name; false if there is none. -/
def drop (name : String) (d : Desk ρ) : Bool × Desk ρ :=
  ((d.named? name).isSome, { d with names := d.names.filter fun e => e.1 != name })

/-- A reply of the backend. -/
def resolve (uri : String) (reply : Cued ρ) (d : Desk ρ) : Bool × Desk ρ :=
  let (handed, pool) := d.pool.resolve uri reply
  (handed, { d with pool })

/-- Lets all tasks go on as far as they can. -/
def run (m : Meaning ρ) (d : Desk ρ) : Desk ρ := { d with pool := d.pool.run (d.meaning m) }

/-- Receives the oldest completion and holds it; the answer is its slot. -/
def receive (d : Desk ρ) : Option (Nat × Completion) × Desk ρ :=
  match d.pool.receive with
  | (none, pool) => (none, { d with pool })
  | (some c, pool) =>
    let (slot, held) := d.held.keep c
    (some (slot, c), { d with pool, held })

/-- Opens a held completion; none if the slot is empty. -/
def openHeld (slot : Nat) (d : Desk ρ) :
    Option (Option (Document × Option Coverage) × Desk ρ) :=
  (d.held.get? slot).map fun c =>
    (d.pool.openCompletion c, { d with held := d.held.clear slot })

/-- Nobody receives completions any more. -/
def close (d : Desk ρ) : Desk ρ := { d with pool := d.pool.close }

end Desk

end CoverageTracker
