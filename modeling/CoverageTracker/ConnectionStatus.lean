import CoverageTracker.Watch
set_option autoImplicit false

/-!
# Connection status

Whether the language client is connected, as a watched value.  Several handles publish to
it and several receivers watch it.  Setting the value it has already notifies nobody, and
a receiver counts what it has not seen since it subscribed or last updated.

Handles and receivers are named by their numbers, in the order in which they were made;
every operation on one that is not there answers `none`.
-/

namespace CoverageTracker

/-- A connection status with its handles and receivers. -/
structure ConnectionStatus where
  channel : Watch
  /-- which handles are there -/
  handles : List Bool
  /-- the version that each receiver has seen; none once it is dropped -/
  receivers : List (Option Nat)
  deriving DecidableEq, Repr

namespace ConnectionStatus

/-- Disconnected, with one handle and no receivers. -/
def create : ConnectionStatus := ⟨Watch.create false, [true], []⟩

/-- Whether a handle is there. -/
def hasHandle (h : Nat) (c : ConnectionStatus) : Bool := c.handles[h]?.getD false

/-- The version that a receiver has seen. -/
def seen? (r : Nat) (c : ConnectionStatus) : Option Nat := c.receivers[r]?.join

/-! ## Handles -/

/-- Sets the connectivity. -/
def set (h : Nat) (connected : Bool) (c : ConnectionStatus) : Option ConnectionStatus :=
  if c.hasHandle h then some { c with channel := c.channel.sendIfChanged connected } else none

/-- The connectivity. -/
def isConnected (h : Nat) (c : ConnectionStatus) : Option Bool :=
  if c.hasHandle h then some c.channel.value else none

/-- Makes one more handle; the answer is its number. -/
def clone (h : Nat) (c : ConnectionStatus) : Option (Nat × ConnectionStatus) :=
  if c.hasHandle h then some (c.handles.length, { c with handles := c.handles ++ [true] }) else none

/-- Makes one more receiver, which has seen the current value; the answer is its number. -/
def subscribe (h : Nat) (c : ConnectionStatus) : Option (Nat × ConnectionStatus) :=
  if c.hasHandle h then
    some (c.receivers.length, { c with receivers := c.receivers ++ [some c.channel.version] })
  else none

/-- Drops a handle; false if it was dropped before. -/
def dropHandle (h : Nat) (c : ConnectionStatus) : Option (Bool × ConnectionStatus) :=
  c.handles[h]?.map fun present => (present, { c with handles := c.handles.set h false })

/-! ## Receivers -/

/-- Drops a receiver; false if it was dropped before. -/
def dropReceiver (r : Nat) (c : ConnectionStatus) : Option (Bool × ConnectionStatus) :=
  c.receivers[r]?.map fun seen => (seen.isSome, { c with receivers := c.receivers.set r none })

/-- All handles are gone. -/
inductive Closed where
  | closed
  deriving DecidableEq, Repr

/-- Whether there was a notification that a receiver has not seen. -/
def hasChanged (r : Nat) (c : ConnectionStatus) : Option (Except Closed Bool) :=
  (c.seen? r).map fun seen =>
    if c.handles.any id then .ok (seen != c.channel.version) else .error .closed

/-- The current value. -/
def borrow (r : Nat) (c : ConnectionStatus) : Option Bool :=
  (c.seen? r).map fun _ => c.channel.value

/-- The current value, which the receiver has then seen. -/
def update (r : Nat) (c : ConnectionStatus) : Option (Bool × ConnectionStatus) :=
  (c.seen? r).map fun _ =>
    (c.channel.value, { c with receivers := c.receivers.set r (some c.channel.version) })

end ConnectionStatus

end CoverageTracker
