set_option autoImplicit false

/-!
# Watched values

A value that its readers look at when it changed.  Each notification raises the version;
a reader remembers the version it has seen, so several notifications between two looks
count as one, and a reader always finds the latest value.
-/

namespace CoverageTracker

/-- A truth value that is watched. -/
structure Watch where
  value : Bool
  /-- how many notifications there were; that a machine word counts them is not modelled -/
  version : Nat
  deriving DecidableEq, Repr

namespace Watch

/-- A value that was never changed. -/
def create (value : Bool) : Watch := ⟨value, 0⟩

/-- Sets the value and notifies. -/
def send (value : Bool) (w : Watch) : Watch := ⟨value, w.version + 1⟩

/-- Sets the value, and notifies if that changes it. -/
def sendIfChanged (value : Bool) (w : Watch) : Watch := if w.value = value then w else w.send value

end Watch

end CoverageTracker
