import CoverageTracker.Request
set_option autoImplicit false

/-!
# Held completions

Completions that were received and not yet used, in numbered slots.  A slot is filled once,
and empty once its completion is taken.
-/

namespace CoverageTracker

/-- The slots, by number; none for an empty one. -/
structure Slots where
  items : List (Option Completion)
  deriving DecidableEq, Repr

namespace Slots

/-- No slots. -/
def empty : Slots := ⟨[]⟩

/-- Holds a completion in a new slot; the answer is its number. -/
def keep (c : Completion) (s : Slots) : Nat × Slots := (s.items.length, ⟨s.items ++ [some c]⟩)

/-- The completion in a slot. -/
def get? (slot : Nat) (s : Slots) : Option Completion := s.items[slot]?.join

/-- Empties a slot. -/
def clear (slot : Nat) (s : Slots) : Slots := ⟨s.items.set slot none⟩

end Slots

end CoverageTracker
