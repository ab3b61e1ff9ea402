set_option autoImplicit false

/-!
# Positions and ranges in a text

Line and character numbers as editors and language servers count them: from zero, in
unsigned 32-bit words.
-/

namespace CoverageTracker

/-- A place between two characters of a text. -/
structure Position where
  line : UInt32
  character : UInt32
  deriving DecidableEq, Repr, Inhabited

/-- The text between two places. -/
structure Range where
  start : Position
  stop : Position
  deriving DecidableEq, Repr, Inhabited

/-- The range that covers whole lines: from the start of one to the start of another. -/
def Range.ofLines (first last : UInt32) : Range := ⟨⟨first, 0⟩, ⟨last, 0⟩⟩

end CoverageTracker
