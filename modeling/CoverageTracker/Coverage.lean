import CoverageTracker.Binary64
import CoverageTracker.Position
set_option autoImplicit false

/-!
# Coverage results

What one computation finds out about a document: the percentage of it that is covered and
the ranges that are not.  A result carries the proof that its percentage is a number from
zero to one hundred.  `Coverage.ofPercent?` brings what a backend gives between these two;
there is no result for NaN, which a backend gives when it analysed nothing.
-/

namespace CoverageTracker

/-- A range that is not covered, with the reason if the backend gave one. -/
structure UncoveredRange where
  range : Range
  message : Option String
  deriving DecidableEq, Repr

/-- A range without a message. -/
def UncoveredRange.ofRange (range : Range) : UncoveredRange := ⟨range, none⟩

/-- The same range with a message. -/
def UncoveredRange.withMessage (u : UncoveredRange) (message : String) : UncoveredRange :=
  { u with message := some message }

/-- The result of one computation; the ranges stand in the order of the backend. -/
@[ext] structure Coverage where
  percent : Binary64
  uncovered : List UncoveredRange
  isPercent : percent.isPercent = true
  deriving DecidableEq, Repr

namespace Coverage

/-- The result for a percentage, brought between zero and one hundred; none for NaN. -/
def ofPercent? (percent : Binary64) (uncovered : List UncoveredRange) : Option Coverage :=
  if h : percent.isNaN = false then
    some ⟨percent.clampPercent, uncovered, Binary64.isPercent_clampPercent h⟩
  else none

variable {p : Binary64} {us : List UncoveredRange} {c : Coverage}

theorem ofPercent?_eq_none : ofPercent? p us = none ↔ p.isNaN = true := by
  unfold ofPercent?
  split <;> simp [*]

theorem ofPercent?_eq_some : ofPercent? p us = some c ↔
    p.isNaN = false ∧ c.percent = p.clampPercent ∧ c.uncovered = us := by
  unfold ofPercent?
  split
  · rename_i hp
    rw [Option.some.injEq, Coverage.ext_iff]
    simp [hp, eq_comm]
  · simp [*]

end Coverage

end CoverageTracker
