import CoverageTracker.Request
import CoverageTracker.Status
set_option autoImplicit false

/-!
# The tracked state and its two views

Everything that the views show is a function of the state: `State.status` for the status
widget and `State.diagnostics` for the store of diagnostics.
-/

namespace CoverageTracker

/-- What the tracker knows. -/
structure State where
  /-- the user wants to see uncovered ranges -/
  showUncovered : Bool
  /-- the document that is tracked -/
  active : Option Document
  /-- the last result for the active document -/
  coverage : Option Coverage
  /-- the computation under way -/
  pending : Option Request
  /-- the backend is available -/
  connected : Bool
  deriving DecidableEq, Repr

/-- Nothing known, and disconnected. -/
def State.fresh (showUncovered : Bool) : State := ⟨showUncovered, none, none, none, false⟩

/-! ## Status -/

/-- The status view.  There is none without an active document, while disconnected, and when
nothing is known and nothing is under way. -/
def State.status (s : State) : Option Status :=
  if s.active.isNone || !s.connected then none
  else
    match s.coverage, s.pending with
    | none, none => none
    | none, some _ => some ⟨true, none, s.showUncovered⟩
    | some c, pending => some ⟨pending.isSome, some c.percent, s.showUncovered⟩

/-! ## Diagnostics -/

/-- How grave a diagnostic is. -/
inductive Severity where
  | error
  | warning
  | information
  | hint
  deriving DecidableEq, Repr

/-- The number of a severity on the wire. -/
def Severity.code : Severity → Nat
  | .error => 1
  | .warning => 2
  | .information => 3
  | .hint => 4

/-- A remark on a range of a document. -/
structure Diagnostic where
  range : Range
  severity : Severity
  source : String
  message : String
  deriving DecidableEq, Repr

/-- The source that every diagnostic names. -/
def Diagnostic.sourceName : String := "Type Coverage"

/-- The message of a range for which the backend gave no reason. -/
def UncoveredRange.defaultMessage : String := "Not covered by flow"

/-- The diagnostic of an uncovered range. -/
def UncoveredRange.diagnostic (u : UncoveredRange) : Diagnostic :=
  ⟨u.range, .information, Diagnostic.sourceName, u.message.getD UncoveredRange.defaultMessage⟩

/-- The diagnostics view, with the URI that they belong to.  There is none while uncovered
ranges are not shown, without an active document or a result, when no range is uncovered,
and while a computation is under way, for then the text may have changed. -/
def State.diagnostics (s : State) : Option (Uri × List Diagnostic) :=
  if !s.showUncovered || s.pending.isSome then none
  else
    match s.active, s.coverage with
    | some d, some c =>
      if c.uncovered.isEmpty then none
      else some (d.uri, c.uncovered.map UncoveredRange.diagnostic)
    | _, _ => none

end CoverageTracker
