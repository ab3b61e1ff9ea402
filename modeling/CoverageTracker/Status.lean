import CoverageTracker.Binary64
set_option autoImplicit false

/-!
# The status line

The summary that the status widget shows for the active document.
-/

namespace CoverageTracker

/-- What the status widget shows. -/
structure Status where
  /-- a computation is under way -/
  computing : Bool
  /-- the last known percentage; none while the first computation runs -/
  percent : Option Binary64
  /-- uncovered ranges are shown -/
  showing : Bool
  deriving DecidableEq, Repr

/-- The line: the percentage as a whole number, whether it is being computed anew, and whether
uncovered ranges are shown. -/
def Status.text (s : Status) : String :=
  let head := match s.percent with
    | some p =>
      "Coverage: " ++ toString p.nearestByte ++ "%" ++ if s.computing then " (computing)" else ""
    | none => "Coverage: computing"
  head ++ if s.showing then " (showing uncovered)" else ""

/-- Whether two summaries are equal, their percentages compared as numbers. -/
def Status.same (a b : Status) : Bool :=
  a.computing == b.computing && a.showing == b.showing &&
    match a.percent, b.percent with
    | some p, some q => p.sameValue q
    | none, none => true
    | _, _ => false

end CoverageTracker
