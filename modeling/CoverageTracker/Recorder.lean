import CoverageTracker.Controller
import CoverageTracker.Data.Value
set_option autoImplicit false

/-!
# What the views hold

The content of the two views after a sequence of calls: the status that was set last, and
the diagnostics that were published since the last time they were cleared.
-/

namespace CoverageTracker.Recorder

/-- What the status view was told, in order. -/
def statuses (calls : List SinkCall) : List (Option Status) :=
  calls.filterMap fun
    | .status s => some s
    | _ => none

/-- The status that shows; none before the first update too. -/
def lastStatus (calls : List SinkCall) : Option Status := (statuses calls).getLast?.join

/-- How often the state was rendered. -/
def renders (calls : List SinkCall) : Nat := (statuses calls).length

/-- The diagnostics of each document, by URI. -/
abbrev Store := List (String × List Diagnostic)

/-- The store after a call. -/
def Store.after (store : Store) : SinkCall → Store
  | .status _ => store
  | .clear => []
  | .publish uri ds => Data.insert store uri.text ds
  | .dispose => []

/-- The store after all calls. -/
def published (calls : List SinkCall) : Store := calls.foldl Store.after []

/-- The diagnostics of a document. -/
def Store.of (store : Store) (uri : Uri) : List Diagnostic := (Data.lookup store uri.text).getD []

/-- Whether the store holds no diagnostic. -/
def Store.isClear (store : Store) : Bool := store.all fun e => e.2.isEmpty

/-- Whether the store was released. -/
def isReleased (calls : List SinkCall) : Bool := calls.contains .dispose

end CoverageTracker.Recorder
