import CoverageTracker.Coverage
import CoverageTracker.Document
import CoverageTracker.Text.Quoted
set_option autoImplicit false

/-!
# Requests and completions

A request is a handle on one computation that was started; a completion is what a finished
computation left behind.  Both name their computation by its ticket, and whether it was
cancelled is asked of the pool that runs it, so a handle and a completion can never
disagree about that.
-/

namespace CoverageTracker

/-- The number of a request.  That a word of 64 bits counts the requests is not modelled, so numbers
are right as long as there are fewer than `2 ^ 64` requests. -/
structure RequestId where
  number : Nat
  deriving DecidableEq, Repr

/-- The text of a number. -/
def RequestId.text (id : RequestId) : String := "COV#" ++ toString id.number

/-- The place of a computation in its pool. -/
abbrev Ticket := Nat

/-- A handle on a started computation. -/
structure Request where
  ticket : Ticket
  id : RequestId
  document : Document
  deriving DecidableEq, Repr

/-- What a finished computation left behind: its result, none if the backend had nothing to
report or failed. -/
structure Completion where
  request : Request
  result : Option Coverage
  deriving DecidableEq, Repr

/-- A completion on one line, for a log. -/
def Completion.describe (c : Completion) (cancelled : Bool) : String :=
  let flag := fun b : Bool => if b then "true" else "false"
  "CoverageCompletion \x7b id: RequestId(" ++ toString c.request.id.number ++ "), uri: " ++
    Text.Quoted.encode c.request.document.uri.text ++ ", cancelled: " ++ flag cancelled ++
    ", has_result: " ++ flag c.result.isSome ++ " \x7d"

/-- What went wrong, with the text that tells it. -/
inductive Cause where
  /-- the backend failed to compute a result -/
  | provider (detail : String)
  /-- a configuration could not be parsed -/
  | config (detail : String)
  /-- a pattern for documents is not a valid glob -/
  | glob (detail : String)
  deriving DecidableEq, Repr

/-- A text alone is what a backend says of its own failure. -/
instance : Coe String Cause := ⟨.provider⟩

/-- Why a backend gave no result.  It may return any error of the tracker, also one of a
configuration or a pattern that it reads itself. -/
structure ProviderError where
  cause : Cause
  deriving DecidableEq, Repr

/-- The text of an error. -/
def ProviderError.message (e : ProviderError) : String :=
  match e.cause with
  | .provider detail => "coverage provider failed: " ++ detail
  | .config detail => "invalid coverage config: " ++ detail
  | .glob detail => "invalid document pattern: " ++ detail

/-- What a call of the backend returns. -/
abbrev Outcome := Except ProviderError (Option Coverage)

/-- The coverage that an outcome comes to: a failure counts as nothing to report. -/
def Outcome.coverage (o : Outcome) : Option Coverage :=
  match o with
  | .ok result => result
  | .error _ => none

/-- A failed request, as it is told to whoever reads the log. -/
structure Warning where
  request : Request
  error : ProviderError
  deriving DecidableEq, Repr

/-- What the log says of every failed request. -/
def Warning.text : String := "coverage request failed"

end CoverageTracker
