import CoverageTracker.Document
import CoverageTracker.Pool
import CoverageTracker.Wire
set_option autoImplicit false

/-!
# A language server as backend

Each call of the backend is one request to the language server.  `Reply` is what the
client gets back, `Reply.coverage` what it comes to.
-/

namespace CoverageTracker.LanguageServer

open CoverageTracker.Data

/-- A request to the server. -/
structure Sent where
  method : String
  params : Value
  deriving Repr

/-- The request that a call for a document sends. -/
def sentFor (d : Document) : Sent := ⟨Wire.method, (Wire.Params.mk d.uri).encode⟩

/-- What the client gives back for a request. -/
inductive Reply where
  /-- a result -/
  | value (v : Value)
  /-- the client itself could not decode or encode something -/
  | undecodable (detail : String)
  /-- the server refused -/
  | refused (detail : String)
  /-- there is no server -/
  | disconnected
  deriving Repr

/-- Why there is no coverage. -/
inductive ServerError where
  /-- the result does not decode, or the client itself could not decode or encode something -/
  | undecodable (detail : String)
  /-- the server refused -/
  | refused (detail : String)
  /-- there is no server -/
  | disconnected
  deriving Repr

/-- The text of an error. -/
def ServerError.message : ServerError → String
  | .undecodable detail => "deserialization failed: " ++ detail
  | .refused detail => "request failed: " ++ detail
  | .disconnected => "language server disconnected"

/-- The coverage that a reply reports; none if it is `null`.  An error of the client is passed on as
it is. -/
def Reply.coverage : Reply → Except ServerError (Option Coverage)
  | .value v =>
    match Wire.Response.decodeOptional v with
    | .ok response => .ok (response.bind Wire.Response.result?)
    | .error e => .error (.undecodable (e.message .json))
  | .undecodable detail => .error (.undecodable detail)
  | .refused detail => .error (.refused detail)
  | .disconnected => .error .disconnected

/-- The outcome of a call.  An error becomes a failure of the backend, with the same text. -/
def Reply.outcome (r : Reply) : Outcome :=
  match r.coverage with
  | .ok coverage => .ok coverage
  | .error e => .error ⟨.provider e.message⟩

/-- Replies of a language server, and what they mean. -/
def meaning : Meaning Reply := ⟨Reply.outcome, fun _ => none⟩

end CoverageTracker.LanguageServer
