import CoverageTracker.LanguageServer
import CoverageTracker.Proofs.Desk.Recast
import CoverageTracker.Proofs.Session.Recast
import CoverageTracker.Proofs.Wire.RoundTrip
set_option autoImplicit false

/-!
# A language server as backend is transparent

What a client does in a call of the backend is an exchange with the server (`Exchange`): it sends a
request and goes on with the reply.  The call for a document is the exchange of one request, whose
parameters tell the server the document, and it ends with what its reply means (`follow_provide`).
So a run over the replies of a server is one over their meanings: the two make the same calls, and
nobody but who reads the requests can tell them apart.
-/

namespace CoverageTracker

namespace LanguageServer

open CoverageTracker.Data

/-! ## Exchanges -/

/-- What a client does with the server to get a result. -/
inductive Exchange (α : Type) where
  /-- it has the result -/
  | result (a : α)
  /-- it sends a request, and goes on with the reply -/
  | request (sent : Sent) (next : Reply → Exchange α)

namespace Exchange

variable {α β : Type}

/-- The same exchange for another result. -/
def map (f : α → β) : Exchange α → Exchange β
  | .result a => .result (f a)
  | .request sent next => .request sent fun reply => (next reply).map f

/-- What is sent when the server gives these replies one after another, and the result, unless a
reply is still to come. -/
def follow : Exchange α → List Reply → List Sent × Option α
  | .result a, _ => ([], some a)
  | .request sent _, [] => ([sent], none)
  | .request sent next, reply :: replies =>
    (sent :: ((next reply).follow replies).1, ((next reply).follow replies).2)

end Exchange

/-- Asks the server for the coverage of a document. -/
def typeCoverage (d : Document) : Exchange (Except ServerError (Option Coverage)) :=
  .request (sentFor d) fun reply => .result reply.coverage

/-- The call of the backend: an error of the server is a failure of the backend, with the same
text. -/
def provide (d : Document) : Exchange Outcome :=
  (typeCoverage d).map fun result =>
    match result with
    | .ok coverage => .ok coverage
    | .error e => .error ⟨.provider e.message⟩

/-- However many replies come, a call sends one request and takes the first reply only. -/
theorem follow_provide (d : Document) (replies : List Reply) :
    (provide d).follow replies = ([sentFor d], replies.head?.map Reply.outcome) := by
  cases replies <;> rfl

/-- The parameters of the request tell the server the document. -/
theorem decode_sentFor (d : Document) :
    Wire.Params.decode (sentFor d).params = .ok ⟨d.uri⟩ :=
  Wire.Params.decode_encode ⟨d.uri⟩

/-! ## What replies mean -/

/-- The failure of the backend that an error of the server or the client stands for. -/
def ServerError.meant (e : ServerError) : Outcome := .error ⟨.provider e.message⟩

/-- The outcome that a reply stands for: a value that decodes to `null` that there is nothing to
report, one that decodes to a response the result of the response, and any other value and any error
of the client the failure with the text of the error. -/
def Reply.meant : Reply → Outcome
  | .value v =>
    match Wire.Response.decodeOptional v with
    | .ok none => .ok none
    | .ok (some response) => .ok response.result?
    | .error e => (ServerError.undecodable (e.message .json)).meant
  | .undecodable detail => (ServerError.undecodable detail).meant
  | .refused detail => (ServerError.refused detail).meant
  | .disconnected => ServerError.disconnected.meant

theorem Reply.meant_eq_outcome (reply : Reply) : reply.meant = reply.outcome := by
  cases reply with
  | value v =>
    simp only [meant, outcome, coverage]
    cases Wire.Response.decodeOptional v with
    | error e => rfl
    | ok response => cases response <;> rfl
  | undecodable detail => rfl
  | refused detail => rfl
  | disconnected => rfl

theorem recasts_meant : meaning.Recasts Reply.meant Meaning.direct :=
  ⟨fun reply => congrArg Outcome.coverage reply.meant_eq_outcome, fun _ => rfl⟩

/-! ## Transparency -/

/-- A language server as backend is transparent.  Sessions over what its client gives back, results
and errors alike, and sessions over the outcomes that these stand for are the same throughout, with
the same calls of the backend and the same warnings, also if replies cancel requests at the moment
they are taken, and so are requests by name.  Each call of the backend sends one request, whatever is replied, by the name that the server
knows and with parameters that decode to the URI of the document, and comes to what its reply
stands for. -/
theorem server_transparent :
    Session.SameRuns Reply.meant meaning Meaning.direct ∧
    Session.SameRuns (Prod.map Reply.meant id) meaning.cueing Meaning.direct.cueing ∧
    Desk.SameRuns Reply.meant meaning Meaning.direct ∧
    ∀ d : Document,
      (∀ replies, (provide d).follow replies = ([sentFor d], replies.head?.map Reply.meant)) ∧
      (sentFor d).method = "textDocument/typeCoverage" ∧
      Wire.Params.decode (sentFor d).params = .ok ⟨d.uri⟩ := by
  refine ⟨?_, ?_, ?_, fun d => ⟨fun replies => ?_, rfl, decode_sentFor d⟩⟩
  · exact Session.sameRuns_of_recasts recasts_meant Reply.meant_eq_outcome
  · exact Session.sameRuns_of_recasts recasts_meant.cueing fun r => r.1.meant_eq_outcome
  · exact Desk.sameRuns_of_recasts recasts_meant Reply.meant_eq_outcome
  · rw [funext Reply.meant_eq_outcome]
    exact follow_provide d replies

end LanguageServer

end CoverageTracker
