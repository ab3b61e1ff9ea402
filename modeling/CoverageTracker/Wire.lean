import CoverageTracker.Coverage
import CoverageTracker.Data.Decode
set_option autoImplicit false

/-!
# The type coverage request on the wire

The parameters that a client sends and the reply that it gets back, as JSON values.  Every
record decodes from an object, whose unknown keys are passed over, or from an array of
its fields in order; every record encodes as an object, without the fields that are
absent.  The fields of an object are read in ascending order of their keys, which decides
which of two errors is told.
-/

namespace CoverageTracker.Wire

open CoverageTracker.Data

/-- The name of the request. -/
def method : String := "textDocument/typeCoverage"

/-! ## Positions and ranges -/

/-- Decodes a position. -/
def decodePosition : Value → Decoded Position
  | .table es => do
    let character ← field es "character" Value.asWord
    let line ← field es "line" Value.asWord
    return ⟨← require "line" line, ← require "character" character⟩
  | .array vs => do
    let expected := "struct Position with 2 elements"
    let line ← requireItem vs 0 expected Value.asWord
    let character ← requireItem vs 1 expected Value.asWord
    atMost 2 vs
    return ⟨line, character⟩
  | v => v.refuse "struct Position"

/-- A position as an object. -/
def encodePosition (p : Position) : Value :=
  .table [("character", .integer p.character.toNat), ("line", .integer p.line.toNat)]

/-- Decodes a range. -/
def decodeRange : Value → Decoded Range
  | .table es => do
    let stop ← field es "end" decodePosition
    let start ← field es "start" decodePosition
    return ⟨← require "start" start, ← require "end" stop⟩
  | .array vs => do
    let expected := "struct Range with 2 elements"
    let start ← requireItem vs 0 expected decodePosition
    let stop ← requireItem vs 1 expected decodePosition
    atMost 2 vs
    return ⟨start, stop⟩
  | v => v.refuse "struct Range"

/-- A range as an object. -/
def encodeRange (r : Range) : Value :=
  .table [("end", encodePosition r.stop), ("start", encodePosition r.start)]

/-! ## Uncovered ranges -/

/-- Decodes an uncovered range. -/
def decodeUncovered : Value → Decoded UncoveredRange
  | .table es => do
    let message ← field es "message" (Value.asOptional Value.asString)
    let range ← field es "range" decodeRange
    return ⟨← require "range" range, message.join⟩
  | .array vs => do
    let range ← requireItem vs 0 "struct WireUncoveredRange with 2 elements" decodeRange
    let message ← item vs 1 (Value.asOptional Value.asString)
    atMost 2 vs
    return ⟨range, message.join⟩
  | v => v.refuse "struct WireUncoveredRange"

/-- The entry of a text that may be absent. -/
def optionalEntry (key : String) (text : Option String) : List (String × Value) :=
  (text.map fun s => (key, Value.string s)).toList

/-- An uncovered range as an object. -/
def encodeUncovered (u : UncoveredRange) : Value :=
  .table (optionalEntry "message" u.message ++ [("range", encodeRange u.range)])

/-! ## Replies -/

/-- What a server answers. -/
structure Response where
  percent : Binary64
  uncovered : List UncoveredRange
  /-- the message of every range that has none of its own -/
  defaultMessage : Option String
  deriving DecidableEq, Repr

namespace Response

/-- Decodes a reply. -/
def decode : Value → Decoded Response
  | .table es => do
    let percent ← field es "coveredPercent" Value.asFloat
    let defaultMessage ← field es "defaultMessage" (Value.asOptional Value.asString)
    let uncovered ← field es "uncoveredRanges" (Value.asList decodeUncovered)
    return ⟨← require "coveredPercent" percent, uncovered.getD [], defaultMessage.join⟩
  | .array vs => do
    let percent ← requireItem vs 0 "struct TypeCoverageResponse with 3 elements" Value.asFloat
    let uncovered ← item vs 1 (Value.asList decodeUncovered)
    let defaultMessage ← item vs 2 (Value.asOptional Value.asString)
    atMost 3 vs
    return ⟨percent, uncovered.getD [], defaultMessage.join⟩
  | v => v.refuse "struct TypeCoverageResponse"

/-- Decodes a reply that may be `null`, for nothing to report. -/
def decodeOptional : Value → Decoded (Option Response) := Value.asOptional decode

/-- A percentage as a value: JSON has no numbers that are not finite, and they become `null`. -/
def encodePercent (x : Binary64) : Value := if x.isFinite then .float x else .null

/-- A reply as an object. -/
def encode (r : Response) : Value :=
  .table (("coveredPercent", encodePercent r.percent) :: optionalEntry "defaultMessage" r.defaultMessage
    ++ [("uncoveredRanges", .array (r.uncovered.map encodeUncovered))])

/-- A reply that may be absent. -/
def encodeOptional : Option Response → Value
  | some r => r.encode
  | none => .null

/-- The result that a reply reports: ranges without a message take the default one. -/
def result? (r : Response) : Option Coverage :=
  Coverage.ofPercent? r.percent
    (r.uncovered.map fun u => { u with message := u.message <|> r.defaultMessage })

end Response

/-! ## Parameters -/

/-- What a client sends: the document it asks about. -/
structure Params where
  uri : Uri
  deriving DecidableEq, Repr

namespace Params

/-- Decodes the identification of a document. -/
def decodeIdentifier : Value → Decoded Uri
  | .table es => do require "uri" (← field es "uri" Value.asUri)
  | .array vs => do
    let uri ← requireItem vs 0 "struct TextDocumentIdentifier with 1 element" Value.asUri
    atMost 1 vs
    return uri
  | v => v.refuse "struct TextDocumentIdentifier"

/-- Decodes parameters. -/
def decode : Value → Decoded Params
  | .table es => do return ⟨← require "textDocument" (← field es "textDocument" decodeIdentifier)⟩
  | .array vs => do
    let uri ← requireItem vs 0 "struct TypeCoverageParams with 1 element" decodeIdentifier
    atMost 1 vs
    return ⟨uri⟩
  | v => v.refuse "struct TypeCoverageParams"

/-- Parameters as an object. -/
def encode (p : Params) : Value :=
  .table [("textDocument", .table [("uri", .string p.uri.text)])]

end Params

end CoverageTracker.Wire
