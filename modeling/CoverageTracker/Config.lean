import CoverageTracker.Data.Decode
import CoverageTracker.Toml.Reader
set_option autoImplicit false

/-!
# Configuration

What the user can set: whether uncovered ranges show from the start, and which documents
coverage is tracked for.  A configuration is decoded entry by entry over the default one,
so a key that is not there keeps its default, and an entry under an unknown key changes
nothing.  JSON and TOML share the decoder and differ in one point: in TOML a record that is
written as an array may have more items than fields.
-/

namespace CoverageTracker

open CoverageTracker.Data

/-- Which documents are tracked: those of a listed language, and those whose path matches a
pattern. -/
structure SelectorConfig where
  languages : List String
  patterns : List String
  deriving DecidableEq, Repr

/-- The settings of the tracker. -/
structure Config where
  showUncovered : Bool
  selector : SelectorConfig
  deriving DecidableEq, Repr

namespace SelectorConfig

/-- The default: script documents of either kind, and no patterns. -/
def default : SelectorConfig := ⟨["javascript", "javascriptreact"], []⟩

instance : Inhabited SelectorConfig := ⟨default⟩

/-- What a message calls the record. -/
def expected : String := "struct SelectorConfig"

/-- Applies one entry of a table. -/
def decodeEntry (c : SelectorConfig) (entry : String × Value) : Decoded SelectorConfig :=
  match entry with
  | (key, v) =>
    if key = "languages" then do return { c with languages := ← v.asList Value.asString }
    else if key = "patterns" then do return { c with patterns := ← v.asList Value.asString }
    else do v.skip; return c

/-- Decodes the record from a table, or from an array of its fields in order. -/
def decode (form : Form) : Value → Decoded SelectorConfig
  | .table entries => entries.foldlM decodeEntry default
  | .moment _ => .ok default
  | .array items => do
    let languages ← item items 0 (Value.asList Value.asString)
    let patterns ← item items 1 (Value.asList Value.asString)
    form.checkItems 2 items
    return ⟨languages.getD default.languages, patterns.getD default.patterns⟩
  | v => v.refuse expected

/-- The record as a table. -/
def encode (c : SelectorConfig) : Value :=
  .table [("languages", .array (c.languages.map .string)),
    ("patterns", .array (c.patterns.map .string))]

end SelectorConfig

namespace Config

/-- The default: uncovered ranges do not show. -/
def default : Config := ⟨false, SelectorConfig.default⟩

instance : Inhabited Config := ⟨default⟩

/-- What a message calls the record. -/
def expected : String := "struct CoverageConfig"

/-- Applies one entry of a table. -/
def decodeEntry (form : Form) (c : Config) (entry : String × Value) : Decoded Config :=
  match entry with
  | (key, v) =>
    if key = "show-uncovered" then do return { c with showUncovered := ← v.asBoolean }
    else if key = "selector" then do
      return { c with selector := ← SelectorConfig.decode form v }
    else do v.skip; return c

/-- Decodes the record from a table, or from an array of its fields in order. -/
def decode (form : Form) : Value → Decoded Config
  | .table entries => entries.foldlM (decodeEntry form) default
  | .moment _ => .ok default
  | .array items => do
    let show_ ← item items 0 Value.asBoolean
    let selector ← item items 1 (SelectorConfig.decode form)
    form.checkItems 2 items
    return ⟨show_.getD default.showUncovered, selector.getD default.selector⟩
  | v => v.refuse expected

/-- Decodes a configuration that was written in JSON. -/
def ofJson (v : Value) : Decoded Config := decode .json v

/-- The record as a table. -/
def encode (c : Config) : Value :=
  .table [("selector", c.selector.encode), ("show-uncovered", .boolean c.showUncovered)]

/-! ## TOML documents -/

/-- Why a TOML document is no configuration. -/
inductive TomlError where
  /-- the text is not a TOML document -/
  | syntaxError
  /-- the document holds something of the wrong type -/
  | typeError (e : DecodeError)
  deriving Repr

/-- Reads a configuration from the text of a TOML document. -/
def ofToml (source : String) : Except TomlError Config :=
  match Toml.parse source with
  | none => .error .syntaxError
  | some v => (decode .toml v).mapError .typeError

end Config

end CoverageTracker
