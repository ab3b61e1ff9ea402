import CoverageTracker.Binary64.Shortest
import CoverageTracker.Text.Quoted
set_option autoImplicit false

/-!
# Data values

The tree that a JSON text or a TOML document denotes.  Whole numbers and
floating-point numbers are different kinds of value, whatever their size.  A number
that was written but cannot be held is a value too, `overflow`: it is an error only
where it is looked at.

The two written forms share everything that follows the reading, except for how a message
writes a number and for the length of an array that stands for a record.
-/

namespace CoverageTracker.Data

/-- The two forms in which data is written. -/
inductive Form where
  | json
  | toml
  deriving DecidableEq, Repr

/-- The two kinds of number. -/
inductive NumberKind where
  | integer
  | float
  deriving DecidableEq, Repr

/-- A tree of data. -/
inductive Value where
  /-- no value -/
  | null
  /-- a truth value -/
  | boolean (b : Bool)
  /-- a whole number -/
  | integer (n : Int)
  /-- a floating-point number -/
  | float (x : Binary64)
  /-- a text -/
  | string (s : String)
  /-- a date, a time or both, as written -/
  | moment (text : String)
  /-- a number that cannot be held -/
  | overflow (kind : NumberKind)
  /-- a list of values -/
  | array (items : List Value)
  /-- values by key -/
  | table (entries : List (String × Value))
  deriving Repr, Inhabited

/-! ## Entries of a table -/

/-- The value that a list of entries gives to a key: its first one. -/
def lookup {α : Type} (entries : List (String × α)) (key : String) : Option α :=
  (entries.find? fun e => e.1 == key).map Prod.snd

/-- Gives a key its value.  Readers build every table this way, so that its entries
stand in ascending order of their keys and each key stands there once. -/
def insert {α : Type} : List (String × α) → String → α → List (String × α)
  | [], key, v => [(key, v)]
  | (k, w) :: entries, key, v =>
    if key = k then (key, v) :: entries
    else if key < k then (key, v) :: (k, w) :: entries
    else (k, w) :: insert entries key v

/-! ## Words -/

/-- Whether a whole number fits a signed or an unsigned 64-bit word. -/
def fitsWord (n : Int) : Bool :=
  decide (-0x8000000000000000 ≤ n) && decide (n < 0x10000000000000000)

/-- Whether a whole number fits a signed 128-bit word. -/
def fitsSigned (n : Int) : Bool :=
  decide (-0x80000000000000000000000000000000 ≤ n) &&
    decide (n < 0x80000000000000000000000000000000)

/-- Whether a whole number fits a signed or an unsigned 128-bit word. -/
def fitsWide (n : Int) : Bool :=
  decide (-0x80000000000000000000000000000000 ≤ n) &&
    decide (n < 0x100000000000000000000000000000000)

/-! ## What a value is called in a message -/

/-- How a message about data in a form writes floating-point numbers. -/
def Form.layout : Form → Binary64.Layout
  | .json => .compact
  | .toml => .positional

/-- A whole number as a message names it: beyond 64 bits with its width. -/
def describeInteger (n : Int) : String :=
  "integer `" ++ toString n ++ "`" ++
    (if fitsWord n then "" else if fitsSigned n then " as i128" else " as u128")

/-- A value as a message names it: scalars with their text, the rest by kind. -/
def Value.describe (form : Form) : Value → String
  | .null => "null"
  | .boolean b => "boolean `" ++ (if b then "true" else "false") ++ "`"
  | .integer n => describeInteger n
  | .float x => "floating point `" ++ x.toText form.layout ++ "`"
  | .string s => "string " ++ Text.Quoted.encode s
  | .moment _ => "map"
  | .overflow .integer => "integer"
  | .overflow .float => "floating point"
  | .array _ => "sequence"
  | .table _ => "map"

end CoverageTracker.Data
