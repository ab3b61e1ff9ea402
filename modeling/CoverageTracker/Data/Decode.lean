import CoverageTracker.Data.Value
import CoverageTracker.Uri
set_option autoImplicit false

/-!
# Reading data as something definite

Decoders take a value to a domain type or say why it is not one.  Lists read in order,
and the first error in reading order is the answer.  A record is written as a table,
its fields under their keys, or as an array, its fields in order; `field` and `item`
read one field of either form, and a field that is not there is no error yet.
-/

namespace CoverageTracker.Data

/-- Why a value does not decode. -/
inductive DecodeError where
  /-- a value of another kind than the expected one -/
  | invalidType (found : Value) (expected : String)
  /-- a whole number out of range -/
  | invalidValue (found : Int) (expected : String)
  /-- a table without a required key -/
  | missingField (key : String)
  /-- an array that ends before a required field -/
  | invalidLength (count : Nat) (expected : String)
  /-- an array with more items than the record has fields -/
  | tooManyItems (count : Nat)
  /-- a number that cannot be held -/
  | overflow (kind : NumberKind)
  /-- a text that is no URI reference -/
  | uri (fault : UriFault)
  deriving Repr

/-- The text of an error in data of a form. -/
def DecodeError.message (form : Form) : DecodeError → String
  | .invalidType v expected => "invalid type: " ++ v.describe form ++ ", expected " ++ expected
  | .invalidValue n expected =>
    "invalid value: integer `" ++ toString n ++ "`, expected " ++ expected
  | .missingField key => "missing field `" ++ key ++ "`"
  | .invalidLength n expected => "invalid length " ++ toString n ++ ", expected " ++ expected
  | .tooManyItems n => "invalid length " ++ toString n ++ ", expected fewer elements in array"
  | .overflow .integer => "integer number overflowed"
  | .overflow .float => "floating-point number overflowed"
  | .uri fault => fault.message

/-- What a decoder answers. -/
abbrev Decoded (α : Type) : Type := Except DecodeError α

namespace Value

/-! ## Scalars and lists -/

/-- The refusal of a value where something else was expected. -/
def refuse {α : Type} (expected : String) : Value → Decoded α
  | .overflow kind => .error (.overflow kind)
  | v => .error (.invalidType v expected)

/-- Reads a truth value. -/
def asBoolean : Value → Decoded Bool
  | .boolean b => .ok b
  | v => v.refuse "a boolean"

/-- Reads a text. -/
def asString : Value → Decoded String
  | .string s => .ok s
  | v => v.refuse "a string"

/-- Reads a number of either kind as a floating-point number. -/
def asFloat : Value → Decoded Binary64
  | .integer n => .ok (Binary64.ofInt n)
  | .float x => .ok x
  | v => v.refuse "f64"

/-- Reads a whole number that fits an unsigned 32-bit word. -/
def asWord : Value → Decoded UInt32
  | .integer n =>
    if 0 ≤ n ∧ n < 0x100000000 then .ok (UInt32.ofNat n.toNat) else .error (.invalidValue n "u32")
  | v => v.refuse "u32"

/-- Reads a list, item by item. -/
def asList {α : Type} (item : Value → Decoded α) : Value → Decoded (List α)
  | .array vs => vs.mapM item
  | v => v.refuse "a sequence"

/-- Reads a value that may be absent; `null` stands for absence. -/
def asOptional {α : Type} (read : Value → Decoded α) : Value → Decoded (Option α)
  | .null => .ok none
  | v => (read v).map some

/-- Reads a URI reference. -/
def asUri (v : Value) : Decoded Uri := do
  match Uri.parse (← v.asString) with
  | .ok uri => .ok uri
  | .error fault => .error (.uri fault)

/-! ## Values that nobody reads -/

mutual

/-- Passes over a value; a number in it that cannot be held is an error all the same. -/
def skip : Value → Decoded Unit
  | .overflow kind => .error (.overflow kind)
  | .array vs => skipItems vs
  | .table es => skipEntries es
  | _ => .ok ()

/-- Passes over the items of an array. -/
def skipItems : List Value → Decoded Unit
  | [] => .ok ()
  | v :: vs => do v.skip; skipItems vs

/-- Passes over the entries of a table. -/
def skipEntries : List (String × Value) → Decoded Unit
  | [] => .ok ()
  | (_, v) :: es => do v.skip; skipEntries es

end

end Value

/-! ## Fields of a record -/

/-- Reads the value under a key, if the table has the key. -/
def field {α : Type} (entries : List (String × Value)) (key : String)
    (read : Value → Decoded α) : Decoded (Option α) :=
  match lookup entries key with
  | none => .ok none
  | some v => (read v).map some

/-- A field that a table must have. -/
def require {α : Type} (key : String) : Option α → Decoded α
  | some a => .ok a
  | none => .error (.missingField key)

/-- Reads the item at an index, if the array has one there. -/
def item {α : Type} (items : List Value) (index : Nat) (read : Value → Decoded α) :
    Decoded (Option α) :=
  match items[index]? with
  | none => .ok none
  | some v => (read v).map some

/-- Reads the item at an index of an array that must have one there. -/
def requireItem {α : Type} (items : List Value) (index : Nat) (expected : String)
    (read : Value → Decoded α) : Decoded α :=
  match items[index]? with
  | none => .error (.invalidLength items.length expected)
  | some v => read v

/-- An array in JSON may not have more items than there are fields. -/
def atMost (fields : Nat) (items : List Value) : Decoded Unit :=
  if items.length ≤ fields then .ok () else .error (.tooManyItems items.length)

/-- The check of a record's item count: in TOML further items are passed over. -/
def Form.checkItems (form : Form) (fields : Nat) (items : List Value) : Decoded Unit :=
  match form with
  | .json => atMost fields items
  | .toml => .ok ()

end CoverageTracker.Data
