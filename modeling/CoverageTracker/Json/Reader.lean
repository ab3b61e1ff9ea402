import CoverageTracker.Data.Value
set_option autoImplicit false

/-!
# JSON texts

Reads one JSON text as a data value.  A number is whole when it is written without a
fraction and without an exponent and fits a signed or unsigned 64-bit word; any other
number, and the negative zero, is a floating-point number, which must be finite.  Of equal
keys in one object the last counts.

Every reader returns what it leaves of the text.  Arrays and objects are read inside each
other up to `nestingLimit`; the fuel of `value` is taken from the length of the text.
-/

namespace CoverageTracker.Json

open CoverageTracker.Data

/-! ## Blanks and literals -/

/-- Blanks between tokens. -/
def isBlank (c : Char) : Bool := c == ' ' || c == '\t' || c == '\n' || c == '\r'

/-- Skips blanks. -/
def skipBlank (cs : List Char) : List Char := cs.dropWhile isBlank

/-- What follows a word, if the text starts with it. -/
def literal : List Char → List Char → Option (List Char)
  | [], cs => some cs
  | w :: ws, c :: cs => if w = c then literal ws cs else none
  | _ :: _, [] => none

/-! ## Texts -/

/-- Reads four hexadecimal digits. -/
def hex4 : List Char → Option (Nat × List Char)
  | a :: b :: c :: d :: rest => do
    let ds ← [a, b, c, d].mapM Binary64.hexDigit?
    return (ds.foldl (fun n d => 16 * n + d) 0, rest)
  | _ => none

/-- The character of a code point. -/
def charOf (n : Nat) : Option Char :=
  if n.isValidChar then some (Char.ofNat n) else none

/-- Reads what follows a backslash.  Code points beyond 16 bits are written as two
escapes, a high and a low surrogate. -/
def escape : List Char → Option (Char × List Char)
  | '"' :: rest => some ('"', rest)
  | '\\' :: rest => some ('\\', rest)
  | '/' :: rest => some ('/', rest)
  | 'b' :: rest => some ('\x08', rest)
  | 'f' :: rest => some ('\x0c', rest)
  | 'n' :: rest => some ('\n', rest)
  | 'r' :: rest => some ('\r', rest)
  | 't' :: rest => some ('\t', rest)
  | 'u' :: rest => do
    let (high, rest) ← hex4 rest
    if 0xD800 ≤ high ∧ high < 0xDC00 then
      match rest with
      | '\\' :: 'u' :: rest =>
        let (low, rest) ← hex4 rest
        if 0xDC00 ≤ low ∧ low < 0xE000 then
          return (← charOf (0x10000 + (high - 0xD800) * 0x400 + (low - 0xDC00)), rest)
        else none
      | _ => none
    else return (← charOf high, rest)
  | _ => none

/-- Reads the rest of a text up to its closing quote. -/
def stringRest : Nat → List Char → Option (List Char × List Char)
  | 0, _ => none
  | fuel + 1, cs =>
    match cs with
    | '"' :: rest => some ([], rest)
    | '\\' :: rest => do
      let (c, rest) ← escape rest
      let (s, rest) ← stringRest fuel rest
      return (c :: s, rest)
    | c :: rest => do
      if c.toNat < 0x20 then none
      let (s, rest) ← stringRest fuel rest
      return (c :: s, rest)
    | [] => none

/-- Reads a text; `cs` follows its opening quote. -/
def string (cs : List Char) : Option (String × List Char) := do
  let (s, rest) ← stringRest (cs.length + 1) cs
  return (String.ofList s, rest)

/-! ## Numbers -/

/-- The number that a list of decimal digits stands for. -/
def natOf (ds : List Char) : Nat := ds.foldl (fun n c => 10 * n + (c.toNat - '0'.toNat)) 0

/-- Splits off leading decimal digits. -/
def digits (cs : List Char) : List Char × List Char :=
  (cs.takeWhile Char.isDigit, cs.dropWhile Char.isDigit)

/-- Splits off a fraction: the digits after a point. -/
def fraction : List Char → Option (List Char × List Char)
  | '.' :: rest => if (digits rest).1.isEmpty then none else some (digits rest)
  | cs => some ([], cs)

/-- Splits off an exponent; `none` inside the answer if there is none. -/
def exponent : List Char → Option (Option Int × List Char)
  | c :: rest =>
    if c == 'e' || c == 'E' then
      let (negative, rest) := match rest with
        | '-' :: rest => (true, rest)
        | '+' :: rest => (false, rest)
        | rest => (false, rest)
      let (ds, rest) := digits rest
      if ds.isEmpty then none
      else some (some (if negative then -(natOf ds : Int) else natOf ds), rest)
    else some (none, c :: rest)
  | [] => some (none, [])

/-- The value of a number by its parts. -/
def numberOf (negative : Bool) (whole frac : List Char) (exp : Option Int) : Value :=
  let n : Int := if negative then -(natOf whole : Int) else natOf whole
  if frac.isEmpty ∧ exp = none ∧ ¬(negative = true ∧ n = 0) ∧ fitsWord n = true then
    .integer n
  else
    let x := Binary64.ofDecimal (natOf (whole ++ frac)) (exp.getD 0 - frac.length)
    .float (if negative then x.negate else x)

/-- Reads a number; one whose nearest value is an infinity is refused. -/
def number (cs : List Char) : Option (Value × List Char) := do
  let (negative, cs) := match cs with
    | '-' :: rest => (true, rest)
    | cs => (false, cs)
  let (whole, cs) := digits cs
  if whole.isEmpty || (decide (1 < whole.length) && whole.head? == some '0') then none
  let (frac, cs) ← fraction cs
  let (exp, cs) ← exponent cs
  match numberOf negative whole frac exp with
  | .float x => if x.isInfinite then none else some (.float x, cs)
  | v => some (v, cs)

/-! ## Values -/

/-- How many arrays and objects may be open at once. -/
def nestingLimit : Nat := 127

mutual

/-- Reads a value that may have blanks before it; `depth` more arrays and objects may be
opened. -/
def value : Nat → Nat → List Char → Option (Value × List Char)
  | 0, _, _ => none
  | fuel + 1, depth, cs =>
    match skipBlank cs with
    | '"' :: rest => (string rest).map fun p => (.string p.1, p.2)
    | '[' :: rest =>
      if depth = 0 then none
      else
        match skipBlank rest with
        | ']' :: rest => some (.array [], rest)
        | rest => (items fuel (depth - 1) rest).map fun p => (.array p.1, p.2)
    | '\x7b' :: rest =>
      if depth = 0 then none
      else
        match skipBlank rest with
        | '\x7d' :: rest => some (.table [], rest)
        | rest => (members fuel (depth - 1) [] rest).map fun p => (.table p.1, p.2)
    | 't' :: rest => (literal ['r', 'u', 'e'] rest).map fun r => (.boolean true, r)
    | 'f' :: rest => (literal ['a', 'l', 's', 'e'] rest).map fun r => (.boolean false, r)
    | 'n' :: rest => (literal ['u', 'l', 'l'] rest).map fun r => (.null, r)
    | cs => number cs

/-- Reads the items of an array and its closing bracket. -/
def items : Nat → Nat → List Char → Option (List Value × List Char)
  | 0, _, _ => none
  | fuel + 1, depth, cs => do
    let (v, cs) ← value fuel depth cs
    match skipBlank cs with
    | ',' :: rest =>
      let (vs, rest) ← items fuel depth rest
      return (v :: vs, rest)
    | ']' :: rest => return ([v], rest)
    | _ => none

/-- Reads the members of an object and its closing brace. -/
def members :
    Nat → Nat → List (String × Value) → List Char → Option (List (String × Value) × List Char)
  | 0, _, _, _ => none
  | fuel + 1, depth, entries, cs =>
    match skipBlank cs with
    | '"' :: rest => do
      let (key, rest) ← string rest
      let rest ← literal [':'] (skipBlank rest)
      let (v, rest) ← value fuel depth rest
      let entries := insert entries key v
      match skipBlank rest with
      | ',' :: rest => members fuel depth entries rest
      | '\x7d' :: rest => return (entries, rest)
      | _ => none
    | _ => none

end

/-- Reads a whole text as one value. -/
def parse (text : String) : Option Value := do
  let cs := text.toList
  let (v, rest) ← value (2 * cs.length + 1) nestingLimit cs
  if (skipBlank rest).isEmpty then some v else none

end CoverageTracker.Json
