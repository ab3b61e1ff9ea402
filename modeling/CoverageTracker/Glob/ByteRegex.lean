set_option autoImplicit false

/-!
# Regular expressions over bytes

The expressions that patterns need: single bytes and runs of bytes from a set, one after
another or as alternatives.  Matching follows the expression and keeps, for every place
between two bytes of the text, whether the expression can be left there; `reach` turns
the places where it can be entered into those.  The work is the size of the expression
times the length of the text.
-/

namespace CoverageTracker.Glob

/-- A set of bytes, as ranges or as all but those ranges. -/
structure ByteSet where
  negated : Bool
  ranges : List (UInt8 × UInt8)
  deriving DecidableEq, Repr

namespace ByteSet

/-- Membership. -/
def holds (s : ByteSet) (b : UInt8) : Bool :=
  (s.ranges.any fun r => decide (r.1 ≤ b) && decide (b ≤ r.2)) != s.negated

/-- Every byte. -/
def all : ByteSet := ⟨true, []⟩

/-- One byte. -/
def single (b : UInt8) : ByteSet := ⟨false, [(b, b)]⟩

end ByteSet

/-- A regular expression. -/
inductive ByteRegex where
  /-- the empty text -/
  | empty
  /-- one byte of a set -/
  | byte (s : ByteSet)
  /-- any number of bytes of a set -/
  | many (s : ByteSet)
  /-- one after the other -/
  | seq (a b : ByteRegex)
  /-- one or the other -/
  | alt (a b : ByteRegex)
  deriving DecidableEq, Repr

namespace ByteRegex

/-- One expression after the other. -/
def ofList : List ByteRegex → ByteRegex
  | [] => empty
  | [r] => r
  | r :: rs => seq r (ofList rs)

/-- Any of the expressions; of none, the empty text. -/
def anyOf : List ByteRegex → ByteRegex
  | [] => empty
  | [r] => r
  | r :: rs => alt r (anyOf rs)

/-! ## Places

A text of `n` bytes has `n + 1` places: before each byte, and at its end.  A set of places
is a list of `n + 1` truth values. -/

/-- The places after one byte of a set, less the first place, which is after none. -/
def shift (s : ByteSet) : List UInt8 → List Bool → List Bool
  | b :: bs, m :: marks => (m && s.holds b) :: shift s bs marks
  | _, _ => []

/-- The places after any number of bytes of a set; `carry` says that the run goes on up to the
first place. -/
def sweep (s : ByteSet) : Bool → List UInt8 → List Bool → List Bool
  | _, _, [] => []
  | carry, [], m :: _ => [carry || m]
  | carry, b :: bs, m :: marks =>
    (carry || m) :: sweep s ((carry || m) && s.holds b) bs marks

/-- The places where an expression can be left when it is entered at the marked ones. -/
def reach (bs : List UInt8) : ByteRegex → List Bool → List Bool
  | empty, marks => marks
  | byte s, marks => false :: shift s bs marks
  | many s, marks => sweep s false bs marks
  | seq a b, marks => reach bs b (reach bs a marks)
  | alt a b, marks => List.zipWith or (reach bs a marks) (reach bs b marks)

/-- Whether an expression matches a whole text. -/
def accepts (r : ByteRegex) (bs : List UInt8) : Bool :=
  (reach bs r (true :: bs.map fun _ => false)).getLast? == some true

end ByteRegex

end CoverageTracker.Glob
