set_option autoImplicit false

/-!
# Binary64: double-precision values as bit patterns

A percent travels through the tracker as a 64-bit floating-point value, and every
bit of it can be seen at the far end.  The value is therefore held as its bit
pattern and all arithmetic on it is exact arithmetic on natural numbers: a value
that is not NaN is an integer multiple of `2 ^ -1074`, and `scaled` is that
integer.  Order, clamping and rounding are read off `scaled`; infinities need no
case of their own, since their `scaled` lies beyond that of every finite value.
-/

namespace CoverageTracker

/-- A double-precision value, held as its bit pattern. -/
structure Binary64 where
  bits : UInt64
  deriving DecidableEq, Repr, Inhabited

namespace Binary64

/-! ## Powers -/

/-- A power of two. -/
def pow2 (n : Nat) : Nat := Nat.pow 2 n

/-- A power of ten. -/
def pow10 (n : Nat) : Nat := Nat.pow 10 n

/-- The weight of the sign bit in the pattern: the 63rd power of two. -/
def signWeight : Nat := 0x8000000000000000

/-- The weight of the lowest exponent bit in the pattern, which is also that of the hidden bit
of a significand: the 52nd power of two. -/
def hiddenBit : Nat := 0x10000000000000

/-! ## Fields and exact value -/

/-- The sign bit. -/
def isNegative (x : Binary64) : Bool := decide (signWeight ≤ x.bits.toNat)

/-- The pattern without its sign bit. -/
def unsigned (x : Binary64) : Nat := x.bits.toNat % signWeight

/-- The eleven exponent bits. -/
def exponent (x : Binary64) : Nat := x.unsigned / hiddenBit

/-- The fifty-two fraction bits. -/
def fraction (x : Binary64) : Nat := x.unsigned % hiddenBit

/-- All exponent bits set and a fraction: not a number. -/
def isNaN (x : Binary64) : Bool := x.exponent == 2047 && x.fraction != 0

/-- All exponent bits set and no fraction: an infinity. -/
def isInfinite (x : Binary64) : Bool := x.exponent == 2047 && x.fraction == 0

/-- Not all exponent bits set: a number that is no infinity. -/
def isFinite (x : Binary64) : Bool := x.exponent != 2047

/-- Distance from zero in units of `2 ^ -1074`. -/
def magnitude (x : Binary64) : Nat :=
  if x.exponent = 0 then x.fraction
  else (hiddenBit + x.fraction) * pow2 (x.exponent - 1)

/-- The value in units of `2 ^ -1074`. -/
def scaled (x : Binary64) : Int :=
  if x.isNegative then -(x.magnitude : Int) else x.magnitude

/-- How many units of `2 ^ -1074` make one. -/
def unit : Nat := pow2 1074

/-! ## Constants -/

/-- Positive zero. -/
def zero : Binary64 := ⟨0⟩

/-- One hundred. -/
def hundred : Binary64 := ⟨0x4059000000000000⟩

/-- Positive infinity. -/
def infinity : Binary64 := ⟨0x7FF0000000000000⟩

/-- The pattern with the sign bit set. -/
def negate (x : Binary64) : Binary64 := ⟨x.bits ^^^ 0x8000000000000000⟩

/-! ## Order, clamping, rounding -/

/-- The order of values; NaN is below nothing and above nothing. -/
def lt (x y : Binary64) : Bool := !x.isNaN && !y.isNaN && decide (x.scaled < y.scaled)

/-- Equality of values: both zeros are equal, and NaN differs from itself. -/
def sameValue (x y : Binary64) : Bool :=
  !x.isNaN && !y.isNaN && decide (x.scaled = y.scaled)

/-- The nearest value between zero and one hundred; a value already there, negative
zero and NaN included, is kept as it is. -/
def clampPercent (x : Binary64) : Binary64 :=
  if x.lt zero then zero else if hundred.lt x then hundred else x

/-- Whether a value is a number from zero to one hundred, negative zero included. -/
def isPercent (x : Binary64) : Bool := !x.isNaN && !x.lt zero && !hundred.lt x

theorem isPercent_zero : zero.isPercent = true := by decide +kernel

theorem isPercent_hundred : hundred.isPercent = true := by decide +kernel

theorem isPercent_clampPercent {x : Binary64} (hx : x.isNaN = false) :
    x.clampPercent.isPercent = true := by
  unfold clampPercent
  split
  · exact isPercent_zero
  split
  · exact isPercent_hundred
  · simp [isPercent, *]

/-- The nearest natural number up to 255, halves going up; 0 for NaN and for
negative values. -/
def nearestByte (x : Binary64) : Nat :=
  if x.isNaN || x.isNegative then 0
  else min 255 ((2 * x.magnitude + unit) / (2 * unit))

/-! ## From a quotient of natural numbers -/

/-- The quotient rounded to the nearest natural number, a tie going to the even
neighbour. -/
def roundTiesToEven (num den : Nat) : Nat :=
  let q := num / den
  let twice := 2 * (num % den)
  if twice < den then q
  else if den < twice then q + 1
  else if q % 2 = 0 then q else q + 1

/-- The value nearest to `num / den`, a tie going to the even pattern; infinity when
no finite value is near enough.  The significand `m` and the shift `s` of a
non-negative value make the pattern `s * 2 ^ 52 + m`, also when rounding carried
`m` up to `2 ^ 53`. -/
def ofRatio (num den : Nat) : Binary64 :=
  let t := num * unit
  let floor := t / den
  let shift := if floor < 2 * hiddenBit then 0 else floor.log2 - 52
  let pattern := shift * hiddenBit + roundTiesToEven t (den * pow2 shift)
  if pattern < 2047 * hiddenBit then ⟨UInt64.ofNat pattern⟩ else infinity

/-- The value nearest to `significand * 10 ^ exponent`.  Beyond 400 decimal places in
either direction the answer no longer depends on the digits. -/
def ofDecimal (significand : Nat) (exponent : Int) : Binary64 :=
  let digits : Int := (Nat.toDigits 10 significand).length
  if significand = 0 ∨ exponent + digits < -400 then zero
  else if exponent + digits > 400 then infinity
  else if 0 ≤ exponent then ofRatio (significand * pow10 exponent.toNat) 1
  else ofRatio significand (pow10 (-exponent).toNat)

/-- The value nearest to an integer. -/
def ofInt (n : Int) : Binary64 :=
  if n < 0 then (ofDecimal n.natAbs 0).negate else ofDecimal n.natAbs 0

/-! ## Hexadecimal text of the pattern -/

/-- The sixteen lower-case hexadecimal digits of the pattern. -/
def toHex (x : Binary64) : String :=
  let digits := Nat.toDigits 16 x.bits.toNat
  String.ofList (List.replicate (16 - digits.length) '0' ++ digits)

/-- The number that a hexadecimal digit of either case stands for. -/
def hexDigit? (c : Char) : Option Nat :=
  if '0' ≤ c ∧ c ≤ '9' then some (c.toNat - '0'.toNat)
  else if 'a' ≤ c ∧ c ≤ 'f' then some (c.toNat - 'a'.toNat + 10)
  else if 'A' ≤ c ∧ c ≤ 'F' then some (c.toNat - 'A'.toNat + 10)
  else none

/-- Reads exactly sixteen hexadecimal digits of either case. -/
def ofHex? (digits : List Char) : Option Binary64 :=
  if digits.length = 16 then
    (digits.mapM hexDigit?).map fun ds =>
      ⟨UInt64.ofNat (ds.foldl (fun n d => 16 * n + d) 0)⟩
  else none

end Binary64

end CoverageTracker
