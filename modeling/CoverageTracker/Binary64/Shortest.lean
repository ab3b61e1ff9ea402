import CoverageTracker.Binary64
set_option autoImplicit false

/-!
# The fewest digits that read back

Every pattern stands for an interval of numbers: those that lie nearer to its
value than to any other.  Its decimal text is the shortest decimal in that
interval, and of two that are equally short the nearer one.  A layout decides the rest:
which of two that are equally near, and whether an exponent is written.

`Shortest.digits` searches the decimal grids from coarse to fine.  On each grid
only the two neighbours of the value can be the nearest hit, so one division
decides the grid.
-/

namespace CoverageTracker.Binary64

/-- A positive decimal `significand * 10 ^ exponent`. -/
structure Decimal where
  significand : Nat
  exponent : Int
  deriving DecidableEq, Repr

/-- How the text of a value is laid out. -/
inductive Layout where
  /-- never with an exponent; of two equally near decimals the upper one -/
  | positional
  /-- with an exponent below `1e-5` and from `1e16` on; of two equally near decimals the
  even one -/
  | compact
  deriving DecidableEq, Repr

namespace Shortest

/-- The numbers that round to one positive value: its value and the ends of the
interval as numerators over one denominator, and whether the ends belong to it. -/
structure Interval where
  low : Nat
  value : Nat
  high : Nat
  closed : Bool
  deriving Repr

/-- The rounding interval of a finite positive value, over the denominator
`4 * unit`.  Below a power of two the neighbour is half as far away. -/
def interval (x : Binary64) : Interval :=
  let step := if x.exponent = 0 then 1 else pow2 (x.exponent - 1)
  let v := 4 * x.magnitude
  let below := if x.fraction = 0 ∧ 1 < x.exponent then step else 2 * step
  { low := v - below, value := v, high := v + 2 * step, closed := x.fraction % 2 = 0 }

/-- Membership of a numerator over `den` in the interval over `4 * unit`. -/
def Interval.holds (i : Interval) (num den : Nat) : Bool :=
  let p := num * (4 * unit)
  if i.closed then decide (i.low * den ≤ p) && decide (p ≤ i.high * den)
  else decide (i.low * den < p) && decide (p < i.high * den)

/-- Whether the lower of two equally near decimals is taken; `floor` is its significand. -/
def takesLower : Layout → Nat → Bool
  | .positional, _ => false
  | .compact, floor => floor % 2 == 0

/-- The best hit on the grid of multiples of `10 ^ k`, if the grid has one. -/
def onGrid (layout : Layout) (i : Interval) (k : Int) : Option Nat :=
  let up := pow10 k.toNat
  let down := pow10 (-k).toNat
  let den := 4 * unit * up
  let floor := i.value * down / den
  let rest := i.value * down % den
  let lower := 0 < floor ∧ i.holds (floor * up) down
  let upper := i.holds ((floor + 1) * up) down
  if lower ∧ (¬upper ∨ 2 * rest < den ∨ (2 * rest = den ∧ takesLower layout floor)) then
    some floor
  else if upper then some (floor + 1)
  else none

/-- The first grid with a hit, from `10 ^ k` downwards. -/
def search (layout : Layout) (i : Interval) : Nat → Int → Decimal
  | 0, k => ⟨i.value * pow10 (-k).toNat / (4 * unit * pow10 k.toNat), k⟩
  | n + 1, k =>
    match onGrid layout i k with
    | some d => ⟨d, k⟩
    | none => search layout i n (k - 1)

/-- The place after the leading digit of a positive quotient: the least `p` with
`num / den < 10 ^ p`, searched upwards from `-400`. -/
def places (num den : Nat) : Nat → Int → Int
  | 0, p => p
  | n + 1, p =>
    if num * pow10 (-p).toNat < den * pow10 p.toNat then p else places num den n (p + 1)

/-- The shortest decimal that reads back to a finite positive value. -/
def digits (layout : Layout) (x : Binary64) : Decimal :=
  let i := interval x
  search layout i 25 (places i.value (4 * unit) 800 (-400))

end Shortest

/-! ## Text -/

/-- A decimal in positional notation; a whole number is given one decimal place. -/
def Decimal.positional (d : Decimal) : String :=
  let ds := Nat.toDigits 10 d.significand
  let text :=
    if 0 ≤ d.exponent then ds ++ List.replicate d.exponent.toNat '0' ++ ['.', '0']
    else
      let n := (-d.exponent).toNat
      let padded := List.replicate (n + 1 - ds.length) '0' ++ ds
      padded.take (padded.length - n) ++ '.' :: padded.drop (padded.length - n)
  String.ofList text

/-- The power of ten of the leading digit. -/
def Decimal.magnitude (d : Decimal) : Int :=
  d.exponent + (Nat.toDigits 10 d.significand).length - 1

/-- A decimal with one digit before its point, if it has a point, and with a signed
exponent. -/
def Decimal.scientific (d : Decimal) : String :=
  let mantissa := match Nat.toDigits 10 d.significand with
    | c :: c' :: cs => c :: '.' :: c' :: cs
    | cs => cs
  let sign := if d.magnitude < 0 then "-" else "+"
  String.ofList mantissa ++ "e" ++ sign ++ toString d.magnitude.natAbs

/-- A positive decimal as a layout writes it. -/
def Decimal.text (layout : Layout) (d : Decimal) : String :=
  match layout with
  | .positional => d.positional
  | .compact => if -5 ≤ d.magnitude ∧ d.magnitude < 16 then d.positional else d.scientific

/-- The text of a value: the shortest decimal that reads back, with a point or an exponent;
`inf`, `-inf` and `NaN` for the rest. -/
def toText (layout : Layout) (x : Binary64) : String :=
  if x.isNaN then "NaN"
  else
    let sign := if x.isNegative then "-" else ""
    if x.isInfinite then sign ++ "inf"
    else if x.magnitude = 0 then sign ++ "0.0"
    else sign ++ (Shortest.digits layout x).text layout

end CoverageTracker.Binary64
