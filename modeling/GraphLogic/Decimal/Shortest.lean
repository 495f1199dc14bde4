/-!
# Shortest decimals

The decimal with the fewest digits that reads back as a given float, and of those the one nearest
to it. The search works with integers only: a float is `m * 2 ^ q`, and the numbers that round to
it reach half way to its two neighbours.
-/

namespace GraphLogic

/-- The number `digits * 10 ^ exponent`. -/
structure Decimal where
  digits : Nat
  exponent : Int
  deriving DecidableEq, Repr

/-- The positive numbers that read back as one float, in units of `2 ^ scale`. -/
structure Decimal.Interval where
  low : Nat
  middle : Nat
  high : Nat
  /-- Whether the ends belong to it. -/
  closed : Bool
  scale : Int

namespace Decimal

namespace Interval

/-- The interval of `m * 2 ^ q`. Below a power of two floats lie closer; `tight` says that `m` is
one and that there are smaller floats of its kind. -/
def ofFloat (m : Nat) (q : Int) (tight : Bool) : Interval where
  low := 4 * m - if tight then 1 else 2
  middle := 4 * m
  high := 4 * m + 2
  closed := m % 2 = 0
  scale := q - 2

/-- The multiple of `10 ^ k` in the interval that is nearest to its middle, if there is one. -/
def multiple? (i : Interval) (k : Int) : Option Decimal :=
  let unit := Nat.pow 2 i.scale.toNat * Nat.pow 10 (-k).toNat
  let step := Nat.pow 2 (-i.scale).toNat * Nat.pow 10 k.toNat
  let inside (d : Nat) : Bool :=
    if i.closed then i.low * unit ≤ d * step && d * step ≤ i.high * unit
    else i.low * unit < d * step && d * step < i.high * unit
  let below := i.middle * unit / step
  let above := below + 1
  if inside below && inside above then
    if i.middle * unit - below * step ≤ above * step - i.middle * unit
    then some ⟨below, k⟩ else some ⟨above, k⟩
  else if inside below then some ⟨below, k⟩
  else if inside above then some ⟨above, k⟩
  else none

/-- The coarsest multiple among the powers of ten `10 ^ k`, `10 ^ (k - 1)`, … -/
def coarsest (i : Interval) (k : Int) : Nat → Decimal
  | 0 => ⟨i.middle, i.scale⟩
  | tries + 1 => (i.multiple? k).getD (coarsest i (k - 1) tries)

end Interval

/-- The highest bit of the significand; the bits of a float leave it out. -/
def leadingBit : Nat := 0x10000000000000

/-- The shortest decimal of the positive finite float with the bits `bits`. Seventeen digits always
suffice. -/
def ofBits (bits : Nat) : Decimal :=
  let fraction := bits % leadingBit
  let field := bits / leadingBit % 0x800
  let m := if field = 0 then fraction else leadingBit + fraction
  let q : Int := max field 1 - 1075
  let i := Interval.ofFloat m q (fraction == 0 && 1 < field)
  -- A number below `2 ^ n` is below `10 ^ (n * 30103 / 100000 + 1)`.
  i.coarsest ((Nat.log2 m + 1 + q) * 30103 / 100000 + 1) 20

/-- The decimal without an exponent, with at least one digit behind the point. -/
def positional (d : Decimal) : String :=
  let digits := toString d.digits
  if 0 ≤ d.exponent then digits ++ String.ofList (List.replicate d.exponent.toNat '0') ++ ".0"
  else
    let places := d.exponent.natAbs
    let padded := List.replicate (places + 1 - digits.length) '0' ++ digits.toList
    let whole := padded.length - places
    String.ofList (padded.take whole) ++ "." ++ String.ofList (padded.drop whole)

end Decimal

/-- The bit that is set in the bits of a negative float. -/
def signBit : Nat := 0x8000000000000000

/-- The shortest text of a float that reads back as it. -/
def floatText (x : Float) : String :=
  if x.isNaN then "NaN"
  else
    let bits := x.toBits.toNat
    let sign := if bits < signBit then "" else "-"
    if x.isInf then sign ++ "inf"
    else if x == 0 then sign ++ "0.0"
    else sign ++ (Decimal.ofBits (bits % signBit)).positional

end GraphLogic
