import SelectBuilder.Text.Basic

/-! Double-precision numbers by their bits, and the decimals they are written with. A finite number other than
zero is `significand · 2 ^ exponent` with a whole significand. Comparison is that of IEEE 754: the zeros are equal
and NaN equals nothing. The number below is only half a step away where the significand is a power of two just above
another binade. Every NaN has one canonical pattern. -/
namespace SelectBuilder.Decimal

structure Binary64 where
  bits : UInt64
  deriving DecidableEq, Repr

namespace Binary64

def isNegative (x : Binary64) : Bool := x.bits.toNat / Nat.pow 2 63 = 1

def exponentField (x : Binary64) : Nat := x.bits.toNat / Nat.pow 2 52 % 2048

def fraction (x : Binary64) : Nat := x.bits.toNat % Nat.pow 2 52

def isNaN (x : Binary64) : Bool := x.exponentField = 2047 && x.fraction ≠ 0

def isInfinite (x : Binary64) : Bool := x.exponentField = 2047 && x.fraction = 0

def isZero (x : Binary64) : Bool := x.exponentField = 0 && x.fraction = 0

def significand (x : Binary64) : Nat :=
  if x.exponentField = 0 then x.fraction else x.fraction + Nat.pow 2 52

def exponent (x : Binary64) : Int :=
  if x.exponentField = 0 then -1074 else x.exponentField - 1075

def hasNarrowStepBelow (x : Binary64) : Bool := x.fraction = 0 && 1 < x.exponentField

def sameNumber (x y : Binary64) : Bool :=
  !x.isNaN && !y.isNaN && (x.bits = y.bits || x.isZero && y.isZero)

def canonicalBits (x : Binary64) : UInt64 := if x.isNaN then 0x7ff8000000000000 else x.bits

def ofFields (negative : Bool) (exponentField fraction : Nat) : Binary64 :=
  ⟨UInt64.ofNat ((if negative then Nat.pow 2 63 else 0) + exponentField * Nat.pow 2 52 + fraction)⟩

def ofSingle (bits : UInt32) : Binary64 :=
  let negative := bits.toNat / Nat.pow 2 31 = 1
  let field := bits.toNat / Nat.pow 2 23 % 256
  let fraction := bits.toNat % Nat.pow 2 23
  if field = 255 then ofFields negative 2047 (fraction * Nat.pow 2 29)
  else if field ≠ 0 then ofFields negative (field + 896) (fraction * Nat.pow 2 29)
  else if fraction = 0 then ofFields negative 0 0
  else
    let top := Nat.log2 fraction
    ofFields negative (top + 874) ((fraction - Nat.pow 2 top) * Nat.pow 2 (52 - top))

end Binary64

/-! The shortest decimal that reads back as a given double. The reals that round to the number form an
interval, ends included when the significand is even; in quarter steps both ends are whole. On the grid of
`n` significant digits only the two neighbours of the number matter; the first grid with one of them inside
wins, of two the nearer, and an exact tie goes up. Seventeen digits always suffice. Zero and what is not
finite have no such decimal and are not covered. -/

structure Numeral where
  digits : Nat
  scale : Int
  deriving DecidableEq, Repr

def digitCount (n : Nat) : Nat := (Nat.toDigits 10 n).length

structure Span where
  low : Nat
  middle : Nat
  high : Nat
  unit : Nat
  closed : Bool
  deriving DecidableEq, Repr

namespace Span

def ofBinary64 (x : Binary64) : Span :=
  let below := if x.hasNarrowStepBelow then 1 else 2
  let quarter := x.exponent - 2
  let up := Nat.pow 2 quarter.toNat
  { low := (4 * x.significand - below) * up
    middle := 4 * x.significand * up
    high := (4 * x.significand + 2) * up
    unit := Nat.pow 2 (-quarter).toNat
    closed := x.significand % 2 = 0 }

def scaled (s : Span) (scale : Int) : Span :=
  let down := Nat.pow 10 scale.toNat
  let up := Nat.pow 10 (-scale).toNat
  { s with low := s.low * up, middle := s.middle * up, high := s.high * up, unit := s.unit * down }

def contains (s : Span) (n : Nat) : Bool :=
  if s.closed then s.low ≤ n * s.unit && n * s.unit ≤ s.high
  else s.low < n * s.unit && n * s.unit < s.high

def floor (s : Span) : Nat := s.middle / s.unit

def leading (s : Span) : Int :=
  if s.unit ≤ s.middle then digitCount s.floor - 1
  else -(digitCount ((s.unit - 1) / s.middle) : Int)

def nearest? (s : Span) : Option Nat :=
  let below := s.floor
  match s.contains below, s.contains (below + 1) with
  | true, true => some (if s.middle - below * s.unit < (below + 1) * s.unit - s.middle then below else below + 1)
  | true, false => some below
  | false, true => some (below + 1)
  | false, false => none

end Span

def withDigits? (s : Span) (count : Nat) : Option Numeral :=
  let scale := s.leading + 1 - count
  (s.scaled scale).nearest?.map fun digits => ⟨digits, scale⟩

def dropZeros : Nat → Numeral → Numeral
  | 0, d => d
  | fuel + 1, d => if d.digits % 10 = 0 then dropZeros fuel ⟨d.digits / 10, d.scale + 1⟩ else d

def shortest (x : Binary64) : Numeral :=
  let s := Span.ofBinary64 x
  let found := (List.range' 1 17).findSome? (withDigits? s)
  dropZeros 17 (found.getD ⟨(s.scaled (s.leading - 16)).floor, s.leading - 16⟩)

/-! The plain form never has an exponent and writes whole numbers without a point. -/

namespace Numeral

def point (d : Numeral) : Int := digitCount d.digits + d.scale

def positional (d : Numeral) (whole : Text) : Text :=
  let digits := Text.ofNat d.digits
  if 0 ≤ d.scale then digits ++ List.replicate d.scale.toNat '0' ++ whole
  else if d.point ≤ 0 then "0." ++ List.replicate (-d.point).toNat '0' ++ digits
  else digits.take d.point.toNat ++ ['.'] ++ digits.drop d.point.toNat

end Numeral

namespace Binary64

def written (x : Binary64) (zero : Text) (finite : Numeral → Text) : Text :=
  if x.isNaN then "NaN"
  else
    let body : Text := if x.isInfinite then "inf" else if x.isZero then zero else finite (shortest x)
    if x.isNegative then '-' :: body else body

def plain (x : Binary64) : Text := x.written "0" fun d => d.positional []

end Binary64

end SelectBuilder.Decimal
