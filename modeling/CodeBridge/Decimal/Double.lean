/-! # Doubles as exact numbers

A finite double is a whole number times a power of two. `Binary.ofFloat?` takes a double apart, and
`nearest` finds the double that lies closest to a quotient of whole numbers, an exact half going to the
even neighbour. -/

namespace CodeBridge.Decimal

/-- The whole number closest to `num / den`; an exact half goes to the even neighbour. -/
def roundDiv (num den : Nat) : Nat :=
  let low := num / den
  let rest := num % den
  if 2 * rest < den then low
  else if den < 2 * rest then low + 1
  else low + low % 2

/-- A finite double: its size is `mantissa * 2 ^ exponent`. -/
structure Binary where
  negative : Bool
  mantissa : Nat
  exponent : Int
deriving DecidableEq, Repr

/-- The size of a finite double as a fraction. -/
def Binary.fraction (b : Binary) : Nat × Nat :=
  if 0 ≤ b.exponent then (b.mantissa * Nat.pow 2 b.exponent.toNat, 1)
  else (b.mantissa, Nat.pow 2 (-b.exponent).toNat)

/-- The parts of a double by its bits; infinities and NaNs have none. -/
def Binary.ofBits? (bits : Nat) : Option Binary :=
  let biased : Nat := bits / Nat.pow 2 52 % Nat.pow 2 11
  let low : Nat := bits % Nat.pow 2 52
  let negative := bits / Nat.pow 2 63 % 2 == 1
  if biased == 2047 then none
  else if biased == 0 then some ⟨negative, low, -1074⟩
  else some ⟨negative, low + Nat.pow 2 52, (biased : Int) - 1075⟩

def Binary.ofFloat? (x : Float) : Option Binary :=
  Binary.ofBits? x.toBits.toNat

/-- The bits of the double closest to `num / den`, without the sign; none if it is too large for a double. -/
def nearestBits? (num den : Nat) : Option Nat :=
  if num == 0 then some 0
  else
    let guess : Int := max ((num.log2 : Int) - den.log2 - 52) (-1074)
    let scaled (q : Int) : Nat × Nat := (num * Nat.pow 2 (-q).toNat, den * Nat.pow 2 q.toNat)
    let (n, d) := scaled guess
    let exponent := if n < d * Nat.pow 2 52 && -1074 < guess then guess - 1 else guess
    let (n, d) := scaled exponent
    let bits := (exponent + 1074).toNat * Nat.pow 2 52 + roundDiv n d
    if bits < 2047 * Nat.pow 2 52 then some bits else none

/-- The double closest to `num / den` with the given sign; none if it is too large for a double. -/
def nearest? (negative : Bool) (num den : Nat) : Option Float :=
  (nearestBits? num den).map fun bits =>
    Float.ofBits (UInt64.ofNat (bits + if negative then Nat.pow 2 63 else 0))

/-- The double closest to a whole number; none if it is too large for a double. -/
def ofInt? (n : Int) : Option Float :=
  nearest? (n < 0) n.natAbs 1

def isNegative (x : Float) : Bool :=
  x.toBits.toNat / Nat.pow 2 63 % 2 == 1

/-- The infinity with the given sign. -/
def infinity (negative : Bool) : Float :=
  Float.ofBits (UInt64.ofNat (2047 * Nat.pow 2 52 + if negative then Nat.pow 2 63 else 0))

/-- The double closest to `digits * 10 ^ exponent`; what is too large becomes an infinity. -/
def ofScientific (negative : Bool) (digits : Nat) (exponent : Int) : Float :=
  let size := (Nat.toDigits 10 digits).length + exponent
  if digits == 0 || size < -400 then Float.ofBits (if negative then 0x8000000000000000 else 0)
  else if 400 < size then infinity negative
  else
    let found :=
      if 0 ≤ exponent then nearest? negative (digits * Nat.pow 10 exponent.toNat) 1
      else nearest? negative digits (Nat.pow 10 (-exponent).toNat)
    found.getD (infinity negative)

end CodeBridge.Decimal
