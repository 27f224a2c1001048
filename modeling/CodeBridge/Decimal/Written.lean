import CodeBridge.Decimal.Shortest

/-! # Numbers as text

A double is written with its shortest digits, positionally while the exponent of its first digit is from -4
to 15 and with a two-digit exponent otherwise; a whole number keeps `.0`. `fixed` writes a given number of
places, and `roundTo` rounds a double to a given number of places; both go to the even neighbour on an
exact half of the true value. -/

namespace CodeBridge.Decimal

/-- A whole number in decimal digits. -/
def natText (n : Nat) : String :=
  String.ofList (Nat.toDigits 10 n)

def intText (n : Int) : String :=
  if n < 0 then "-" ++ natText n.natAbs else natText n.natAbs

/-- The number of digits of a whole number that can still be written as text. -/
def digitLimit : Nat := 4300

def tooLong (n : Int) : Bool :=
  Nat.pow 10 digitLimit ≤ n.natAbs

def zeros (n : Nat) : String :=
  String.ofList (List.replicate n '0')

/-- How a shortest decimal is laid out. -/
structure Layout where
  /-- The first digit's exponents from here on are written positionally, -/
  lowest : Int
  /-- up to here. -/
  highest : Int
  /-- The digits an exponent has at least. -/
  exponentDigits : Nat

/-- The layout of doubles in generated text. -/
def Layout.plain : Layout := ⟨-4, 15, 2⟩

def Layout.write (f : Layout) (d : Digits) : String :=
  let ds := Nat.toDigits 10 d.digits
  let count := ds.length
  let first : Int := d.exponent + count - 1
  if f.lowest ≤ first && first ≤ f.highest then
    if 0 ≤ d.exponent then String.ofList ds ++ zeros d.exponent.toNat ++ ".0"
    else if first < 0 then "0." ++ zeros (-first - 1).toNat ++ String.ofList ds
    else
      let whole := (first + 1).toNat
      String.ofList (ds.take whole) ++ "." ++ String.ofList (ds.drop whole)
  else
    let mantissa := match ds with
      | [] => ""
      | [c] => String.ofList [c]
      | c :: rest => String.ofList (c :: '.' :: rest)
    let e := natText first.natAbs
    mantissa ++ "e" ++ (if first < 0 then "-" else "+") ++ zeros (f.exponentDigits - e.length) ++ e

/-- A double as text. -/
def floatText (x : Float) : String :=
  match Binary.ofFloat? x with
  | none => if x.isNaN then "nan" else if isNegative x then "-inf" else "inf"
  | some b =>
    let body :=
      if b.mantissa == 0 then "0.0"
      else Layout.plain.write (shortestOfBits (x.toBits.toNat % Nat.pow 2 63) b)
    if b.negative then "-" ++ body else body

/-- A double with a fixed number of places. -/
def fixed (places : Nat) (x : Float) : String :=
  match Binary.ofFloat? x with
  | none => if x.isNaN then "nan" else if isNegative x then "-inf" else "inf"
  | some b =>
    let (num, den) := b.fraction
    let units := natText (roundDiv (num * Nat.pow 10 places) den)
    let padded := zeros (places + 1 - units.length) ++ units
    let cs := padded.toList
    let whole := cs.length - places
    let body := if places == 0 then padded else String.ofList (cs.take whole ++ '.' :: cs.drop whole)
    if b.negative then "-" ++ body else body

/-- A double rounded to `places` decimal places; a negative number of places rounds to tens, hundreds and so
on. Beyond 323 places nothing is left to round. -/
def roundTo (x : Float) (places : Int) : Float :=
  match Binary.ofFloat? x with
  | none => x
  | some b =>
    if 323 < places then x
    else
      let (num, den) := b.fraction
      let units := roundDiv (num * Nat.pow 10 places.toNat) (den * Nat.pow 10 (-places).toNat)
      ofScientific b.negative units (-places)

/-- A double rounded to `count` significant digits; zero loses its sign. -/
def roundSignificant (count : Nat) (x : Float) : Float :=
  match Binary.ofFloat? x with
  | none => x
  | some b =>
    if b.mantissa == 0 then 0
    else
      let (num, den) := b.fraction
      roundTo x (count - 1 - magnitude num den)

end CodeBridge.Decimal
