import CodeBridge.Decimal.Double

/-! # The shortest decimal of a double

The decimal with the fewest digits that reads back as the same double, and of those the closest one. Both
neighbours of the value on each decimal grid are tried, from the coarsest grid on. -/

namespace CodeBridge.Decimal

/-- The decimal `digits * 10 ^ exponent`. -/
structure Digits where
  digits : Nat
  exponent : Int
deriving DecidableEq, Repr

/-- The decimal without zeros at its end. -/
def Digits.normal (d : Digits) : Nat → Digits
  | 0 => d
  | fuel + 1 =>
    if d.digits != 0 && d.digits % 10 == 0 then Digits.normal ⟨d.digits / 10, d.exponent + 1⟩ fuel else d

def Digits.fraction (d : Digits) : Nat × Nat :=
  if 0 ≤ d.exponent then (d.digits * Nat.pow 10 d.exponent.toNat, 1) else (d.digits, Nat.pow 10 (-d.exponent).toNat)

/-- The largest power of ten that is at most `num / den`, as an exponent, for a quotient above zero. -/
def magnitude (num den : Nat) : Int :=
  let guess : Int := ((Nat.toDigits 10 num).length : Int) - (Nat.toDigits 10 den).length
  let reaches (k : Int) : Bool := den * Nat.pow 10 k.toNat ≤ num * Nat.pow 10 (-k).toNat
  if reaches guess then guess else guess - 1

/-- The two neighbours of `num / den` among the multiples of `10 ^ unit`, the closer one first; an exact tie
puts the even one first. -/
def neighbours (num den : Nat) (unit : Int) : List Nat :=
  let n := num * Nat.pow 10 (-unit).toNat
  let d := den * Nat.pow 10 unit.toNat
  let near := roundDiv n d
  let low := n / d
  if near == low then [low, low + 1] else [low + 1, low]

/-- The shortest decimal that reads back as the double with these bits. -/
def shortestOfBits (bits : Nat) (b : Binary) : Digits :=
  let (num, den) := b.fraction
  let top := magnitude num den
  let tries (count : Nat) : Option Digits :=
    let unit := top - count
    (neighbours num den unit).findSome? fun digits =>
      let d : Digits := ⟨digits, unit⟩
      let (n, m) := d.fraction
      if nearestBits? n m == some bits then some d else none
  match (List.range 17).findSome? tries with
  | some d => d.normal 20
  | none => ⟨b.mantissa, 0⟩

end CodeBridge.Decimal
