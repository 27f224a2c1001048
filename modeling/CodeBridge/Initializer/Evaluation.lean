import CodeBridge.Initializer.Expression
import CodeBridge.Initializer.Number

/-! # The value of an initialiser

Whole numbers are exact and of any size; `/` gives a double, `//` and `%` go to the floor. An expression that
has no value, because a name stands for nothing, a divisor is zero or the kinds do not fit, evaluates to
`none`. Calls, displays and conditional expressions are not taken for expressions here. -/

namespace CodeBridge.Initializer

/-! ### Bits of whole numbers -/

/-- The bitwise complement of a whole number. -/
def complement (n : Int) : Int := -n - 1

/-- The bits of `a` that are not in `b`. -/
def clearBits (a b : Nat) : Nat := a ^^^ (a &&& b)

def bitAnd (a b : Int) : Int :=
  match decide (a < 0), decide (b < 0) with
  | false, false => (a.toNat &&& b.toNat : Nat)
  | false, true => clearBits a.toNat (complement b).toNat
  | true, false => clearBits b.toNat (complement a).toNat
  | true, true => complement ((complement a).toNat ||| (complement b).toNat : Nat)

def bitOr (a b : Int) : Int :=
  complement (bitAnd (complement a) (complement b))

def bitXor (a b : Int) : Int :=
  match decide (a < 0), decide (b < 0) with
  | false, false => (a.toNat ^^^ b.toNat : Nat)
  | false, true => complement (a.toNat ^^^ (complement b).toNat : Nat)
  | true, false => complement ((complement a).toNat ^^^ b.toNat : Nat)
  | true, true => ((complement a).toNat ^^^ (complement b).toNat : Nat)

/-! ### Doubles -/

/-- The exact remainder of a division that goes towards zero, with the sign of the dividend. -/
def truncatedRemainder (x y : Float) : Float :=
  match Decimal.Binary.ofFloat? x, Decimal.Binary.ofFloat? y with
  | some a, some b =>
    if b.mantissa == 0 then Float.ofBits 0x7ff8000000000000
    else
      let low := min a.exponent b.exponent
      let m := a.mantissa * Nat.pow 2 (a.exponent - low).toNat
      let n := b.mantissa * Nat.pow 2 (b.exponent - low).toNat
      let r := m % n
      let (num, den) := Decimal.Binary.fraction ⟨a.negative, r, low⟩
      (Decimal.nearest? a.negative num den).getD x
  | some _, none => if y.isNaN then y else x
  | none, _ => Float.ofBits 0x7ff8000000000000

def withSign (x : Float) (sign : Float) : Float :=
  if Decimal.isNegative x == Decimal.isNegative sign then x else -x

/-- The floor of a quotient of doubles, and the remainder that belongs to it. -/
def floorDivision (x y : Float) : Float × Float :=
  let m := truncatedRemainder x y
  let q := (x - m) / y
  let (m, q) :=
    if m != 0 then
      if (y < 0) != (m < 0) then (m + y, q - 1) else (m, q)
    else (withSign 0 y, q)
  let q :=
    if q != 0 then
      let f := q.floor
      if q - f > 0.5 then f + 1 else f
    else withSign 0 (x / y)
  (q, m)

def isFinite (x : Float) : Bool :=
  (Decimal.Binary.ofFloat? x).isSome

/-- Whether a double is a whole number. -/
def isWhole (x : Float) : Bool :=
  isFinite x && x.floor == x

/-- A power of doubles. It has no value when it leaves the real numbers or grows too large. -/
def floatPower (x y : Float) : Option Float :=
  if x == 0 && y < 0 then none
  else if x < 0 && isFinite x && isFinite y && !isWhole y then none
  else
    let z := Float.pow x y
    if isFinite x && isFinite y && !isFinite z then none else some z

/-! ### Operations -/

/-- A value as a whole number, if it is one. -/
def whole? : Value → Option Int
  | .int n => some n
  | .bool b => some (if b then 1 else 0)
  | _ => none

/-- A value as a double, if it is a number that a double can hold. -/
def double? : Value → Option Float
  | .float x => some x
  | v => (whole? v).bind Decimal.ofInt?

def isFloat : Value → Bool
  | .float _ => true
  | _ => false

def intDivide (a b : Int) : Option Float :=
  if b == 0 then none else Decimal.nearest? ((a < 0) != (b < 0)) a.natAbs b.natAbs

/-- The most binary places by which a number is moved to the left. -/
def longestShift : Nat := Nat.pow 2 32

/-- A number moved to the left by binary places; too far a move has no value, unless nothing is moved. -/
def shiftLeft (a b : Int) : Option Int :=
  if b < 0 then none
  else if a == 0 then some 0
  else if longestShift ≤ b.toNat then none
  else some (a * Int.pow 2 b.toNat)

/-- A number moved to the right by binary places, rounded down. Past its last place only its sign is left. -/
def shiftRight (a b : Int) : Option Int :=
  if b < 0 then none
  else if a.natAbs.log2 < b.toNat then some (if a < 0 then -1 else 0)
  else some (Int.fdiv a (Int.pow 2 b.toNat))

/-- A power with a whole exponent; the powers of 0, 1 and -1 do not grow with it. -/
def naturalPower (a : Int) (n : Nat) : Int :=
  if a.natAbs ≤ 1 then
    if n == 0 then 1 else if n % 2 == 0 then a * a else a
  else Int.pow a n

def intPower (a b : Int) : Option Value :=
  if 0 ≤ b then some (.int (naturalPower a b.toNat))
  else do
    let x ← Decimal.ofInt? a
    let y ← Decimal.ofInt? b
    return .float (← floatPower x y)

def intOperation (op : Operation) (a b : Int) : Option Value :=
  match op with
  | .or => some (.int (bitOr a b))
  | .xor => some (.int (bitXor a b))
  | .and => some (.int (bitAnd a b))
  | .shiftLeft => (shiftLeft a b).map .int
  | .shiftRight => (shiftRight a b).map .int
  | .add => some (.int (a + b))
  | .subtract => some (.int (a - b))
  | .multiply => some (.int (a * b))
  | .divide => (intDivide a b).map .float
  | .floorDivide => if b == 0 then none else some (.int (Int.fdiv a b))
  | .remainder => if b == 0 then none else some (.int (Int.fmod a b))
  | .power => intPower a b

def floatOperation (op : Operation) (x y : Float) : Option Value :=
  match op with
  | .add => some (.float (x + y))
  | .subtract => some (.float (x - y))
  | .multiply => some (.float (x * y))
  | .divide => if y == 0 then none else some (.float (x / y))
  | .floorDivide => if y == 0 then none else some (.float (floorDivision x y).1)
  | .remainder => if y == 0 then none else some (.float (floorDivision x y).2)
  | .power => (floatPower x y).map .float
  | _ => none

/-- Two flags combine to a flag by the bitwise operations. -/
def boolOperation? (op : Operation) (a b : Bool) : Option Value :=
  match op with
  | .or => some (.bool (a || b))
  | .xor => some (.bool (a != b))
  | .and => some (.bool (a && b))
  | _ => none

def numberOperation (op : Operation) (l r : Value) : Option Value :=
  match whole? l, whole? r with
  | some a, some b => intOperation op a b
  | _, _ =>
    match double? l, double? r with
    | some x, some y => if isFloat l || isFloat r then floatOperation op x y else none
    | _, _ => none

/-- The most characters that a repeated text may have. -/
def longestText : Nat := Nat.pow 2 31

/-- A text repeated. The count is a signed number of 64 bits, and none or fewer repetitions leave no text. -/
def repeated (s : String) (n : Int) : Option Value :=
  if n < -Int.pow 2 63 || Int.pow 2 63 ≤ n then none
  else if s.isEmpty then some (.text "")
  else if longestText < s.length * n.toNat then none
  else some (.text (String.join (List.replicate n.toNat s)))

def operate (op : Operation) (l r : Value) : Option Value :=
  match op, l, r with
  | .add, .text a, .text b => some (.text (a ++ b))
  | .multiply, .text a, r => (whole? r).bind (repeated a)
  | .multiply, l, .text b => (whole? l).bind (repeated b)
  | op, .bool a, .bool b => (boolOperation? op a b).orElse fun _ => numberOperation op l r
  | op, l, r => numberOperation op l r

/-! ### Comparisons -/

/-- A number as a fraction with a sign; infinities are beyond all fractions. -/
inductive Size where
  | below
  | at (num : Int) (den : Nat)
  | above
  | undefined

def Size.ofValue? : Value → Option Size
  | .float x =>
    match Decimal.Binary.ofFloat? x with
    | some b =>
      let (n, d) := b.fraction
      some (.at (if b.negative then -(n : Int) else n) d)
    | none => some (if x.isNaN then .undefined else if Decimal.isNegative x then .below else .above)
  | v => (whole? v).map fun n => .at n 1

def Size.compare? : Size → Size → Option Ordering
  | .undefined, _ => none
  | _, .undefined => none
  | .below, .below => some .eq
  | .above, .above => some .eq
  | .below, _ => some .lt
  | _, .below => some .gt
  | .above, _ => some .gt
  | _, .above => some .lt
  | .at a m, .at b n => some (Ord.compare (a * n) (b * m))

def Comparison.holds (c : Comparison) (o : Ordering) : Bool :=
  match c with
  | less => o == .lt
  | lessEqual => o != .gt
  | greater => o == .gt
  | greaterEqual => o != .lt
  | equal => o == .eq
  | notEqual => o != .eq

def textOrdering (a b : String) : Ordering :=
  if a == b then .eq else if a.toList.map Char.toNat < b.toList.map Char.toNat then .lt else .gt

def isNothing : Value → Bool
  | .nothing => true
  | _ => false

/-- Whether a comparison holds. Things of different kinds are not equal and cannot be ordered. -/
def compareValues (c : Comparison) (l r : Value) : Option Bool :=
  match Size.ofValue? l, Size.ofValue? r with
  | some a, some b =>
    match a.compare? b with
    | some o => some (c.holds o)
    | none => some (c == .notEqual)
  | _, _ =>
    match l, r with
    | .text a, .text b => some (c.holds (textOrdering a b))
    | l, r =>
      match c with
      | .equal => some (isNothing l && isNothing r)
      | .notEqual => some !(isNothing l && isNothing r)
      | _ => none

/-! ### Evaluation -/

def applySign (s : Sign) (v : Value) : Option Value :=
  match s, v with
  | .plus, .float x => some (.float x)
  | .minus, .float x => some (.float (-x))
  | .plus, v => (whole? v).map .int
  | .minus, v => (whole? v).map fun n => .int (-n)
  | .complement, v => (whole? v).map fun n => .int (complement n)

mutual

/-- The value of an expression. The right operand of `and` and `or` is only looked at when it counts. -/
def Expression.value? : Expression → Option Value
  | .literal v => some v
  | .unknown _ => none
  | .sign s e => do applySign s (← e.value?)
  | .binary op l r => do
    let a ← l.value?
    let b ← r.value?
    operate op a b
  | .compare first rest => do
    let a ← first.value?
    return .bool (← chainHolds? a rest)
  | .not e => do return .bool !(← e.value?).truthy
  | .both l r => do
    let a ← l.value?
    if a.truthy then r.value? else return a
  | .either l r => do
    let a ← l.value?
    if a.truthy then return a else r.value?

/-- Whether a chain of comparisons holds from its first operand on; the chain ends where one fails. -/
def chainHolds? (first : Value) : List (Comparison × Expression) → Option Bool
  | [] => some true
  | (c, e) :: rest => do
    let next ← e.value?
    if ← compareValues c first next then chainHolds? next rest else return false

end

/-- The value of an initialiser; a text that is no expression, or has no value, stands for itself. -/
def value (text : String) : Value :=
  ((Expression.ofText? text).bind (·.value?)).getD (.text text)

/-- The text that is shown for the value of an initialiser, and its whole number. -/
def evaluate (text : String) : Except Fault (String × Int) := do
  let v := value text
  return (← v.text?, ← toInteger v)

end CodeBridge.Initializer
