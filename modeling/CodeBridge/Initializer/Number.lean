import CodeBridge.Text.Blank
import CodeBridge.Text.Digit
import CodeBridge.Value

/-! # Reading whole numbers

A text is a whole number when it is digits, of any script and with single underscores between them, with a
sign before and blanks around. -/

namespace CodeBridge.Initializer

/-- The digits at the start of a text, whether an underscore between them is out of place, and the rest. -/
def leadingDigits (behindUnderscore : Bool) : List Char → List Nat × Bool × List Char
  | [] => ([], behindUnderscore, [])
  | c :: rest =>
    if c == '_' then
      if behindUnderscore then ([], true, c :: rest) else leadingDigits true rest
    else
      match Text.digitValue? c with
      | some d =>
        let (ds, misplaced, rest) := leadingDigits false rest
        (d :: ds, misplaced, rest)
      | none => ([], behindUnderscore, c :: rest)

def signAndRest : List Char → Bool × List Char
  | '-' :: rest => (true, rest)
  | '+' :: rest => (false, rest)
  | rest => (false, rest)

/-- The blanks that may stand around a number: all but the four separators of files, groups, records and units. -/
def isPadding (c : Char) : Bool :=
  Text.isBlank c && !(28 ≤ c.toNat && c.toNat ≤ 31)

/-- The whole number that a text spells. -/
def readInteger (text : String) : Except Fault Int :=
  let (negative, rest) := signAndRest (text.toList.dropWhile isPadding)
  let (ds, misplaced, rest) := leadingDigits true rest
  if misplaced || ds.isEmpty then .error (.notInteger text)
  else if Decimal.digitLimit < ds.length then .error (.digitsTooMany ds.length)
  else if !(rest.dropWhile isPadding).isEmpty then .error (.notInteger text)
  else
    let n : Nat := ds.foldl (fun n d => n * 10 + d) 0
    .ok (if negative then -(n : Int) else n)

/-- A value as a whole number: a double loses its fraction, and a text is read. -/
def toInteger : Value → Except Fault Int
  | .int n => .ok n
  | .bool b => .ok (if b then 1 else 0)
  | .float x =>
    match Decimal.Binary.ofFloat? x with
    | some b =>
      let (n, d) := b.fraction
      let n : Int := n / d
      .ok (if b.negative then -n else n)
    | none => .error (if x.isNaN then .nanNotInteger else .infinityNotInteger)
  | .text s => readInteger s
  | v => .error (.kindNotInteger v.kind)

end CodeBridge.Initializer
