import CodeBridge.Decimal.Double
import CodeBridge.Text.Blank
import CodeBridge.Text.Digit

/-! # Doubles from text

A sign, digits with a point somewhere and an exponent behind them, with blanks around it all; single
underscores may stand between digits. Besides there are names for infinity and for no number. -/

namespace CodeBridge.Decimal

/-- The digits at the start of a text, where single underscores may stand between two of them. -/
def readDigits : List Char → List Nat × List Char
  | [] => ([], [])
  | '_' :: c :: rest =>
    match Text.digitValue? c with
    | some _ =>
      let (digits, behind) := readDigits (c :: rest)
      (digits, behind)
    | none => ([], '_' :: c :: rest)
  | c :: rest =>
    match Text.digitValue? c with
    | some d =>
      let (digits, behind) := readDigits rest
      (d :: digits, behind)
    | none => ([], c :: rest)

/-- The digits at the start, of which the first may not be an underscore. -/
def readPart (cs : List Char) : List Nat × List Char :=
  if cs.head? == some '_' then ([], cs) else readDigits cs

def readSign : List Char → Bool × List Char
  | '-' :: rest => (true, rest)
  | '+' :: rest => (false, rest)
  | cs => (false, cs)

def natOfDigits (digits : List Nat) : Nat :=
  digits.foldl (fun n d => 10 * n + d) 0

/-- The exponent that makes up the whole rest of a number; nothing at all is an exponent of zero. -/
def readExponent? : List Char → Option Int
  | [] => some 0
  | c :: rest =>
    if c == 'e' || c == 'E' then
      let (negative, rest) := readSign rest
      match readPart rest with
      | ([], _) => none
      | (digits, []) =>
        let n : Int := natOfDigits digits
        some (if negative then -n else n)
      | _ => none
    else none

/-- The number without its sign. -/
def readUnsigned? (negative : Bool) (cs : List Char) : Option Float := do
  let (whole, rest) := readPart cs
  let (places, rest) := match rest with
    | '.' :: rest => readPart rest
    | rest => ([], rest)
  if whole.isEmpty && places.isEmpty then none
  let e ← readExponent? rest
  return ofScientific negative (natOfDigits (whole ++ places)) (e - places.length)

/-- The double that a text stands for. -/
def read? (text : String) : Option Float :=
  let (negative, cs) := readSign (Text.trim text.toList)
  let word := String.ofList (cs.map Char.toLower)
  if word == "inf" || word == "infinity" then some (infinity negative)
  else if word == "nan" then some (0.0 / 0.0)
  else readUnsigned? negative cs

end CodeBridge.Decimal
