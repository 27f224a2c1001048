import CodeBridge.Text.Word
import CodeBridge.Value

/-! # Tokens of an initialiser

Numbers, quoted texts, names and operators. A text that cannot be cut into tokens has none. -/

namespace CodeBridge.Initializer

inductive Token where
  | literal (v : Value)
  | name (s : String)
  | operator (s : String)
  /-- The end of a line. -/
  | newline

/-- The operators, the longer ones first. -/
def operators : List (List Char) :=
  [['*', '*'], ['/', '/'], ['<', '<'], ['>', '>'], ['<', '='], ['>', '='], ['=', '='], ['!', '='],
   ['+'], ['-'], ['*'], ['/'], ['%'], ['&'], ['|'], ['^'], ['~'], ['<'], ['>'], ['('], [')']]

/-- The rest of a text behind `start`, if it starts so. -/
def after? : List Char → List Char → Option (List Char)
  | [], rest => some rest
  | c :: start, d :: rest => if c == d then after? start rest else none
  | _ :: _, [] => none

def operator? (cs : List Char) : Option (String × List Char) :=
  operators.findSome? fun op => (after? op cs).map fun rest => (String.ofList op, rest)

/-- The value of a digit in any base up to 16. -/
def digit? (c : Char) : Option Nat :=
  if '0' ≤ c && c ≤ '9' then some (c.toNat - 48)
  else if 'a' ≤ c && c ≤ 'f' then some (c.toNat - 87)
  else if 'A' ≤ c && c ≤ 'F' then some (c.toNat - 55)
  else none

def isDigit (base : Nat) (c : Char) : Bool :=
  match digit? c with
  | some d => d < base
  | none => false

/-- The digits at the start of a text, with single underscores between them, and the rest. -/
def digits (base : Nat) : List Char → List Char × List Char
  | '_' :: c :: rest =>
    if isDigit base c then
      let (ds, rest) := digits base rest
      (c :: ds, rest)
    else ([], '_' :: c :: rest)
  | c :: rest =>
    if isDigit base c then
      let (ds, rest) := digits base rest
      (c :: ds, rest)
    else ([], c :: rest)
  | [] => ([], [])

/-- `digits`, where an underscore may not come first. -/
def digitPart (base : Nat) (cs : List Char) : List Char × List Char :=
  match cs with
  | '_' :: _ => ([], cs)
  | _ => digits base cs

def digitsValue (base : Nat) (ds : List Char) : Nat :=
  ds.foldl (fun n c => n * base + (digit? c).getD 0) 0

/-- The words that may follow a number without a blank. -/
def joinedWords : List (List Char) :=
  [['a', 'n', 'd'], ['o', 'r'], ['i', 'f'], ['i', 'n'], ['i', 's'], ['e', 'l', 's', 'e'], ['f', 'o', 'r'],
   ['n', 'o', 't']]

/-- A number ends here: no word goes on, except one that may follow without a blank. -/
def endsNumber : List Char → Bool
  | [] => true
  | c :: rest => !Text.isWord c || joinedWords.any fun w => (after? w (c :: rest)).isSome

/-- A whole number in another base, behind its mark. -/
def based (base : Nat) (cs : List Char) : Option (Value × List Char) :=
  match digits base cs with
  | ([], _) => none
  | (ds, rest) => if endsNumber rest then some (.int (digitsValue base ds), rest) else none

/-- The exponent of a floating-point number. -/
def exponent? : List Char → Option (Int × List Char)
  | c :: rest =>
    if c == 'e' || c == 'E' then
      let (negative, rest) := match rest with
        | '-' :: rest => (true, rest)
        | '+' :: rest => (false, rest)
        | rest => (false, rest)
      match digitPart 10 rest with
      | ([], _) => none
      | (ds, rest) =>
        let n : Int := digitsValue 10 ds
        some (if negative then -n else n, rest)
    else none
  | [] => none

/-- A number in decimal digits: a whole number does not start with a zero, unless it is zero. -/
def decimal (cs : List Char) : Option (Value × List Char) :=
  let (whole, rest) := digitPart 10 cs
  let (fraction, rest, pointed) := match rest with
    | '.' :: rest =>
      let (ds, rest) := digitPart 10 rest
      (ds, rest, true)
    | rest => ([], rest, false)
  if whole.isEmpty && fraction.isEmpty then none
  else
    let (e, rest, scaled) := match exponent? rest with
      | some (e, rest) => (e, rest, true)
      | none => (0, rest, false)
    if !endsNumber rest then none
    else if pointed || scaled then
      let x := Decimal.ofScientific false (digitsValue 10 (whole ++ fraction)) (e - fraction.length)
      some (.float x, rest)
    else if whole.head? == some '0' && whole.any (· != '0') then none
    else if Decimal.digitLimit < whole.length then none
    else some (.int (digitsValue 10 whole), rest)

def number (cs : List Char) : Option (Value × List Char) :=
  match cs with
  | '0' :: 'x' :: rest => based 16 rest
  | '0' :: 'X' :: rest => based 16 rest
  | '0' :: 'o' :: rest => based 8 rest
  | '0' :: 'O' :: rest => based 8 rest
  | '0' :: 'b' :: rest => based 2 rest
  | '0' :: 'B' :: rest => based 2 rest
  | cs => decimal cs

/-- The character with the code in `count` hexadecimal digits. -/
def coded (count : Nat) (cs : List Char) : Option (Char × List Char) :=
  let ds := cs.take count
  if ds.length == count && ds.all (isDigit 16) then
    let n := digitsValue 16 ds
    if n.isValidChar then some (Char.ofNat n, cs.drop count) else none
  else none

/-- The inside of a quoted text up to its closing quote, and the rest. -/
def quotedText (quote : Char) : Nat → List Char → Option (List Char × List Char)
  | 0, _ => none
  | _ + 1, [] => none
  | fuel + 1, '\\' :: c :: rest =>
    let go (out : List Char) (rest : List Char) : Option (List Char × List Char) :=
      (quotedText quote fuel rest).map fun (inside, rest) => (out ++ inside, rest)
    match c with
    | '\\' => go ['\\'] rest
    | '\'' => go ['\''] rest
    | '"' => go ['"'] rest
    | 'a' => go ['\x07'] rest
    | 'b' => go ['\x08'] rest
    | 'f' => go ['\x0c'] rest
    | 'n' => go ['\n'] rest
    | 'r' => go ['\r'] rest
    | 't' => go ['\t'] rest
    | 'v' => go ['\x0b'] rest
    | '\n' => go [] rest
    | 'x' => (coded 2 rest).bind fun (c, rest) => go [c] rest
    | 'u' => (coded 4 rest).bind fun (c, rest) => go [c] rest
    | 'U' => (coded 8 rest).bind fun (c, rest) => go [c] rest
    | 'N' => none
    | c =>
      if isDigit 8 c then
        let ds := ((c :: rest).take 3).takeWhile (isDigit 8)
        go [Char.ofNat (digitsValue 8 ds)] ((c :: rest).drop ds.length)
      else go ['\\', c] rest
  | fuel + 1, c :: rest =>
    if c == quote then some ([], rest)
    else if c == '\n' || c == '\r' then none
    else (quotedText quote fuel rest).map fun (inside, rest) => (c :: inside, rest)

/-- The token at the start of a text that starts with no blank. -/
def token? : List Char → Option (Token × List Char)
  | [] => none
  | c :: rest =>
    if c == '\n' || c == '\r' then some (.newline, rest)
    else if c == '\'' || c == '"' then
      (quotedText c (rest.length + 1) rest).map fun (inside, rest) =>
        (.literal (.text (String.ofList inside)), rest)
    else if isDigit 10 c || (c == '.' && (rest.head?.any (isDigit 10))) then
      (number (c :: rest)).map fun (v, rest) => (.literal v, rest)
    else if Text.isWord c then
      some (.name (String.ofList ((c :: rest).takeWhile Text.isWord)), (c :: rest).dropWhile Text.isWord)
    else (operator? (c :: rest)).map fun (op, rest) => (.operator op, rest)

/-- The tokens of a text. Blanks stand between tokens, and a `#` hides the rest of its line. -/
def tokens : Nat → List Char → Option (List Token)
  | 0, _ => none
  | _ + 1, [] => some []
  | fuel + 1, c :: rest =>
    if c == ' ' || c == '\t' || c == '\x0c' then tokens fuel rest
    else if c == '#' then tokens fuel (rest.dropWhile fun c => c != '\n' && c != '\r')
    else do
      let (t, rest) ← token? (c :: rest)
      return t :: (← tokens fuel rest)

end CodeBridge.Initializer
