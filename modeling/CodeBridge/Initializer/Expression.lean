import CodeBridge.Initializer.Token

/-! # Expressions

An initialiser is an expression over numbers, quoted texts and the words `True`, `False` and `None`. From the
loosest to the tightest: `or`, `and`, `not`, comparisons, `|`, `^`, `&`, shifts, sums, products, signs,
powers. -/

namespace CodeBridge.Initializer

inductive Sign where
  | plus | minus | complement
deriving DecidableEq, Repr

inductive Operation where
  | or | xor | and | shiftLeft | shiftRight | add | subtract | multiply | divide | floorDivide | remainder
  | power
deriving DecidableEq, Repr

inductive Comparison where
  | less | lessEqual | greater | greaterEqual | equal | notEqual
deriving DecidableEq, Repr

inductive Expression where
  | literal (v : Value)
  /-- A name that stands for nothing. -/
  | unknown (name : String)
  | sign (s : Sign) (e : Expression)
  | binary (op : Operation) (left right : Expression)
  /-- A chain `a < b <= c` of comparisons. -/
  | compare (first : Expression) (rest : List (Comparison × Expression))
  | not (e : Expression)
  | both (left right : Expression)
  | either (left right : Expression)

/-- How tightly an expression binds. -/
inductive Level where
  | either | both | not | compare | or | xor | and | shift | sum | product | sign | power
deriving DecidableEq, Repr

/-- The next tighter level. -/
def Level.next : Level → Level
  | either => both
  | both => not
  | not => compare
  | compare => or
  | or => xor
  | xor => and
  | and => shift
  | shift => sum
  | sum => product
  | product => sign
  | sign => power
  | power => power

/-- The operations of a level that go from left to right. -/
def Level.operation? : Level → String → Option Operation
  | or, "|" => some .or
  | xor, "^" => some .xor
  | and, "&" => some .and
  | shift, "<<" => some .shiftLeft
  | shift, ">>" => some .shiftRight
  | sum, "+" => some .add
  | sum, "-" => some .subtract
  | product, "*" => some .multiply
  | product, "/" => some .divide
  | product, "//" => some .floorDivide
  | product, "%" => some .remainder
  | _, _ => none

def comparison? : String → Option Comparison
  | "<" => some .less
  | "<=" => some .lessEqual
  | ">" => some .greater
  | ">=" => some .greaterEqual
  | "==" => some .equal
  | "!=" => some .notEqual
  | _ => none

def sign? : String → Option Sign
  | "+" => some .plus
  | "-" => some .minus
  | "~" => some .complement
  | _ => none

/-- The words that cannot stand for a value. -/
def reserved : List String :=
  ["and", "or", "not", "if", "else", "in", "is", "for", "lambda", "await", "async", "yield", "import", "from",
   "class", "def", "del", "pass", "break", "continue", "return", "raise", "try", "except", "finally", "while",
   "with", "assert", "as", "global", "nonlocal", "elif"]

/-- Quoted texts that follow one another are one text. -/
def joinTexts (first : String) : List Token → String × List Token
  | .literal (.text s) :: rest => joinTexts (first ++ s) rest
  | rest => (first, rest)

mutual

/-- The expression of a level at the start of some tokens, and the rest of them. -/
def parse : Nat → Level → List Token → Option (Expression × List Token)
  | 0, _, _ => none
  | fuel + 1, .not, .name "not" :: rest => do
    let (e, rest) ← parse fuel .not rest
    return (.not e, rest)
  | fuel + 1, .sign, .operator op :: rest =>
    match sign? op with
    | some s => do
      let (e, rest) ← parse fuel .sign rest
      return (.sign s e, rest)
    | none => parse fuel .power (.operator op :: rest)
  | fuel + 1, .power, ts => do
    let (base, rest) ← parseAtom fuel ts
    match rest with
    | .operator "**" :: rest =>
      let (e, rest) ← parse fuel .sign rest
      return (.binary .power base e, rest)
    | rest => return (base, rest)
  | fuel + 1, .compare, ts => do
    let (first, rest) ← parse fuel .or ts
    let (chain, rest) ← parseChain fuel rest
    return (if chain.isEmpty then first else .compare first chain, rest)
  | fuel + 1, level, ts => do
    let (left, rest) ← parse fuel level.next ts
    parseRest fuel level left rest

/-- What follows a left operand at its level. -/
def parseRest : Nat → Level → Expression → List Token → Option (Expression × List Token)
  | 0, _, _, _ => none
  | fuel + 1, .either, left, .name "or" :: rest => do
    let (right, rest) ← parse fuel .both rest
    parseRest fuel .either (.either left right) rest
  | fuel + 1, .both, left, .name "and" :: rest => do
    let (right, rest) ← parse fuel .not rest
    parseRest fuel .both (.both left right) rest
  | fuel + 1, level, left, .operator op :: rest =>
    match level.operation? op with
    | some operation => do
      let (right, rest) ← parse fuel level.next rest
      parseRest fuel level (.binary operation left right) rest
    | none => some (left, .operator op :: rest)
  | _ + 1, _, left, rest => some (left, rest)

/-- The comparisons that follow a first operand. -/
def parseChain : Nat → List Token → Option (List (Comparison × Expression) × List Token)
  | 0, _ => none
  | fuel + 1, .operator op :: rest =>
    match comparison? op with
    | some c => do
      let (e, rest) ← parse fuel .or rest
      let (chain, rest) ← parseChain fuel rest
      return ((c, e) :: chain, rest)
    | none => some ([], .operator op :: rest)
  | _ + 1, rest => some ([], rest)

def parseAtom : Nat → List Token → Option (Expression × List Token)
  | 0, _ => none
  | fuel + 1, .operator "(" :: rest => do
    let (e, rest) ← parse fuel .either rest
    match rest with
    | .operator ")" :: rest => return (e, rest)
    | _ => none
  | _ + 1, .literal (.text s) :: rest =>
    let (s, rest) := joinTexts s rest
    some (.literal (.text s), rest)
  | _ + 1, .literal v :: rest => some (.literal v, rest)
  | _ + 1, .name "True" :: rest => some (.literal (.bool true), rest)
  | _ + 1, .name "False" :: rest => some (.literal (.bool false), rest)
  | _ + 1, .name "None" :: rest => some (.literal .nothing, rest)
  | _ + 1, .name s :: rest => if reserved.contains s then none else some (.unknown s, rest)
  | _ + 1, _ => none

end

/-- Whether only line ends are left. -/
def onlyNewlines : List Token → Bool
  | [] => true
  | .newline :: rest => onlyNewlines rest
  | _ => false

/-- The expression that a text spells. -/
def Expression.ofText? (text : String) : Option Expression := do
  let cs := text.toList
  let ts ← tokens (cs.length + 1) cs
  let (e, rest) ← parse (16 * (ts.length + 1)) .either ts
  if onlyNewlines rest then some e else none

end CodeBridge.Initializer
