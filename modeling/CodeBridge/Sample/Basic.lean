import CodeBridge.Value

/-! # Samples

What a workload returns: nested data that later runs are compared with. -/

namespace CodeBridge

inductive Sample where
  | nothing
  | bool (b : Bool)
  | int (n : Int)
  | float (x : Float)
  | complex (real imaginary : Float)
  | text (s : String)
  | bytes (fixed : Bool) (bs : List UInt8)
  | sequence (fixed : Bool) (items : List Sample)
  /-- Elements without an order, none of them twice. -/
  | set (fixed : Bool) (items : List Sample)
  | mapping (entries : List (Sample × Sample))
  | record (kind : String) (fields : List (String × Sample))
  /-- Anything else, by its kind and the text that shows it. -/
  | other (kind shown : String)
deriving Inhabited

namespace Sample

/-- The name of a sample's kind. -/
def kind : Sample → String
  | nothing => "NoneType"
  | bool _ => "bool"
  | int _ => "int"
  | float _ => "float"
  | complex .. => "complex"
  | text _ => "str"
  | bytes fixed _ => if fixed then "bytes" else "bytearray"
  | sequence fixed _ => if fixed then "tuple" else "list"
  | set fixed _ => if fixed then "frozenset" else "set"
  | mapping _ => "dict"
  | record kind _ => kind
  | other kind _ => kind

def list (items : List Sample) : Sample :=
  sequence false items

def tuple (items : List Sample) : Sample :=
  sequence true items

mutual

def ofValue : Value → Sample
  | .nothing => nothing
  | .bool b => bool b
  | .int n => int n
  | .float x => float x
  | .text s => text s
  | .list items => sequence false (ofValues items)
  | .tuple items => sequence true (ofValues items)
  | .dict entries => mapping (ofEntries entries)
  | .bytes bs => bytes true bs

def ofValues : List Value → List Sample
  | [] => []
  | item :: rest => ofValue item :: ofValues rest

def ofEntries : List (Value × Value) → List (Sample × Sample)
  | [] => []
  | (key, item) :: rest => (ofValue key, ofValue item) :: ofEntries rest

end

/-- The number that a sample is, if it is one, as a fraction. -/
def number? : Sample → Option (Int × Nat)
  | bool b => some (if b then 1 else 0, 1)
  | int n => some (n, 1)
  | float x => ofFloat? x
  | complex real imaginary => if imaginary == 0 then ofFloat? real else none
  | _ => none
where
  ofFloat? (x : Float) : Option (Int × Nat) := do
    let b ← Decimal.Binary.ofFloat? x
    let (num, den) := b.fraction
    return (if b.negative then -(num : Int) else num, den)

mutual

/-- Whether two samples count as one element of a set: numbers by their worth, all else by kind and parts. -/
def same : Sample → Sample → Bool
  | nothing, nothing => true
  | text a, text b => a == b
  | bytes _ a, bytes _ b => a == b
  | complex a b, complex c d => a == c && b == d
  | sequence f as, sequence g bs => f == g && sameItems as bs
  | set _ as, set _ bs => as.length == bs.length && subset as bs
  | mapping as, mapping bs => as.length == bs.length && sameEntries as bs
  | record k as, record l bs => k == l && sameFields as bs
  | other k a, other l b => k == l && a == b
  | a, b => match number? a, number? b with
    | some (n, d), some (m, e) => n * e == m * d
    | _, _ => false

def sameItems : List Sample → List Sample → Bool
  | [], [] => true
  | a :: as, b :: bs => same a b && sameItems as bs
  | _, _ => false

def subset : List Sample → List Sample → Bool
  | [], _ => true
  | a :: as, bs => bs.any (same a) && subset as bs

def sameEntries : List (Sample × Sample) → List (Sample × Sample) → Bool
  | [], _ => true
  | (k, a) :: as, bs => bs.any (fun (l, b) => same k l && same a b) && sameEntries as bs

def sameFields : List (String × Sample) → List (String × Sample) → Bool
  | [], [] => true
  | (k, a) :: as, (l, b) :: bs => k == l && same a b && sameFields as bs
  | _, _ => false

end

/-- The set with these elements; of equal ones the first stays. -/
def setOf (fixed : Bool) (items : List Sample) : Sample :=
  set fixed (items.foldl (fun seen x => if seen.any (same x) then seen else seen ++ [x]) [])

/-- Puts a value under a key; a key that is there already keeps its place. -/
def put (entries : List (Sample × Sample)) (key item : Sample) : List (Sample × Sample) :=
  match entries with
  | [] => [(key, item)]
  | (k, old) :: rest => if same key k then (k, item) :: rest else (k, old) :: put rest key item

/-- The mapping with these entries; of equal keys the last value counts. -/
def mappingOf (entries : List (Sample × Sample)) : Sample :=
  mapping (entries.foldl (fun seen (key, item) => put seen key item) [])

/-- A fraction in lowest terms, the sign on top. -/
def fraction (num den : Int) : Sample :=
  let common : Int := Nat.gcd num.natAbs den.natAbs
  let sign : Int := if den < 0 then -1 else 1
  other "Fraction" ("Fraction(" ++ Decimal.intText (sign * num / common) ++ ", " ++
    Decimal.intText (sign * den / common) ++ ")")

def date (year month day : Int) : Sample :=
  other "date" ("datetime.date(" ++ ", ".intercalate ([year, month, day].map Decimal.intText) ++ ")")

/-- An identifier of 32 hexadecimal digits, shown in groups. -/
def uuid (digits : String) : Sample :=
  let ds := digits.toList.map Char.toLower
  let group (start count : Nat) : String := String.ofList ((ds.drop start).take count)
  other "UUID" ("UUID('" ++ "-".intercalate [group 0 8, group 8 4, group 12 4, group 16 4, group 20 12] ++ "')")

/-- A thing without data. -/
def blank : Sample :=
  other "object" "<builtins.object>"

/-- A sample inside so many lists of one element. -/
def nested (s : Sample) : Nat → Sample
  | 0 => s
  | n + 1 => list [nested s n]

end Sample

end CodeBridge
