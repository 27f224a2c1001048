import CodeBridge.Json.Basic

/-! # Reading JSON

A text is read from left to right. Where it is no JSON, the complaint says what was expected and where. -/

namespace CodeBridge.Json

/-- A complaint with the number of characters that were left when it arose. -/
structure Complaint where
  reason : String
  left : Nat

def complain {α : Type} (reason : String) (rest : List Char) : Except Complaint α :=
  .error ⟨reason, rest.length⟩

def isSpace (c : Char) : Bool :=
  c == ' ' || c == '\t' || c == '\n' || c == '\r'

def skipSpace (cs : List Char) : List Char :=
  cs.dropWhile isSpace

def isDigit (c : Char) : Bool :=
  '0' ≤ c && c ≤ '9'

def digitsValue (ds : List Char) : Nat :=
  ds.foldl (fun n c => n * 10 + (c.toNat - 48)) 0

def hexValue? (c : Char) : Option Nat :=
  if isDigit c then some (c.toNat - 48)
  else if 'a' ≤ c && c ≤ 'f' then some (c.toNat - 87)
  else if 'A' ≤ c && c ≤ 'F' then some (c.toNat - 55)
  else none

/-- The number that four hexadecimal digits spell. -/
def code? (cs : List Char) : Option Nat :=
  match cs with
  | [a, b, c, d] => do
    return ((← hexValue? a) * 16 + (← hexValue? b)) * 256 + (← hexValue? c) * 16 + (← hexValue? d)
  | _ => none

/-- The code behind `\u`, where `u` is the first character of `here`. A closing quote has to follow it. -/
def readCode (here : List Char) : Except Complaint (Nat × List Char) :=
  let behind := here.drop 1
  match code? (behind.take 4) with
  | some n =>
    if (behind.drop 4).isEmpty then complain "Invalid \\uXXXX escape" here else .ok (n, behind.drop 4)
  | none => complain "Invalid \\uXXXX escape" here

/-- The character with a code; a half of a pair without its other half is replaced. -/
def codeChar (n : Nat) : Char :=
  if n.isValidChar then Char.ofNat n else Char.ofNat 0xfffd

def escaped? : Char → Option Char
  | '"' => some '"'
  | '\\' => some '\\'
  | '/' => some '/'
  | 'b' => some '\x08'
  | 'f' => some '\x0c'
  | 'n' => some '\n'
  | 'r' => some '\r'
  | 't' => some '\t'
  | _ => none

/-- The second half of a pair, if the text goes on with one. -/
def lowHalf? (cs : List Char) : Option (Nat × List Char) :=
  match cs with
  | '\\' :: 'u' :: rest =>
    match readCode ('u' :: rest) with
    | .ok (n, rest) => if 0xdc00 ≤ n && n < 0xe000 then some (n, rest) else none
    | .error _ => none
  | _ => none

/-- The inside of a string behind its opening quote; `start` is the text from that quote on, and `done` what
was read so far, the last character first. -/
def readString (start : List Char) : Nat → List Char → List Char → Except Complaint (List Char × List Char)
  | 0, _, _ => complain "Unterminated string starting at" start
  | _ + 1, _, [] => complain "Unterminated string starting at" start
  | _ + 1, done, '"' :: rest => .ok (done.reverse, rest)
  | _ + 1, _, ['\\'] => complain "Unterminated string starting at" start
  | fuel + 1, done, '\\' :: 'u' :: rest =>
    match readCode ('u' :: rest) with
    | .error c => .error c
    | .ok (n, rest) =>
      if 0xd800 ≤ n && n < 0xdc00 then
        match lowHalf? rest with
        | some (low, rest) =>
          readString start fuel (codeChar (0x10000 + (n - 0xd800) * 0x400 + (low - 0xdc00)) :: done) rest
        | none => readString start fuel (codeChar n :: done) rest
      else readString start fuel (codeChar n :: done) rest
  | fuel + 1, done, '\\' :: c :: rest =>
    match escaped? c with
    | some d => readString start fuel (d :: done) rest
    | none => complain "Invalid \\escape" ('\\' :: c :: rest)
  | fuel + 1, done, c :: rest =>
    if c.toNat < 32 then complain "Invalid control character at" (c :: rest)
    else readString start fuel (c :: done) rest

/-- The fraction of a number with its point. -/
def fraction (cs : List Char) : Option (List Char × List Char) :=
  match cs with
  | '.' :: rest =>
    match rest.takeWhile isDigit with
    | [] => none
    | ds => some (ds, rest.dropWhile isDigit)
  | _ => none

def exponent (cs : List Char) : Option (Int × List Char) :=
  match cs with
  | c :: rest =>
    if c == 'e' || c == 'E' then
      let (negative, rest) := match rest with
        | '-' :: rest => (true, rest)
        | '+' :: rest => (false, rest)
        | rest => (false, rest)
      match rest.takeWhile isDigit with
      | [] => none
      | ds =>
        let n : Int := digitsValue ds
        some (if negative then -n else n, rest.dropWhile isDigit)
    else none
  | [] => none

/-- The number at the start of a text: no zero stands before another digit. -/
def number? (cs : List Char) : Option (Json × List Char) :=
  let (negative, rest) := match cs with
    | '-' :: rest => (true, rest)
    | rest => (false, rest)
  let whole := match rest with
    | '0' :: _ => ['0']
    | rest => rest.takeWhile isDigit
  if whole.isEmpty then none
  else
    let rest := rest.drop whole.length
    let part := fraction rest
    let rest := (part.map (·.2)).getD rest
    let scale := exponent rest
    let rest := (scale.map (·.2)).getD rest
    if part.isNone && scale.isNone then
      let n : Int := digitsValue whole
      some (.int (if negative then -n else n), rest)
    else
      let ds := (part.map (·.1)).getD []
      let e : Int := (scale.map (·.1)).getD 0
      some (.float (Decimal.ofScientific negative (digitsValue (whole ++ ds)) (e - ds.length)), rest)

/-- The words that are documents by themselves. -/
def words : List (List Char × Json) :=
  [("null".toList, .null), ("true".toList, .bool true), ("false".toList, .bool false),
   ("NaN".toList, .float (Float.ofBits 0x7ff8000000000000)),
   ("Infinity".toList, .float (Decimal.infinity false)), ("-Infinity".toList, .float (Decimal.infinity true))]

def behind? : List Char → List Char → Option (List Char)
  | [], rest => some rest
  | c :: start, d :: rest => if c == d then behind? start rest else none
  | _ :: _, [] => none

def word? (cs : List Char) : Option (Json × List Char) :=
  words.findSome? fun (w, v) => (behind? w cs).map fun rest => (v, rest)

mutual

/-- The document at the start of a text. -/
def readValue : Nat → List Char → Except Complaint (Json × List Char)
  | 0, cs => complain "Expecting value" cs
  | fuel + 1, cs =>
    match cs with
    | '"' :: rest => do
      let (s, rest) ← readString cs (rest.length + 1) [] rest
      return (.string (String.ofList s), rest)
    | '\x7b' :: rest =>
      match skipSpace rest with
      | '\x7d' :: rest => .ok (.object [], rest)
      | rest => do
        let (members, rest) ← readMembers fuel [] rest
        return (.object members, rest)
    | '[' :: rest =>
      match skipSpace rest with
      | ']' :: rest => .ok (.array [], rest)
      | rest => do
        let (items, rest) ← readItems fuel rest
        return (.array items, rest)
    | cs =>
      match word? cs with
      | some found => .ok found
      | none =>
        match number? cs with
        | some found => .ok found
        | none => complain "Expecting value" cs

/-- The members of an object up to its closing brace. A name that comes again takes its old place. -/
def readMembers : Nat → List (String × Json) → List Char → Except Complaint (List (String × Json) × List Char)
  | 0, _, cs => complain "Expecting property name enclosed in double quotes" cs
  | fuel + 1, members, cs =>
    match cs with
    | '"' :: rest => do
      let (name, rest) ← readString cs (rest.length + 1) [] rest
      match skipSpace rest with
      | ':' :: rest =>
        let (v, rest) ← readValue fuel (skipSpace rest)
        let members := setMember (String.ofList name) v members
        match skipSpace rest with
        | '\x7d' :: rest => return (members, rest)
        | ',' :: rest => readMembers fuel members (skipSpace rest)
        | rest => complain "Expecting ',' delimiter" rest
      | rest => complain "Expecting ':' delimiter" rest
    | cs => complain "Expecting property name enclosed in double quotes" cs

/-- The items of an array up to its closing bracket. -/
def readItems : Nat → List Char → Except Complaint (List Json × List Char)
  | 0, cs => complain "Expecting value" cs
  | fuel + 1, cs => do
    let (v, rest) ← readValue fuel cs
    match skipSpace rest with
    | ']' :: rest => return ([v], rest)
    | ',' :: rest =>
      let (items, rest) ← readItems fuel (skipSpace rest)
      return (v :: items, rest)
    | rest => complain "Expecting ',' delimiter" rest

end

/-- The line and the column of the place behind `before`, both counted from 1. -/
def place (before : List Char) : Nat × Nat :=
  ((before.filter (· == '\n')).length + 1, (before.reverse.takeWhile (· != '\n')).length + 1)

def Complaint.fault (c : Complaint) (text : List Char) : Fault :=
  let before := text.take (text.length - c.left)
  let (line, column) := place before
  .notJson c.reason line column before.length

/-- The document that a text spells. -/
def parse (text : String) : Except Fault Json :=
  let cs := text.toList
  if cs.head? == some (Char.ofNat 0xfeff) then
    .error (.notJson "Unexpected UTF-8 BOM (decode using utf-8-sig)" 1 1 0)
  else
    match readValue (cs.length + 1) (skipSpace cs) with
    | .error c => .error (c.fault cs)
    | .ok (v, rest) =>
      match skipSpace rest with
      | [] => .ok v
      | rest => .error (Complaint.fault ⟨"Extra data", rest.length⟩ cs)

end CodeBridge.Json
