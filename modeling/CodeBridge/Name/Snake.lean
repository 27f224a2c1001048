import CodeBridge.Fault
import CodeBridge.Text.Letter

/-! # Snake case

Turns a PascalCase name into words of small letters with underscores between them. The machine looks at a
piece of text with its predecessor in hand: a piece is written out when the next one, or the end, is seen. -/

namespace CodeBridge.Name

open Text

/-- The text written so far and the piece that is still in hand. -/
structure Snake where
  result : List Char := []
  previous : Option (List Char) := none
deriving DecidableEq, Repr

def lowered (cs : List Char) : List Char :=
  cs.flatMap lower

namespace Snake

/-- What is written for the piece in hand when the next piece is `next`. -/
def emitted (result previous next : List Char) : List Char :=
  if allUpper next then
    if allUpper previous then lowered previous
    else if allLower previous then previous ++ ['_']
    else previous
  else if allLower next then
    if allUpper previous then
      if result.isEmpty then lowered previous else '_' :: lowered previous
    else if allLower previous then previous
    else lowered previous
  else lowered previous

/-- Takes the next piece into hand. -/
def push (s : Snake) (next : List Char) : Snake :=
  match s.previous with
  | none => ⟨s.result, some next⟩
  | some previous => ⟨s.result ++ emitted s.result previous next, some next⟩

/-- Writes out the piece in hand; there has to be one. -/
def finish (s : Snake) : Except Fault Snake :=
  match s.previous with
  | none => .error (.lacks Kind.nothing.label "lower")
  | some previous => .ok ⟨s.result ++ lowered previous, none⟩

end Snake

/-- Each run of underscores as one. -/
def joinUnderscores : List Char → List Char
  | '_' :: '_' :: rest => joinUnderscores ('_' :: rest)
  | c :: rest => c :: joinUnderscores rest
  | [] => []

/-- A text without an underscore at its start. -/
def dropUnderscore : List Char → List Char
  | '_' :: rest => rest
  | cs => cs

/-- The machine after a whole text. -/
def Snake.ofText (text : List Char) : Except Fault Snake := do
  let s ← Snake.finish (text.foldl (fun s c => s.push [c]) ⟨[], none⟩)
  return ⟨dropUnderscore (joinUnderscores s.result), s.previous⟩

/-- A name in snake case; an empty name has none. -/
def snake (name : String) : Except Fault String := do
  return String.ofList (← Snake.ofText name.toList).result

end CodeBridge.Name
