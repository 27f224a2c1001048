import CodeBridge.Header.Line
import CodeBridge.Value

/-! # Reading a header

A header is read line by line. A last line without a line end loses its last character, and a body that
meets such a line goes on at the start of the text, round after round. So reading need not come to an end:
its outcome is missing (`none`) exactly when no round ever ends the body and none fails.

What an initialiser of an enumeration stands for is left to an `Evaluator`. -/

namespace CodeBridge.Header

open Text

/-! ### Lines -/

/-- The line at the start of a text, as it is looked at. -/
def lineOf (rest : List Char) : List Char :=
  trim (if rest.contains '\n' then rest.takeWhile (· != '\n') else rest.dropLast)

/-- The text behind the first line end. -/
def afterLine? : List Char → Option (List Char)
  | [] => none
  | c :: rest => if c == '\n' then some rest else afterLine? rest

theorem length_of_afterLine?_eq_some {cs rest : List Char} (h : afterLine? cs = some rest) :
    rest.length < cs.length := by
  induction cs with
  | nil => simp [afterLine?] at h
  | cons c cs ih =>
    simp only [afterLine?] at h
    split at h
    · simp_all
    · have := ih h
      simp only [List.length_cons]
      omega

/-- How a line of a body is taken in, with the text that starts with it. -/
abbrev BodyStep (σ : Type) := List Char → σ → Except Fault σ

/-- A step that looks at nothing but the line at the start of a text. -/
def onLine {σ : Type} (step : σ → List Char → Except Fault σ) : BodyStep σ := fun rest s =>
  step s (lineOf rest)

/-- Reads the lines of a body up to one with a closing brace or to the end of the text. The rest is missing when
the last line has no line end. -/
def scanBody {σ : Type} (step : BodyStep σ) (s : σ) (rest : List Char) :
    Except Fault (σ × Option (List Char)) :=
  if rest.isEmpty then .ok (s, some [])
  else if (lineOf rest).contains '\x7d' then .ok (s, some rest)
  else
    match step rest s with
    | .error fault => .error fault
    | .ok s =>
      match _h : afterLine? rest with
      | some next => scanBody step s next
      | none => .ok (s, none)
termination_by rest.length
decreasing_by exact length_of_afterLine?_eq_some _h

/-- Reads a body that starts at `rest` in the text `whole`. Each round behind the first starts with the text, and
with what the round before has come to. -/
def BodyStep.readBody {σ : Type} (whole : List Char) (step : BodyStep σ) (s : σ) (rest : List Char) :
    Option (Except Fault (σ × List Char)) :=
  match scanBody step s rest with
  | .error fault => some (.error fault)
  | .ok (s, some rest) => some (.ok (s, rest))
  | .ok (s, none) => step |>.readBody whole s whole
partial_fixpoint

/-! ### Initialisers -/

/-- The members of an enumeration so far, and the value of the next one. -/
structure Counting where
  members : List Entry := []
  next : Int := 0

/-- What can be seen from an initialiser: the text, the definitions found in it before, the text from the
enumeration on and from the line of the member on, and the members before. -/
structure Scope where
  whole : List Char
  found : Definitions
  start : List Char
  rest : List Char
  counting : Counting

/-- What an initialiser stands for where it is seen: the text that is shown for it and its whole number, or the
fault that it raises. -/
abbrev Evaluator := Scope → String → Except Fault (String × Int)

/-- An evaluator that looks at nothing but the initialiser. -/
def Evaluator.ofText (value : String → Except Fault (String × Int)) : Evaluator := fun _ => value

/-! ### Bodies -/

/-- The value of a member without an initialiser. -/
def counted (n : Int) : Except Fault (String × Int) := do
  return (← (Value.int n).text?, n)

/-- Reads a line of an enumeration; a line that is no member is skipped. -/
def countMember (value : String → Except Fault (String × Int)) (s : Counting) (line : List Char) :
    Except Fault Counting :=
  match memberLine? line with
  | none => .ok s
  | some m => do
    let (text, number) ← m.initializer.elim (counted s.next) value
    return ⟨s.members ++ [⟨m.name, some text, some (cleanComment m.comment)⟩], number + 1⟩

/-- Reads a line of a struct; a line that is no member is skipped. -/
def addField (members : List Entry) (line : List Char) : Except Fault (List Entry) :=
  match fieldLine? line with
  | none => .ok members
  | some e => .ok (members ++ [e])

/-- The group with this keyword that opens at `rest`, and the text where its body ends. -/
def readGroup {σ : Type} (keyword : List Char) (step : BodyStep σ) (s : σ)
    (members : σ → List Entry) (whole rest : List Char) : Option (Except Fault (Option (Group × List Char))) :=
  match opening? keyword rest with
  | none => some (.ok none)
  | some (name, body) =>
    (step.readBody whole s body).map fun r => r.map fun (s, rest) => some (⟨name, members s, none⟩, rest)

/-- The enumeration that opens at `rest`, and the text where its body ends. -/
def readEnumeration (ev : Evaluator) (found : Definitions) (whole rest : List Char) :
    Option (Except Fault (Option (Group × List Char))) :=
  readGroup "enum".toList (fun line s => countMember (ev ⟨whole, found, rest, line, s⟩) s (lineOf line)) ⟨[], 0⟩
    Counting.members whole rest

/-- The struct that opens at `rest`, and the text where its body ends. -/
def readStruct (whole rest : List Char) : Option (Except Fault (Option (Group × List Char))) :=
  readGroup "struct".toList (onLine addField) [] id whole rest

/-! ### Whole headers -/

/-- Something done with the definitions found so far. A failure keeps them. -/
abbrev Reading := ExceptT Fault (StateT Definitions Option)

def startsWith (start cs : List Char) : Bool :=
  (behind? start cs).isSome

/-- What a group that was read, or was not there, does to the definitions. -/
def taken (add : Group → Definitions) (d : Definitions) :
    Except Fault (Option (Group × List Char)) → Except Fault (Option (List Char)) × Definitions
  | .error fault => (.error fault, d)
  | .ok none => (.ok none, d)
  | .ok (some (g, rest)) => (.ok (some rest), add g)

/-- Reads the definition that starts at `rest` and gives the text to go on with, if it is not the next line. -/
def readDefinition (ev : Evaluator) (whole rest : List Char) : Reading (Option (List Char)) := fun d =>
  let line := lineOf rest
  if startsWith "#define".toList line then
    match constant? line with
    | some e => some (.ok none, d.addConstant e)
    | none => some (.ok none, d)
  else if startsWith "enum".toList line then
    (readEnumeration ev d whole rest).map (taken d.addEnumeration d)
  else if startsWith "struct".toList line then
    (readStruct whole rest).map (taken d.addStruct d)
  else some (.ok none, d)

/-- Reads from `rest` on. -/
def Evaluator.readFrom (ev : Evaluator) (whole rest : List Char) (d : Definitions) :
    Option (Except Fault Unit × Definitions) :=
  if rest.isEmpty then some (.ok (), d)
  else do
    match ← readDefinition ev whole rest d with
    | (.error fault, d) => some (.error fault, d)
    | (.ok (some next), d) => ev |>.readFrom whole next d
    | (.ok none, d) =>
      match afterLine? rest with
      | some next => ev |>.readFrom whole next d
      | none => some (.ok (), d)
partial_fixpoint

/-- Reads a header into the definitions found before. -/
def read (ev : Evaluator) (text : List Char) : Reading Unit :=
  ev.readFrom text text

end CodeBridge.Header
