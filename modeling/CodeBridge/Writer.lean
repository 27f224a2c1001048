import CodeBridge.Value

/-! # The writer

Indented text with blocks. A line is indented when its first piece is written, by four spaces for each
level. What a writer does is a `Writing`: it ends with a result or a fault, and in both cases the writer
keeps what was written and the level reached until then. -/

namespace CodeBridge

/-- What opens and closes a block. -/
structure Brackets where
  opening : String
  closing : String
deriving DecidableEq, Repr

/-- Text being written. The brackets are absent when the kind of text is not known. -/
structure Writer where
  brackets : Option Brackets
  text : String := ""
  level : Int := 0
  atLineStart : Bool := true
deriving DecidableEq, Repr

/-- Something done with a writer. -/
abbrev Writing := EStateM Fault Writer

namespace Writer

/-- A writer whose blocks stand in braces. -/
def braced : Writer := ⟨some ⟨"\x7b", "\x7d"⟩, "", 0, true⟩

/-- A writer whose blocks are shown by their indentation alone. -/
def bare : Writer := ⟨some ⟨"", ""⟩, "", 0, true⟩

/-- A writer that cannot open blocks. -/
def unbracketed : Writer := ⟨none, "", 0, true⟩

/-- The blanks before a line at a level. -/
def blanks (level : Int) : String :=
  String.ofList (List.replicate (4 * level.toNat) ' ')

/-- The writer after the indentation that is still due. -/
def start (w : Writer) : Writer :=
  if w.atLineStart then ⟨w.brackets, w.text ++ blanks w.level, w.level, false⟩ else w

/-- The writer after a piece of text. -/
def put (w : Writer) (piece : String) : Writer :=
  let w := w.start
  ⟨w.brackets, w.text ++ piece, w.level, false⟩

/-- The writer after a piece of text that ends its line. -/
def putLine (w : Writer) (piece : String) : Writer :=
  let w := w.put piece
  ⟨w.brackets, w.text ++ "\n", w.level, true⟩

/-- The writer at another level. -/
def atLevel (w : Writer) (level : Int) : Writer :=
  ⟨w.brackets, w.text, level, w.atLineStart⟩

end Writer

namespace Writing

/-- Takes over a result or a fault that was found without the writer. -/
def check {α : Type} (outcome : Except Fault α) : Writing α :=
  match outcome with
  | .ok a => pure a
  | .error fault => throw fault

def write (piece : String) : Writing Unit :=
  modify (·.put piece)

def line (piece : String) : Writing Unit :=
  modify (·.putLine piece)

/-- Writes the texts of values one after the other. -/
def writeEach : List Value → Writing Unit
  | [] => pure ()
  | v :: rest => do
    write (← check v.text?)
    writeEach rest

def writeValues (values : List Value) : Writing Unit := do
  modify (·.start)
  writeEach values

def lineValues (values : List Value) : Writing Unit := do
  writeValues values
  line ""

def level : Writing Int := do
  return (← get).level

def indent : Writing Unit :=
  modify fun w => w.atLevel (w.level + 1)

def unindent : Writing Unit := do
  if (← level) < 1 then throw .unindentBelowZero
  modify fun w => w.atLevel (w.level - 1)

/-- Goes to a level, which has to be a whole number and not negative. -/
def setLevel (value : Value) : Writing Unit :=
  match value with
  | .int n => if 0 ≤ n then modify (·.atLevel n) else throw (.illegalLevel value.shown value.kind)
  | _ => throw (.illegalLevel value.shown value.kind)

/-- The brackets of the writer, as a block asks for them. -/
def brackets : Writing Brackets := do
  match (← get).brackets with
  | some b => return b
  | none => throw (.lacks Kind.writer.label "_opening_bracket")

/-- Writes the line that opens a block, and goes one level deeper. -/
def openBlock : Writing Unit := do
  let b ← brackets
  line b.opening
  indent

/-- Goes one level up, and writes the line that closes a block, with the text of a value behind the bracket. -/
def closeBlockWith (suffix : Value) : Writing Unit := do
  let b ← brackets
  modify fun w => w.atLevel (w.level - 1)
  lineValues [.text b.closing, suffix]

def closeBlock (suffix : String) : Writing Unit :=
  closeBlockWith (.text suffix)

/-- Writes a block: the body stands one level deeper between lines with the brackets. A fault of the body
ends the block where it is. -/
def blockWith (body : Writing Unit) (suffix : Value) : Writing Unit := do
  openBlock
  body
  closeBlockWith suffix

/-- Writes a block that is closed with a text behind the bracket. -/
def block (body : Writing Unit) (suffix : String := "") : Writing Unit := do
  openBlock
  body
  closeBlock suffix

/-- The finished text, which is only given out at level 0. -/
def result : Writing String := do
  let w ← get
  if w.level = 0 then return w.text else throw (.resultAtLevel w.level)

/-- Writes each item of a list in turn. -/
def each {α : Type} (items : List α) (f : α → Writing Unit) : Writing Unit :=
  match items with
  | [] => pure ()
  | item :: rest => do
    f item
    each rest f

end Writing

end CodeBridge
