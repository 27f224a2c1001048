import CodeBridge.Writer

/-! # A header and its code

Some generators write two texts at once: declarations into a header and definitions into a source file. -/

namespace CodeBridge.Emit

structure Sources where
  header : Writer := Writer.braced
  code : Writer := Writer.braced

abbrev Sourcing := EStateM Fault Sources

namespace Sourcing

def inHeader {α : Type} (w : Writing α) : Sourcing α := fun s =>
  match w s.header with
  | .ok a header => .ok a ⟨header, s.code⟩
  | .error fault header => .error fault ⟨header, s.code⟩

def inCode {α : Type} (w : Writing α) : Sourcing α := fun s =>
  match w s.code with
  | .ok a code => .ok a ⟨s.header, code⟩
  | .error fault code => .error fault ⟨s.header, code⟩

/-- Takes over a result or a fault that was found without the writers. -/
def check {α : Type} (outcome : Except Fault α) : Sourcing α :=
  match outcome with
  | .ok a => pure a
  | .error fault => throw fault

def each {α : Type} (items : List α) (f : α → Sourcing Unit) : Sourcing Unit :=
  match items with
  | [] => pure ()
  | item :: rest => do
    f item
    each rest f

/-- Both finished texts. -/
def result : Sourcing (String × String) := do
  return (← inHeader Writing.result, ← inCode Writing.result)

end Sourcing

end CodeBridge.Emit
