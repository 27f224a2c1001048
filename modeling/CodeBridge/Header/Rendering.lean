import CodeBridge.Folder
import CodeBridge.Header.Classes
import CodeBridge.Header.Reader
import CodeBridge.Initializer.Evaluation
import CodeBridge.Text.Lines

/-! # From a header file to a file of classes -/

namespace CodeBridge.Header

/-- The classes of a header, if reading it comes to an end. -/
def convert (text : String) : Option (Except Fault String) :=
  (read (.ofText Initializer.evaluate) (Text.unifyLineEnds text.toList) {}).map fun (outcome, d) =>
    outcome.bind fun _ => classesText d

/-- What is done in a folder and need not come to an end. -/
abbrev Converting := ExceptT Fault (StateT Desk Option)

def working {α : Type} (action : Working α) : Converting α := fun desk =>
  match action desk with
  | .ok a desk => some (.ok a, desk)
  | .error fault desk => some (.error fault, desk)

/-- Writes the classes of a header file to another file. -/
def render (input output : String) : Converting Unit := do
  let text ← working (Working.read input)
  let classes ← fun desk => (convert text).map fun outcome => (outcome, desk)
  working (Working.write output classes)

def usage : String := "Usage: python parseheader.py <header_file> <output_file>"

/-- The command line: a header file and a file for its classes. The result is the exit code. -/
def command (arguments : List String) : Converting Nat :=
  match arguments with
  | [input, output] => do
    render input output
    return 0
  | _ => do
    working (Working.print usage)
    return 1

end CodeBridge.Header
