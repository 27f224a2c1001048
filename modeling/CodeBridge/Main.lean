import CodeBridge.Header.Rendering

/-! # The command line

Reads a C header and writes the Python classes of its definitions. -/

open CodeBridge

def main (arguments : List String) : IO UInt32 := do
  match arguments with
  | [input, output] =>
    match Header.convert (← IO.FS.readFile input) with
    | some (.ok classes) =>
      IO.FS.writeFile output classes
      return 0
    | some (.error fault) =>
      IO.eprintln (fault.label ++ ": " ++ fault.message)
      return 1
    | none =>
      IO.eprintln "The header has a definition without an end."
      return 1
  | _ =>
    IO.println Header.usage
    return 1
