import CodeBridge.Folder
import CodeBridge.Sample.Basic

/-! # Workloads

A workload exercises one part of the library at a size, and returns a sample that tells whether the part still
does the same. What it prints is printed by the part it exercises. -/

namespace CodeBridge

structure Workload where
  name : String
  /-- The name of its size. -/
  parameter : String
  run : Int → Working Sample

namespace Workload

/-- The numbers below a size; there are none below a negative one. -/
def indices (size : Int) : List Nat :=
  List.range size.toNat

def lengthOf (text : String) : Sample :=
  .int text.length

/-- Works in a folder of its own, which is thrown away afterwards. What is printed stays. -/
def apart {α : Type} (folder : Folder) (action : Working α) : Working α := fun desk =>
  match action ⟨folder, desk.printed⟩ with
  | .ok a d => .ok a ⟨desk.folder, d.printed⟩
  | .error fault d => .error fault ⟨desk.folder, d.printed⟩

/-- The samples of so many runs, one after the other. -/
def repeated (action : Working Sample) : Nat → Working (List Sample)
  | 0 => return []
  | n + 1 => do
    let first ← action
    let rest ← repeated action n
    return first :: rest

end Workload

end CodeBridge
