/-! # Columns -/

namespace CodeBridge.Text

def spaces (n : Nat) : String :=
  String.ofList (List.replicate n ' ')

/-- A text at the left of a column; one that is wider stays as it is. -/
def left (width : Nat) (s : String) : String :=
  s ++ spaces (width - s.length)

/-- A text at the right of a column. -/
def right (width : Nat) (s : String) : String :=
  spaces (width - s.length) ++ s

end CodeBridge.Text
