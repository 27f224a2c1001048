/-! # Line ends

A text read from a file has its lines ended by a line feed, whatever they were ended by in the file. -/

namespace CodeBridge.Text

/-- A text with every line end written as one line feed. -/
def unifyLineEnds : List Char → List Char
  | '\r' :: '\n' :: rest => '\n' :: unifyLineEnds rest
  | '\r' :: rest => '\n' :: unifyLineEnds rest
  | c :: rest => c :: unifyLineEnds rest
  | [] => []

end CodeBridge.Text
