import CodeBridge.Writer
import CodeBridge.Text.Blank

/-! # Styles

Where the brace that opens a block stands, and what all generators share about the comments of fields. -/

namespace CodeBridge

/-- Where an opening brace stands. -/
inductive Style where
  /-- At the end of the line before. -/
  | knr
  /-- On a line of its own. -/
  | bsd
  /-- No style at all, with what was given in its place. -/
  | unknown (given : String)
deriving DecidableEq, Repr

namespace Style

/-- Writes what stands before a block. -/
def before (style : Style) (head : String) : Writing Unit :=
  match style with
  | knr => Writing.write (head ++ " ")
  | bsd => Writing.line head
  | unknown given => throw (.unknownStyle given)

end Style

namespace Emit

/-- The lines of a text. -/
def splitLines : List Char → List (List Char)
  | [] => [[]]
  | c :: rest =>
    if c == '\n' then [] :: splitLines rest
    else match splitLines rest with
      | [] => [[c]]
      | first :: others => (c :: first) :: others

/-- The lines of a comment that say something, without the blanks around them. -/
def commentLines (comment : String) : List String :=
  (((splitLines comment.toList).map Text.trim).filter (!·.isEmpty)).map String.ofList

/-- Ends the line of a field with its comment: each line of the comment that says something is written by
`present`. A comment that says nothing is refused. -/
def comment (struct field : String) (comment : Option String) (present : String → String) : Writing Unit :=
  match comment with
  | none => Writing.line ""
  | some text =>
    if text == "" then Writing.line ""
    else
      match commentLines text with
      | [] => throw (.emptyComment field struct)
      | lines => Writing.each lines fun l => Writing.line (present l)

end Emit

end CodeBridge
