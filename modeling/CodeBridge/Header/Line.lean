import CodeBridge.Header.Definitions
import CodeBridge.Text.Blank
import CodeBridge.Text.Word

/-! # The lines of a header

A macro definition, a member of an enumeration, a member of a struct, and the line that opens a body. Each
may end in a comment, which runs from its opening mark to the end of the line. -/

namespace CodeBridge.Header

open Text

/-! ### Comments -/

/-- A comment without the mark that closes it, if something else is left. -/
def dropClosing (cs : List Char) : List Char :=
  match cs.reverse with
  | '/' :: '*' :: c :: rest => (c :: rest).reverse
  | _ => cs

/-- The inside of a comment that opens here and runs to the end of the text. It has at least one character. -/
def remark? : List Char → Option (List Char)
  | '/' :: '/' :: c :: rest => some (dropClosing (c :: rest))
  | '/' :: '*' :: c :: rest => some (dropClosing (c :: rest))
  | _ => none

/-- A text without the marks of comments. -/
def dropMarks : List Char → List Char
  | '/' :: '*' :: rest => dropMarks rest
  | '*' :: '/' :: rest => dropMarks rest
  | '/' :: '/' :: rest => dropMarks rest
  | c :: rest => c :: dropMarks rest
  | [] => []

/-- What a comment says; no comment says nothing. -/
def cleanComment (comment : Option (List Char)) : String :=
  match comment with
  | none => ""
  | some cs => String.ofList (trim (dropMarks cs))

/-! ### Words -/

/-- The word that a text starts with, and the rest. -/
def word? (cs : List Char) : Option (List Char × List Char) :=
  match cs.takeWhile isWord with
  | [] => none
  | w => some (w, cs.dropWhile isWord)

/-- The rest of a text behind a start that it has to have. -/
def behind? : List Char → List Char → Option (List Char)
  | [], rest => some rest
  | c :: start, d :: rest => if c == d then behind? start rest else none
  | _ :: _, [] => none

/-- The rest of a text behind at least one blank. -/
def behindBlanks? : List Char → Option (List Char)
  | c :: rest => if isBlank c then some (trimLeft rest) else none
  | [] => none

/-- Reads behind as many blanks as possible: if that fails, the last blanks are given back one by one. -/
def afterBlanks {α : Type} (read : List Char → Option α) : List Char → Option α
  | [] => read []
  | c :: rest =>
    if isBlank c then
      match afterBlanks read rest with
      | some a => some a
      | none => read (c :: rest)
    else read (c :: rest)

/-! ### Macro definitions -/

/-- The value of a macro, which ends before the first comment or with the line, and the comment. -/
def shortestValue : List Char → List Char × Option (List Char)
  | [] => ([], none)
  | c :: rest =>
    match remark? rest with
    | some comment => ([c], some comment)
    | none =>
      let (value, comment) := shortestValue rest
      (c :: value, comment)

/-- The value and the comment of a macro, on one line up to the end of the text. -/
def macroValue? (cs : List Char) : Option (List Char × Option (List Char)) :=
  let line := cs.takeWhile (· != '\n')
  let rest := cs.dropWhile (· != '\n')
  if !line.isEmpty && (rest.isEmpty || rest == ['\n']) then some (shortestValue line) else none

/-- A line `#define NAME VALUE`. -/
def constant? (line : List Char) : Option Entry := do
  let rest ← behind? "#define".toList line
  let rest ← behindBlanks? rest
  let (name, rest) ← word? rest
  match rest with
  | [] => none
  | c :: rest =>
    if !isBlank c then none
    else
      let (value, comment) ← afterBlanks macroValue? rest
      some ⟨String.ofList name, some (String.ofList (trim value)), some (cleanComment comment)⟩

/-! ### Members of an enumeration -/

/-- What may stand behind a member: a comma and a comment. -/
def memberTail? (cs : List Char) : Option (Option (List Char)) :=
  let rest := match trimLeft cs with
    | ',' :: rest => trimLeft rest
    | rest => rest
  match rest with
  | [] => some none
  | rest => (remark? rest).map some

/-- The longest initialiser without a comma behind which a member can end, and the comment. -/
def longestValue : List Char → Option (List Char × Option (List Char))
  | [] => none
  | c :: rest =>
    if c == ',' then none
    else match longestValue rest with
      | some (value, comment) => some (c :: value, comment)
      | none => (memberTail? rest).map fun comment => ([c], comment)

/-- The name of a member, its initialiser and its comment. -/
structure MemberLine where
  name : String
  initializer : Option String
  comment : Option (List Char)

/-- A line `NAME`, `NAME,` or `NAME = VALUE,`. -/
def memberLine? (line : List Char) : Option MemberLine := do
  let (name, rest) ← word? line
  match trimLeft rest with
  | '=' :: rest =>
    let (value, comment) ← afterBlanks longestValue rest
    some ⟨String.ofList name, some (String.ofList value), comment⟩
  | _ =>
    let comment ← memberTail? rest
    some ⟨String.ofList name, none, comment⟩

/-! ### Members of a struct -/

/-- What may stand behind the semicolon of a member. -/
def fieldTail? (cs : List Char) : Option (Option (List Char)) :=
  match cs with
  | [] => some none
  | cs => (remark? (trimLeft cs)).map some

/-- A line `TYPE NAME;`. -/
def fieldLine? (line : List Char) : Option Entry := do
  let (type, rest) ← word? line
  let rest ← behindBlanks? rest
  let (name, rest) ← word? rest
  match trimLeft rest with
  | ';' :: rest =>
    let comment ← fieldTail? rest
    some ⟨String.ofList name, some (String.ofList type), some (cleanComment comment)⟩
  | _ => none

/-! ### Bodies -/

/-- The name of the body that opens here, as in `enum NAME {`, and the text behind its brace. -/
def opening? (keyword : List Char) (cs : List Char) : Option (String × List Char) := do
  let rest ← behind? keyword cs
  let rest ← behindBlanks? rest
  let (name, rest) ← word? rest
  match trimLeft rest with
  | '\x7b' :: rest => some (String.ofList name, rest)
  | _ => none

end CodeBridge.Header
