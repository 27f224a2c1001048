import CodeBridge.Emit.Texts
import CodeBridge.Folder
import CodeBridge.Text.Lines

/-! # Templates

A generated file is a template with its marker replaced by generated text. -/

namespace CodeBridge.Template

/-- A text with every marker `@_code;` replaced. What is put in is not looked at again. -/
def replaceMarkers (code : List Char) : List Char → List Char
  | '@' :: '_' :: 'c' :: 'o' :: 'd' :: 'e' :: ';' :: rest => code ++ replaceMarkers code rest
  | c :: rest => c :: replaceMarkers code rest
  | [] => []

/-- A template filled in with a text without the blanks around it. -/
def fill (template code : String) : String :=
  String.ofList (replaceMarkers (Text.trim code.toList) (Text.unifyLineEnds template.toList))

/-- Fills in the template of the file `name.ending`, which lies beside it. -/
def write (name ending code directory : String) : Working Unit := do
  let template ← Working.read (Folder.join directory (name ++ "." ++ ending ++ ".template"))
  let path := Folder.join directory (name ++ "." ++ ending)
  Working.print ("Writing file " ++ path)
  Working.write path (fill template code)

/-- Writes all files of a module: classes, header, conversions and printers. The printers have their braces
on lines of their own, whatever the style. -/
def writeModule (m : Module) (directory package : String) (style : Style) : Working Unit := do
  let classes ← Working.check (Emit.classesText m)
  write ("python_" ++ m.name ++ "_protocol") "py" classes directory
  let header ← Working.check (Emit.headerText style m)
  write (m.name ++ "_protocol") "h" header directory
  let conversion ← Working.check (Emit.conversionTexts package m)
  write (m.name ++ "_conversion") "h" conversion.1 directory
  write (m.name ++ "_conversion") "c" conversion.2 directory
  let printers ← Working.check (Emit.printerTexts .bsd m)
  write (m.name ++ "_to_string") "h" printers.1 directory
  write (m.name ++ "_to_string") "c" printers.2 directory

/-- Where templates are looked for if nothing is said. -/
def defaultDirectory : String := "."

/-- Where the classes of a module lie if nothing is said. -/
def defaultPackage : String := "python.generated"

def greeting : Working Unit :=
  Working.print "Hi!"

end CodeBridge.Template
