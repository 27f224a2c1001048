import CodeBridge.Decimal.Written
import CodeBridge.Text.Quoted

/-! # Faults

Why a construction, a generator or a reader refuses to go on. Each constructor is a cause with what is needed
to name it; `Fault.message` is the one place that words them. -/

namespace CodeBridge

/-- What a thing is, as messages call it. -/
inductive Kind where
  | nothing | primitive | struct | enumeration | list | array | set | map | type | constant | field | module
  | writer
deriving DecidableEq, Repr

/-- The short name of a kind. -/
def Kind.label : Kind → String
  | .nothing => "NoneType"
  | .primitive => "PrimitiveType"
  | .struct => "Struct"
  | .enumeration => "Enumeration"
  | .list => "List"
  | .array => "Array"
  | .set => "Set"
  | .map => "Map"
  | .type => "Type"
  | .constant => "Constant"
  | .field => "Field"
  | .module => "Module"
  | .writer => "CodeWriter"

/-- The full name of a kind. -/
def Kind.path : Kind → String
  | .nothing => "NoneType"
  | .writer => "c_interop.generator.codewriter.CodeWriter"
  | k => "c_interop.model.model." ++ k.label

/-- The cause of a failure. -/
inductive Fault where
  /-- A thing of this kind has no such property. -/
  | lacks (kind : String) (property : String)
  | undefinedName (name : String)
  | noFields
  | noValues
  /-- A constant's value is of a kind that constants cannot have. -/
  | unsupportedConstant (kind : String)
  /-- A length is given by a constant that is no integer. -/
  | lengthNotInteger (type : String)
  /-- A module cannot hold this kind of item. -/
  | foreignItem (kind : Kind) (module : String)
  | unindentBelowZero
  | resultAtLevel (level : Int)
  | illegalLevel (value kind : String)
  | unknownStyle (style : String)
  | emptyComment (field struct : String)
  | unboundedList
  | unspelledType (name : String)
  | unsupportedHint (name : String)
  | unsupportedField (type struct field : String)
  | unsupportedElement (type : String)
  | nestedSequence
  | unsupportedCast (type : String)
  | unsupportedPrimitive (type : String)
  | unprintableType (type : String)
  /-- A position beyond the end of a sequence. -/
  | outOfRange
  /-- A whole number has too many digits to be written. -/
  | integerTooLong
  /-- A text has too many digits to be read as a whole number. -/
  | digitsTooMany (count : Nat)
  /-- A text is no whole number. -/
  | notInteger (text : String)
  | infinityNotInteger
  | nanNotInteger
  | kindNotInteger (kind : String)
  /-- An ordinal of this kind cannot be counted on. -/
  | concatenates (kind : String)
  | bytesConcatenate
  | intNotIterable
  | cannotAdd (kind : String)
  | missingFile (path : String)
  | isDirectory (path : String)
  | notDirectory (path : String)
  | tooManyLinks (path : String)
  | missingKey (key : String)
  /-- A text is no JSON, with the reason and where it shows. -/
  | notJson (reason : String) (line column offset : Nat)
  | notFloat (text : String)
  | kindNotFloat (kind : String)
  /-- A whole number is too large for a double. -/
  | floatTooSmall
  | noItemAssignment (kind : String)
  | notIndexable (kind : String)
  | indexNotInteger (kind : String)
  /-- A value of this kind cannot be written with a fixed number of places. -/
  | unformattable (kind : String)
  | unknownFormat (kind : String)
  /-- A failure that a measured workload or a started process raises, by its class and text. -/
  | raised (label text : String)
deriving Repr, DecidableEq, Inhabited

/-- The class that a fault counts to. -/
def Fault.label : Fault → String
  | lacks .. => "AttributeError"
  | undefinedName _ => "NameError"
  | outOfRange => "IndexError"
  | infinityNotInteger | floatTooSmall => "OverflowError"
  | kindNotInteger _ | concatenates _ | bytesConcatenate | intNotIterable | cannotAdd _ | kindNotFloat _
  | noItemAssignment _ | notIndexable _ | indexNotInteger _ | unformattable _ => "TypeError"
  | missingFile _ => "FileNotFoundError"
  | isDirectory _ => "IsADirectoryError"
  | notDirectory _ => "NotADirectoryError"
  | tooManyLinks _ => "OSError"
  | missingKey _ => "KeyError"
  | notJson .. => "JSONDecodeError"
  | raised label _ => label
  | _ => "ValueError"

/-- The wording of a fault. -/
def Fault.message : Fault → String
  | lacks kind property => s!"'{kind}' object has no attribute '{property}'"
  | undefinedName name => s!"name '{name}' is not defined"
  | noFields => "No fields provided"
  | noValues => "No values provided"
  | unsupportedConstant kind => s!"Unsupported constant type: <class '{kind}'>"
  | lengthNotInteger type => s!"Unsupported list maximum length type: ${type}"
  | foreignItem kind module => s!"Attempting to add a type of kind <class '{kind.path}'> to module {module}"
  | unindentBelowZero => "Attempting to unindent below zero"
  | resultAtLevel level => s!"Attempting to retrieve result at indentation level {level}"
  | illegalLevel value kind => s!"Illegal indentation level value [{value}] of type <class '{kind}'>"
  | unknownStyle style => s!"Unknown style [{style}]"
  | emptyComment field struct => s!"Field {field} of struct {struct} has an empty comment"
  | unboundedList => "Arbitrary length C lists not yet implemented"
  | unspelledType name => s!"Unsupported type {name}"
  | unsupportedHint name => s!"Unsupported type [{name}]"
  | unsupportedField type struct field => s!"Unsupported type [{type}] of field [{struct}.{field}]"
  | unsupportedElement type => s!"Unsupported type [{type}] of List / Array item."
  | nestedSequence =>
    "Lists or Arrays as element types are not supported. Please, create indirection via a struct."
  | unsupportedCast type => s!"Unsupported integer conversion for type [{type}]"
  | unsupportedPrimitive type => s!"Unsupported primitive type: {type}"
  | unprintableType type => s!"Unsupported type: {type}"
  | outOfRange => "list index out of range"
  | integerTooLong =>
    "Exceeds the limit (4300 digits) for integer string conversion; " ++
      "use sys.set_int_max_str_digits() to increase the limit"
  | digitsTooMany count =>
    s!"Exceeds the limit (4300 digits) for integer string conversion: value has {count} digits; " ++
      "use sys.set_int_max_str_digits() to increase the limit"
  | notInteger text =>
    "invalid literal for int() with base 10: " ++ String.ofList ((Text.quoted text).toList.take 200)
  | infinityNotInteger => "cannot convert float infinity to integer"
  | nanNotInteger => "cannot convert float NaN to integer"
  | kindNotInteger kind =>
    s!"int() argument must be a string, a bytes-like object or a real number, not '{kind}'"
  | concatenates kind => s!"can only concatenate {kind} (not \"int\") to {kind}"
  | bytesConcatenate => "can't concat int to bytes"
  | intNotIterable => "'int' object is not iterable"
  | cannotAdd kind => s!"unsupported operand type(s) for +=: '{kind}' and 'int'"
  | missingFile path => "[Errno 2] No such file or directory: " ++ Text.quoted path
  | isDirectory path => "[Errno 21] Is a directory: " ++ Text.quoted path
  | notDirectory path => "[Errno 20] Not a directory: " ++ Text.quoted path
  | tooManyLinks path => "[Errno 40] Too many levels of symbolic links: " ++ Text.quoted path
  | missingKey key => Text.quoted key
  | notJson reason line column offset => s!"{reason}: line {line} column {column} (char {offset})"
  | notFloat text => "could not convert string to float: " ++ Text.quoted text
  | kindNotFloat kind => s!"float() argument must be a string or a real number, not '{kind}'"
  | floatTooSmall => "int too large to convert to float"
  | noItemAssignment kind => s!"'{kind}' object does not support item assignment"
  | notIndexable kind => s!"'{kind}' object is not subscriptable"
  | indexNotInteger kind => s!"{kind} indices must be integers or slices, not str"
  | unformattable kind => s!"unsupported format string passed to {kind}.__format__"
  | unknownFormat kind => s!"Unknown format code 'f' for object of type '{kind}'"
  | raised _ text => text

end CodeBridge
