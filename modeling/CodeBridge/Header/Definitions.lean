/-! # What a header defines

Constants, enumerations and structs, as the texts that a header holds for them. -/

namespace CodeBridge.Header

/-- A name with its value or its type. -/
structure Entry where
  name : String
  content : Option String
  comment : Option String
deriving DecidableEq, Repr

/-- An enumeration or a struct. -/
structure Group where
  name : String
  members : List Entry
  comment : Option String
deriving DecidableEq, Repr

structure Definitions where
  constants : List Entry := []
  enumerations : List Group := []
  structs : List Group := []
deriving DecidableEq, Repr

namespace Definitions

def addConstant (d : Definitions) (e : Entry) : Definitions :=
  ⟨d.constants ++ [e], d.enumerations, d.structs⟩

def addEnumeration (d : Definitions) (g : Group) : Definitions :=
  ⟨d.constants, d.enumerations ++ [g], d.structs⟩

def addStruct (d : Definitions) (g : Group) : Definitions :=
  ⟨d.constants, d.enumerations, d.structs ++ [g]⟩

end Definitions

end CodeBridge.Header
