import CodeBridge.Emit.Conversion
import CodeBridge.Emit.Dataclasses
import CodeBridge.Emit.Header
import CodeBridge.Emit.Printers

/-! # Finished texts

What each generator gives out for a whole module, from an empty writer to the finished text. -/

namespace CodeBridge.Emit

/-- The result of what is done from a first state on. -/
def outcome {σ α : Type} (action : EStateM Fault σ α) (start : σ) : Except Fault α :=
  match action start with
  | .ok a _ => .ok a
  | .error fault _ => .error fault

/-- The C header of a module. -/
def headerText (style : Style) (m : Module) : Except Fault String :=
  outcome (Header.run style m *> Writing.result) Writer.braced

/-- The Python classes of a module. -/
def classesText (m : Module) : Except Fault String :=
  outcome (Dataclasses.run m *> Dataclasses.writing fun _ => Writing.result) ⟨Writer.bare, []⟩

/-- The header and the code of the conversions of a module. -/
def conversionTexts (package : String) (m : Module) : Except Fault (String × String) :=
  outcome (Conversion.run package m *> Sourcing.result) ⟨Writer.braced, Writer.braced⟩

/-- The header and the code of the printers of a module. -/
def printerTexts (style : Style) (m : Module) : Except Fault (String × String) :=
  outcome (Printers.run style m *> Sourcing.result) ⟨Writer.braced, Writer.braced⟩

end CodeBridge.Emit
