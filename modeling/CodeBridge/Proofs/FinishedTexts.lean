import CodeBridge.Proofs.ConversionFunctions
import CodeBridge.Proofs.HeaderLines
import CodeBridge.Proofs.PrinterFunctions

/-! # Finished texts

The texts that the generators give out, as the lines of a header and as the functions of a header and its code. A
generator that has gone through a module gives its texts out, and the fault of one that has not is the fault of the
texts. -/

namespace CodeBridge.Emit

/-- The action ends as the texts are given out: without a fault, or with the fault that withholds them. -/
def Gives {σ α : Type} (x : EStateM Fault σ Unit) (start : σ) (texts : Except Fault α) : Prop :=
  outcome x start = texts.map fun _ => ()

theorem Gives.exists_of_ok {σ α : Type} {x : EStateM Fault σ Unit} {start t : σ} {texts : Except Fault α}
    (h : Gives x start texts) (hx : x start = .ok () t) : ∃ a, texts = .ok a := by
  rw [Gives, outcome, hx] at h
  cases texts with
  | error fault => cases h
  | ok a => exact ⟨a, rfl⟩

theorem of_outcome_eq_ok {σ α : Type} {x : EStateM Fault σ α} {a : α} {s : σ} (h : outcome x s = .ok a) :
    ∃ s', x s = .ok a s' := by
  unfold outcome at h
  cases hx : x s with
  | error fault s' =>
    rw [hx] at h
    cases h
  | ok b s' =>
    rw [hx] at h
    cases h
    exact ⟨s', rfl⟩

theorem Header.gives_text (style : Style) (m : Module) : Gives (run style m) .braced (headerText style m) := by
  have hrun := yields_run style m
  rw [Gives, headerText_eq, outcome]
  generalize headerLines style m = lines at hrun ⊢
  cases lines with
  | error fault =>
    obtain ⟨w, hw⟩ := hrun _ Writer.braced_ready
    rw [hw]
    rfl
  | ok ls =>
    rw [hrun _ Writer.braced_ready]
    rfl

namespace Sourcing

/-- The header and the code with these functions. -/
def texts (style : Style) (ds : List Definition) : String × String :=
  (linesText (ds.map Definition.declaration), linesText (ds.flatMap (Definition.lines style)))

variable {style : Style} {x : Sourcing Unit} {r : Except Fault (List Definition)}

theorem Defines.texts_eq (hx : Defines style x r) :
    Emit.outcome (x *> Sourcing.result) ⟨.braced, .braced⟩ = r.map (Sourcing.texts style) := by
  rw [Emit.outcome, seqRight_eq_bind]
  cases r with
  | error fault =>
    obtain ⟨t, ht⟩ := hx ⟨.braced, .braced⟩ Writer.braced_ready Writer.braced_ready
    rw [bind_error ht]
    rfl
  | ok ds =>
    rw [bind_ok (hx ⟨.braced, .braced⟩ Writer.braced_ready Writer.braced_ready), Sourcing.result_eq rfl rfl]
    simp only [text_addLines_braced]
    rfl

theorem Defines.gives (hx : Defines style x r) :
    Gives x ⟨.braced, .braced⟩ (Emit.outcome (x *> Sourcing.result) ⟨.braced, .braced⟩) := by
  rw [Gives, hx.texts_eq, Emit.outcome]
  cases r with
  | error fault =>
    obtain ⟨t, ht⟩ := hx ⟨.braced, .braced⟩ Writer.braced_ready Writer.braced_ready
    rw [ht]
    rfl
  | ok ds =>
    rw [hx ⟨.braced, .braced⟩ Writer.braced_ready Writer.braced_ready]
    rfl

end Sourcing

section
variable {style : Style} (hstyle : style = .knr ∨ style = .bsd)
include hstyle

theorem printerTexts_eq (m : Module) :
    printerTexts style m = (Printers.definitions style m).map (Sourcing.texts style) :=
  (Printers.defines_run hstyle m).texts_eq

theorem Printers.gives_texts (m : Module) : Gives (run style m) ⟨.braced, .braced⟩ (printerTexts style m) :=
  (defines_run hstyle m).gives

end

theorem conversionTexts_eq (package : String) (m : Module) :
    conversionTexts package m = (Conversion.definitions package m).map (Sourcing.texts .knr) :=
  (Conversion.defines_run package m).texts_eq

theorem Conversion.gives_texts (package : String) (m : Module) :
    Gives (run package m) ⟨.braced, .braced⟩ (conversionTexts package m) :=
  (defines_run package m).gives

end CodeBridge.Emit
