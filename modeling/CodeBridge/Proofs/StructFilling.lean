import CodeBridge.Emit.Texts
import CodeBridge.Proofs.MacroLines

/-! # Filling a struct

The function that makes a struct from an object fills the struct by one statement for each field. Each statement
is a macro call that performs the assignment of its field. -/

namespace CodeBridge.Emit.Conversion

open Writing

/-! ### The lines of a conversion -/

/-- The lines of the statements that fill a struct, a list of them for each field. -/
def fillings (s : Struct) : Except Fault (List (List String)) :=
  s.fields.mapM fun f => do (← assignment s.name f).statementLines

/-- The lines of the conversion of a struct with this C name: the statements that fill its fields stand between
the line that declares the struct and the one that gives it back. -/
def structToCLines (s : Struct) (name : String) (statements : List (List String)) : List String :=
  [name ++ " " ++ s.name ++ "_to_c(PyObject *python_struct)" ++ " \x7b"] ++
    ([name ++ " result = \x7b0\x7d;"] ++ (statements.flatten ++ ["return result;"])).map indented ++ ["\x7d", ""]

theorem yields_structToCBody {s : Struct} {name : String} (hname : s.cName = .ok name) :
    Yields (structToCBody s)
      (do return [name ++ " result = \x7b0\x7d;"] ++ ((← fillings s).flatten ++ ["return result;"])) := by
  have hfields : Yields (Writing.each s.fields fun f => do (← Writing.check (assignment s.name f)).writeStatement)
      (do return (← fillings s).flatten) :=
    Yields.each fun f _ => Yields.check fun m _ => m.yields_statement
  have hall := (Yields.line (name ++ " result = \x7b0\x7d;")).bind (hfields.bind (Yields.line "return result;"))
  simp only [bind_assoc, pure_bind] at hall
  unfold structToCBody
  rw [hname]
  exact hall

theorem yields_structToC {s : Struct} {name : String} (hname : s.cName = .ok name) :
    Yields (do
      write (name ++ " " ++ s.name ++ "_to_c(PyObject *python_struct)" ++ " ")
      block (structToCBody s)
      line "") (do return structToCLines s name (← fillings s)) := by
  have hopens := Style.opens_before (show Style.knr.opening (name ++ " " ++ s.name ++ "_to_c(PyObject *python_struct)") =
    .ok [name ++ " " ++ s.name ++ "_to_c(PyObject *python_struct)" ++ " \x7b"] from rfl)
  have hall := (Yields.block hopens (yields_structToCBody hname) "").bind (Yields.line "")
  rw [bind_assoc] at hall
  simp only [bind_assoc, pure_bind] at hall
  cases hfillings : fillings s with
  | error fault =>
    rw [hfillings] at hall
    exact hall
  | ok statements =>
    rw [hfillings] at hall
    show Yields _ (.ok (structToCLines s name statements))
    rw [structToCLines, show ["\x7d", ""] = ["\x7d"] ++ [""] from rfl, ← List.append_assoc]
    exact hall

theorem code_of_structToC {s : Struct} {t t' : Sources} (ht : t.code.Ready) (h : structToC s t = .ok () t') :
    ∃ name statements, fillings s = .ok statements ∧ t'.code = t.code.addLines (structToCLines s name statements) := by
  obtain ⟨name, t₁, hcheck, h⟩ := exists_of_bind_run_eq_ok h
  obtain ⟨_, t₂, hheader, h⟩ := exists_of_bind_run_eq_ok h
  obtain ⟨hname, rfl⟩ := Sourcing.of_check hcheck
  cases hheader
  obtain ⟨ls, hls, hadd⟩ := (yields_structToC hname).of_ok ht (Sourcing.of_inCode h).1
  obtain ⟨statements, hstatements, hls⟩ := exists_of_bind_eq_ok hls
  cases hls
  exact ⟨name, statements, hstatements, hadd⟩

theorem structToC_eq {s : Struct} {name : String} {statements : List (List String)} (hname : s.cName = .ok name)
    (hstatements : fillings s = .ok statements) {t : Sources} (ht : t.code.Ready) :
    structToC s t = .ok () ⟨t.header.putLine (name ++ " " ++ s.name ++ "_to_c(PyObject *python_struct)" ++ ";"),
      t.code.addLines (structToCLines s name statements)⟩ := by
  have hyields := yields_structToC hname
  rw [hstatements] at hyields
  have hcode := hyields t.code ht
  unfold structToC
  rw [hname]
  show Sourcing.inCode _ ⟨t.header.putLine _, t.code⟩ = _
  rw [Sourcing.inCode]
  simp only [hcode]

/-! ### What the statements perform -/

section
open Macro

theorem performs_withAttribute {m : Macro} {depth : Nat} {action : String} (h : Performs m depth action) (owner : Macro)
    (name : String) : Performs (Access.withAttribute owner name m) (depth + 1) action :=
  .call "with_attribute" owner [.text (Access.quote name), .text "python_value"] h

theorem performs_int64Attribute (owner : Macro) (name action : String) :
    Performs (Access.int64Attribute owner name (.text action)) 2 action :=
  performs_withAttribute (.call "with_pylong_as_int64" (.text "python_value") [.text name] (.text action)) owner name

theorem performs_floatAttribute (owner : Macro) (name action : String) :
    Performs (Access.floatAttribute owner name (.text action)) 2 action :=
  performs_withAttribute (.call "with_pyfloat_as_double" (.text "python_value") [.text name] (.text action)) owner name

/-- Lists and arrays are gone through alike: the macro and where the size comes from are all that differs. -/
theorem performs_elements {owner m : Macro} {name action loop : String} {type : DataType} {size : Except Fault Value}
    (h : (do
      let elements : Macro ← (do
        let element ← type.element
        let spelling ← element.spelling
        let size ← size
        return .call loop [.text "python_value", .value spelling.value, .value size, .text action])
      return Access.withAttribute owner name elements) = Except.ok m) : Performs m 2 action := by
  obtain ⟨elements, helements, h⟩ := exists_of_bind_eq_ok h
  obtain ⟨element, -, helements⟩ := exists_of_bind_eq_ok helements
  obtain ⟨spelling, -, helements⟩ := exists_of_bind_eq_ok helements
  obtain ⟨size, -, helements⟩ := exists_of_bind_eq_ok helements
  cases helements
  cases h
  exact performs_withAttribute
    (.call loop (.text "python_value") [.value spelling.value, .value size] (.text action)) owner name

theorem elementAssignment_eq_ok {target action : String} {element : DataType}
    (h : elementAssignment target element = .ok action) : ∃ value, action = target ++ " = " ++ value := by
  unfold elementAssignment at h
  split at h
  case h_1 s => cases h; exact ⟨s.name ++ "_to_c(item_value)", by simp [String.append_assoc]⟩
  case h_2 e => cases h; exact ⟨e.name ++ "_to_c(item_value)", by simp [String.append_assoc]⟩
  case h_3 => cases h; exact ⟨"item_value", by simp [String.append_assoc]⟩
  case h_4 => cases h; exact ⟨"item_value", by simp [String.append_assoc]⟩
  case h_5 => cases h
  case h_6 => cases h
  case h_7 t =>
    split at h
    · obtain ⟨value, -, h⟩ := exists_of_bind_eq_ok h
      cases h
      exact ⟨value, rfl⟩
    · obtain ⟨name, -, h⟩ := exists_of_bind_eq_ok h
      cases h

/-- The statement of a field performs an assignment to the member of its name, as a whole or element by element. -/
theorem performs_assignment {struct : String} {f : Field} {m : Macro} (h : assignment struct f = .ok m) :
    ∃ depth index value, Performs m (depth + 1) ("result." ++ f.name ++ index ++ " = " ++ value) ∧
      (index = "" ∨ index = "[item_index]") := by
  -- All but the elements of lists and arrays are assigned as a whole.
  have whole : ∀ (value : String) {depth : Nat} {action : String}, Performs m (depth + 1) action →
      action = "result." ++ f.name ++ " = " ++ value → ∃ depth index value,
        Performs m (depth + 1) ("result." ++ f.name ++ index ++ " = " ++ value) ∧ (index = "" ∨ index = "[item_index]") :=
    fun value depth _ hm e => ⟨depth, "", value, by rw [String.append_empty, ← e]; exact hm, .inl rfl⟩
  unfold assignment at h
  split at h
  case h_1 s =>
    cases h
    exact whole _ (performs_withAttribute (.text _) _ _) (String.append_assoc ..)
  case h_2 e =>
    cases h
    exact whole _ (performs_withAttribute (.text _) _ _) (String.append_assoc ..)
  case h_3 =>
    cases h
    refine whole ("(float) " ++ f.name) (performs_floatAttribute _ _ _) ?_
    rw [← String.toList_inj]
    simp
  case h_4 =>
    cases h
    exact whole _ (performs_floatAttribute _ _ _) rfl
  case h_5 element bound =>
    obtain ⟨action, haction, h⟩ := exists_of_bind_eq_ok h
    obtain ⟨value, rfl⟩ := elementAssignment_eq_ok haction
    exact ⟨1, "[item_index]", value, performs_elements h, .inr rfl⟩
  case h_6 element length =>
    obtain ⟨action, haction, h⟩ := exists_of_bind_eq_ok h
    obtain ⟨value, rfl⟩ := elementAssignment_eq_ok haction
    exact ⟨1, "[item_index]", value, performs_elements h, .inr rfl⟩
  case h_7 t =>
    split at h
    · obtain ⟨value, -, h⟩ := exists_of_bind_eq_ok h
      cases h
      exact whole _ (performs_int64Attribute _ _ _) rfl
    · obtain ⟨name, -, h⟩ := exists_of_bind_eq_ok h
      cases h

end

end CodeBridge.Emit.Conversion
