import CodeBridge.Proofs.Literals
import CodeBridge.Proofs.MacroArity

/-! # Names of attributes

The conversions name the attributes of an object by string literals, one in each call that reads or sets an attribute. Such
a literal is the name between two quotes as it is. So it agrees with the literal of a constant, and stands for the name,
as long as there is no quote in the name itself. -/

namespace CodeBridge

open Text Text.Literal

/-! ### Names in quotes -/

namespace Text

/-- The characters of Unicode that control a device and are not shown. -/
def IsControl (c : Char) : Prop :=
  c.toNat < 0x20 ∨ 0x7f ≤ c.toNat ∧ c.toNat < 0xa0

instance : DecidablePred IsControl := fun _ => inferInstanceAs (Decidable (_ ∨ _))

namespace Escape

/-- Beside quotes and backslashes only control characters need a mark. -/
theorem mark?_eq_none {c : Char} (hquote : c ≠ '"') (hbackslash : c ≠ '\\') (hcontrol : ¬IsControl c) : mark? c = none := by
  unfold mark?
  split
  case h_1 => exact absurd rfl hquote
  case h_2 => exact absurd rfl hbackslash
  case h_10 => rfl
  all_goals exact absurd (by decide) hcontrol

theorem encode_eq_self {cs : List Char} (h : ∀ c ∈ cs, mark? c = none) : encode cs = cs := by
  induction cs with
  | nil => rfl
  | cons c cs ih =>
    obtain ⟨hc, hcs⟩ := List.forall_mem_cons.mp h
    have hchar : encodeChar c = [c] := by rw [encodeChar, hc]
    rw [encode, List.flatMap_cons, hchar]
    exact congrArg (c :: ·) (ih hcs)

end Escape

end Text

namespace Access

theorem toList_quote (name : String) : (quote name).toList = '"' :: name.toList ++ ['"'] := by
  simp [quote]

section
variable {name : String} (hname : ∀ c ∈ name.toList, c ≠ '\\' ∧ ¬IsControl c)
include hname

theorem quote_eq_of_not_mem (h : '"' ∉ name.toList) : quote name = Escape.quote name := by
  have hmarks : ∀ c ∈ name.toList, Escape.mark? c = none := fun c hc =>
    Escape.mark?_eq_none (fun e => h (e ▸ hc)) (hname c hc).1 (hname c hc).2
  rw [← String.toList_inj, toList_quote, Escape.toList_quote, Escape.encode_eq_self hmarks]

/-- A quote in the name has no backslash, and so it ends the literal. -/
theorem not_mem_of_spells {text : String} (h : Spells (quote name) text) : '"' ∉ name.toList := by
  intro hmem
  obtain ⟨before, after, hsplit⟩ := List.append_of_mem hmem
  have hfree : Free ('"' :: before) := by
    refine free_of_not_mem fun hbackslash => ?_
    rcases List.mem_cons.mp hbackslash with hc | hc
    · cases hc
    · exact (hname '\\' (by rw [hsplit]; exact List.mem_append_left _ hc)).1 rfl
  have hliteral : (quote name).toList = ('"' :: before) ++ '"' :: (after ++ ['"']) := by
    rw [toList_quote, hsplit]
    simp
  rcases (h.single _ _ hliteral).mp hfree with hnil | hnil
  · cases hnil
  · simp at hnil

theorem spells_quote_iff : Spells (quote name) name ↔ '"' ∉ name.toList := by
  constructor
  · exact not_mem_of_spells hname
  · intro h
    rw [quote_eq_of_not_mem hname h]
    exact Escape.spells_quote name

theorem quote_eq_iff : quote name = Escape.quote name ↔ '"' ∉ name.toList := by
  constructor
  · intro h
    have hspells : Spells (quote name) name := h ▸ Escape.spells_quote name
    exact not_mem_of_spells hname hspells
  · exact quote_eq_of_not_mem hname

end

end Access

/-! ### Literals in statements -/

namespace Macro

/-- The second of some arguments, if it is a text. -/
def secondText : List Macro → List String
  | _ :: .value (.text s) :: _ => [s]
  | _ => []

mutual

/-- The literals by which a statement names attributes: the second argument of each call that reads or sets one. -/
def attributeLiterals : Macro → List String
  | .value _ => []
  | .call name arguments =>
    (if name = "with_attribute" ∨ name = "set_python_attribute" then secondText arguments else []) ++
      attributeLiteralsAll arguments

def attributeLiteralsAll : List Macro → List String
  | [] => []
  | m :: ms => m.attributeLiterals ++ attributeLiteralsAll ms

end

@[simp] theorem attributeLiterals_value (v : Value) : (Macro.value v).attributeLiterals = [] := by
  rw [attributeLiterals]

@[simp] theorem attributeLiterals_text (s : String) : (text s).attributeLiterals = [] :=
  attributeLiterals_value _

@[simp] theorem attributeLiterals_withAttribute (owner : Macro) (name : String) (action : Macro) :
    (Access.withAttribute owner name action).attributeLiterals =
      Access.quote name :: (owner.attributeLiterals ++ action.attributeLiterals) := by
  simp [Access.withAttribute, attributeLiterals, attributeLiteralsAll, secondText, text]

@[simp] theorem attributeLiterals_setAttribute (name value : String) :
    (Access.setAttribute name value).attributeLiterals = [Access.quote name] := by
  simp [Access.setAttribute, attributeLiterals, attributeLiteralsAll, secondText, text]

/-- Any other call has the literals of its arguments. -/
theorem attributeLiterals_call {name : String} (h : name ≠ "with_attribute" ∧ name ≠ "set_python_attribute")
    (arguments : List Macro) : (call name arguments).attributeLiterals = arguments.flatMap attributeLiterals := by
  have hall : ∀ ms, attributeLiteralsAll ms = ms.flatMap attributeLiterals := by
    intro ms
    induction ms with
    | nil => rfl
    | cons m ms ih => rw [attributeLiteralsAll, ih, List.flatMap_cons]
  rw [attributeLiterals, if_neg (not_or.mpr h), List.nil_append, hall]

end Macro

namespace Emit.Conversion

open Macro

section
variable {struct : String} {f : Field} {m : Macro}

theorem attributeLiterals_elements {name action loop : String} {type : DataType} {size : Except Fault Value}
    (hloop : loop ≠ "with_attribute" ∧ loop ≠ "set_python_attribute")
    (h : (do
      let elements : Macro ← (do
        let element ← type.element
        let spelling ← element.spelling
        let size ← size
        return .call loop [.text "python_value", .value spelling.value, .value size, .text action])
      return Access.withAttribute (.text "python_struct") name elements) = Except.ok m) :
    m.attributeLiterals = [Access.quote name] := by
  obtain ⟨elements, helements, h⟩ := exists_of_bind_eq_ok h
  obtain ⟨element, -, helements⟩ := exists_of_bind_eq_ok helements
  obtain ⟨spelling, -, helements⟩ := exists_of_bind_eq_ok helements
  obtain ⟨v, -, helements⟩ := exists_of_bind_eq_ok helements
  cases helements
  cases h
  simp [attributeLiterals_call hloop]

/-- The statement that fills a field reads one attribute, that of the field's name. -/
theorem attributeLiterals_assignment (h : assignment struct f = .ok m) : m.attributeLiterals = [Access.quote f.name] := by
  unfold assignment at h
  split at h
  case h_5 =>
    obtain ⟨action, -, h⟩ := exists_of_bind_eq_ok h
    exact attributeLiterals_elements (by decide) h
  case h_6 =>
    obtain ⟨action, -, h⟩ := exists_of_bind_eq_ok h
    exact attributeLiterals_elements (by decide) h
  case h_7 =>
    split at h
    · obtain ⟨value, -, h⟩ := exists_of_bind_eq_ok h
      cases h
      simp [Access.int64Attribute, Access.int64, attributeLiterals_call]
    · obtain ⟨name, -, h⟩ := exists_of_bind_eq_ok h
      cases h
  all_goals
    cases h
    simp [Access.floatAttribute, Access.float, attributeLiterals_call]

/-- The statement that sets an attribute sets one, that of the field's name. -/
theorem attributeLiterals_attributeSetting (h : attributeSetting struct f = .ok m) :
    m.attributeLiterals = [Access.quote f.name] := by
  unfold attributeSetting at h
  split at h
  case h_7 =>
    obtain ⟨label, -, h⟩ := exists_of_bind_eq_ok h
    cases h
    simp [attributeLiterals_call]
  case h_8 =>
    obtain ⟨label, -, h⟩ := exists_of_bind_eq_ok h
    cases h
    simp [attributeLiterals_call]
  case h_9 =>
    split at h
    · cases h
      simp [attributeLiterals_call]
    · obtain ⟨name, -, h⟩ := exists_of_bind_eq_ok h
      cases h
  all_goals
    cases h
    simp [attributeLiterals_call]

end

/-- The names of the attributes that the statements of a module read and set, in the order of the statements. -/
def attributeNames (m : Module) : List String :=
  m.enumerations.map (fun _ => "value") ++ m.structs.flatMap fun s => s.fields.map (·.name) ++ s.fields.map (·.name)

theorem attributeLiterals_fields {statement : Field → Except Fault Macro} {fields : List Field} {ms : List Macro}
    (hone : ∀ {f m}, statement f = .ok m → m.attributeLiterals = [Access.quote f.name]) (h : fields.mapM statement = .ok ms) :
    ms.flatMap attributeLiterals = (fields.map (·.name)).map Access.quote := by
  have hall := forall₂_of_mapM_eq_ok h
  clear h
  induction hall with
  | nil => rfl
  | cons hm _ ih => rw [List.flatMap_cons, hone hm, ih, List.map_cons, List.map_cons, List.singleton_append]

theorem attributeLiterals_structStatements {s : Struct} {ms : List Macro} (h : structStatements s = .ok ms) :
    ms.flatMap attributeLiterals = (s.fields.map (·.name) ++ s.fields.map (·.name)).map Access.quote := by
  obtain ⟨assigned, hassigned, h⟩ := exists_of_bind_eq_ok h
  obtain ⟨set, hset, h⟩ := exists_of_bind_eq_ok h
  cases h
  rw [List.flatMap_append, List.map_append, attributeLiterals_fields attributeLiterals_assignment hassigned,
    attributeLiterals_fields attributeLiterals_attributeSetting hset]

theorem attributeLiterals_structs {ss : List Struct} {mss : List (List Macro)} (h : ss.mapM structStatements = .ok mss) :
    mss.flatten.flatMap attributeLiterals =
      (ss.flatMap fun s => s.fields.map (·.name) ++ s.fields.map (·.name)).map Access.quote := by
  have hall := forall₂_of_mapM_eq_ok h
  clear h
  induction hall with
  | nil => rfl
  | cons hms _ ih =>
    rw [List.flatten_cons, List.flatMap_append, List.flatMap_cons, List.map_append, attributeLiterals_structStatements hms, ih]

/-- The statements of a module name each attribute by its name in quotes. -/
theorem attributeLiterals_statements {m : Module} {ms : List Macro} (h : statements m = .ok ms) :
    ms.flatMap attributeLiterals = (attributeNames m).map Access.quote := by
  obtain ⟨mss, hmss, h⟩ := exists_of_bind_eq_ok h
  cases h
  have hordinal : ordinalStatement.attributeLiterals = [Access.quote "value"] := rfl
  have hordinals : (m.enumerations.map fun _ => ordinalStatement).flatMap attributeLiterals =
      (m.enumerations.map fun _ => "value").map Access.quote := by
    rw [List.flatMap_map, List.map_map, List.map_eq_flatMap]
    simp only [hordinal, Function.comp_apply]
  rw [attributeNames, List.flatMap_append, List.map_append, hordinals, attributeLiterals_structs hmss]

/-- A name without backslashes and control characters stands in a single literal that stands for it, and the literal is that of
a constant, exactly if there is no quote in the name. The code of a module has no other literals for its attributes: each
statement that reads or sets one has the name of the attribute in quotes. -/
theorem attribute_literal_spells_iff {name : String} (hname : ∀ c ∈ name.toList, c ≠ '\\' ∧ ¬IsControl c) :
    (Spells (Access.quote name) name ↔ '"' ∉ name.toList) ∧ (Access.quote name = Escape.quote name ↔ '"' ∉ name.toList) ∧
      ∀ {package header code : String} {m : Module}, conversionTexts package m = .ok (header, code) →
        ∃ ms ls, statements m = .ok ms ∧ code = linesText ls ∧ Embeds ls ms ∧
          ms.flatMap attributeLiterals = (attributeNames m).map Access.quote := by
  refine ⟨Access.spells_quote_iff hname, Access.quote_eq_iff hname, ?_⟩
  intro package header code m h
  rw [conversionTexts_eq] at h
  cases hds : definitions package m with
  | error fault =>
    rw [hds] at h
    cases h
  | ok ds =>
    rw [hds] at h
    cases h
    obtain ⟨ms, hms, hembeds⟩ := embeds_definitions hds
    exact ⟨ms, _, hms, rfl, hembeds, attributeLiterals_statements hms⟩

/-- A module with one field, of this name. -/
def signs (name : String) : Module :=
  ⟨"signs", [], [⟨"Sign", [⟨name, .primitive .double, none⟩], .bool false, .text "t"⟩], []⟩

theorem attribute_literal_spells_owner :
    (∀ c ∈ "owner's größe".toList, c ≠ '\\' ∧ ¬IsControl c) ∧ Spells (Access.quote "owner's größe") "owner's größe" ∧
      ∃ texts ms, conversionTexts "" (signs "owner's größe") = .ok texts ∧ statements (signs "owner's größe") = .ok ms ∧
        ms.flatMap attributeLiterals = ["\"owner's größe\"", "\"owner's größe\""] := by
  have hname : ∀ c ∈ "owner's größe".toList, c ≠ '\\' ∧ ¬IsControl c := by decide
  obtain ⟨⟨header, code⟩, htexts⟩ : ∃ texts, conversionTexts "" (signs "owner's größe") = .ok texts := by
    rw [conversionTexts_eq]
    exact ⟨_, rfl⟩
  obtain ⟨hspells, -, hliterals⟩ := attribute_literal_spells_iff hname
  obtain ⟨ms, ls, hms, -, -, hquoted⟩ := hliterals htexts
  exact ⟨hname, hspells.mpr (by decide), _, ms, htexts, hms, hquoted⟩

theorem attribute_literal_broken :
    (∀ c ∈ "a\"b".toList, c ≠ '\\' ∧ ¬IsControl c) ∧ ¬Spells (Access.quote "a\"b") "a\"b" ∧
      Access.quote "a\"b" = "\"a\"b\"" ∧ Escape.quote "a\"b" = "\"a\\\"b\"" ∧
      (statements (signs "a\"b")).map (·.flatMap attributeLiterals) = .ok ["\"a\"b\"", "\"a\"b\""] := by
  have hname : ∀ c ∈ "a\"b".toList, c ≠ '\\' ∧ ¬IsControl c := by decide
  exact ⟨hname, mt (Access.spells_quote_iff hname).mp (by decide), rfl, rfl, rfl⟩

end Emit.Conversion

end CodeBridge
