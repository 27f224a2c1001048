import CodeBridge.Proofs.FinishedTexts

/-! # Headers and sources that agree

The header of conversions or printers declares the functions that the code defines, in the same order. The functions that
the code names for the fields of structs are among them if the module brings along all types that its fields hold. -/

namespace CodeBridge.Emit

/-- A header and a code for the same functions. `names` gives the names of the functions of a type, and `served` says how
the lines for a field name the functions of the type it holds. -/
structure Agree (style : Style) (m : Module) (names : DataType → List String)
    (served : List Function → Field → DataType → List String → Prop) (texts : Except Fault (String × String))
    (ds : List Definition) : Prop where
  texts : texts = .ok (linesText (ds.map Definition.declaration), linesText (ds.flatMap (Definition.lines style)))
  names : ds.map (·.function.name) = m.items.flatMap names
  single : ∀ d ∈ ds, OneLine d.declaration
  served : m.Closed → ∀ d ∈ ds, List.Forall₂ (fun f ls => ∀ held, f.type.held? = some held →
    served (ds.map Definition.function) f held ls) d.fields d.blocks

/-- What was defined without a fault is given out. -/
theorem Sourcing.Defines.outcome {style : Style} {x : Sourcing Unit} {r : Except Fault (List Definition)}
    (hx : Defines style x r) {t : Sources} (h : x ⟨.braced, .braced⟩ = .ok () t) : ∃ ds, r = .ok ds ∧
      Emit.outcome (x *> Sourcing.result) ⟨.braced, .braced⟩ =
        .ok (linesText (ds.map Definition.declaration), linesText (ds.flatMap (Definition.lines style))) := by
  obtain ⟨texts, htexts⟩ := hx.gives.exists_of_ok h
  rw [hx.texts_eq] at htexts ⊢
  cases r with
  | error fault => cases htexts
  | ok ds => exact ⟨ds, rfl, rfl⟩

theorem oneLine_declaration {d : Definition} (h : OneLine d.function.signature) : OneLine d.declaration :=
  oneLine_append.mpr ⟨h, by decide⟩

variable {style : Style} {m : Module}

/-- The code of conversions or printers defines exactly the functions that its header declares. -/
theorem sources_agree (hstyle : style = .knr ∨ style = .bsd) (hm : m.OneLine) (package : String) :
    (∀ t, Conversion.run package m ⟨.braced, .braced⟩ = .ok () t → ∃ ds, Conversion.definitions package m = .ok ds ∧
      Agree .knr m Conversion.names Conversion.Served (conversionTexts package m) ds ∧
      (OneLine package → ∀ d ∈ ds, ∀ l ∈ d.lines .knr, OneLine l)) ∧
    ∀ t, Printers.run style m ⟨.braced, .braced⟩ = .ok () t → ∃ ds, Printers.definitions style m = .ok ds ∧
      Agree style m Printers.names (Printers.Served style) (printerTexts style m) ds ∧
      ∀ d ∈ ds, ∀ l ∈ d.lines style, OneLine l := by
  refine ⟨fun t ht => ?_, fun t ht => ?_⟩
  · obtain ⟨ds, hds, htexts⟩ := (Conversion.defines_run package m).outcome ht
    have hlines := Conversion.oneLine_definitions hm hds
    refine ⟨ds, hds, ⟨htexts, Conversion.names_definitions hds, fun d hd => oneLine_declaration (hlines d hd).1,
      Conversion.served_definitions hds⟩, fun hpackage d hd => ?_⟩
    exact Definition.oneLine_lines (hlines d hd).1 ((hlines d hd).2 hpackage)
  · obtain ⟨ds, hds, htexts⟩ := (Printers.defines_run hstyle m).outcome ht
    have hlines := Printers.oneLine_definitions hm hds
    refine ⟨ds, hds, ⟨htexts, Printers.names_definitions hds, fun d hd => oneLine_declaration (hlines d hd).1,
      Printers.served_definitions hds⟩, fun d hd => ?_⟩
    exact Definition.oneLine_lines (hlines d hd).1 (hlines d hd).2

def urgency : Enumeration :=
  ⟨"Urgency", ["CALM", "URGENT"], .int 0, .bool true, .text "e"⟩

def item : Struct :=
  ⟨"Item", [⟨"weight", .primitive .int32, none⟩, ⟨"urgency", .enumeration urgency, none⟩], .bool true, .text "t"⟩

/-- A struct that holds another one, an array of it and an array of an enumeration. -/
def parcel : Struct :=
  ⟨"ParcelBox", [⟨"first", .struct item, none⟩, ⟨"items", .array (.struct item) "ITEMS", none⟩,
    ⟨"marks", .array (.enumeration urgency) "MARKS", none⟩], .bool false, .text "t"⟩

def post : Module :=
  ⟨"post", [], [item, parcel], [urgency]⟩

theorem sources_agree_post : post.OneLine ∧ post.Closed ∧
    (∃ t, Conversion.run "wire." post ⟨.braced, .braced⟩ = .ok () t) ∧
    (∃ t, Printers.run .bsd post ⟨.braced, .braced⟩ = .ok () t) ∧
    (∃ ds, Agree .knr post Conversion.names Conversion.Served (conversionTexts "wire." post) ds ∧
      ds.map (·.function.name) = ["Urgency_to_c", "Urgency_to_python", "Item_to_c", "Item_to_python", "ParcelBox_to_c",
        "ParcelBox_to_python"]) ∧
    ∃ ds, Agree .bsd post Printers.names (Printers.Served .bsd) (printerTexts .bsd post) ds ∧
      ds.map (·.function.name) = ["urgency_e_to_string", "item_t_to_string", "struct parcel_box_to_string"] := by
  have hm : post.OneLine := {
    name := by decide
    enumerations := by decide
    structs := by simp +decide [post, item, parcel, DataType.OneLine, urgency] }
  have hclosed : post.Closed := by
    simp +decide [Module.Closed, post, item, parcel, DataType.held?, DataType.item?, Module.items]
  obtain ⟨hconversion, hprinters⟩ := sources_agree (.inr rfl) hm "wire."
  obtain ⟨t, ht⟩ := of_outcome_eq_ok
    (show outcome (Conversion.run "wire." post) ⟨.braced, .braced⟩ = .ok () by decide +kernel)
  obtain ⟨t', ht'⟩ := of_outcome_eq_ok
    (show outcome (Printers.run .bsd post) ⟨.braced, .braced⟩ = .ok () by decide +kernel)
  obtain ⟨ds, -, hagree, -⟩ := hconversion t ht
  obtain ⟨ds', -, hagree', -⟩ := hprinters t' ht'
  exact ⟨hm, hclosed, ⟨t, ht⟩, ⟨t', ht'⟩, ⟨ds, hagree, hagree.names.trans (by decide +kernel)⟩,
    ds', hagree', hagree'.names.trans (by decide +kernel)⟩

end CodeBridge.Emit
