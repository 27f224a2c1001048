import CodeBridge.Proofs.StructFilling

/-! # Casts of integers

An integer reaches the conversion of a struct as a 64-bit integer and is cast when it is assigned. The type of
the cast and the type that the header declares come from different tables: they agree for every integer type but
the one without a size, which is declared with 64 bits and cast to `int`. -/

namespace CodeBridge.Emit.Conversion

open Macro

/-! ### The type of a cast -/

/-- A line that assigns the 64-bit integer `source` converts it to this type: to the type of its cast, or not at
all. -/
inductive Converts (target source : String) : String → String → Prop where
  | cast (depth : Nat) (type : String) :
      Converts target source (actionLine depth (target ++ " = " ++ ("(" ++ type ++ ") " ++ source))) type
  | same (depth : Nat) : Converts target source (actionLine depth (target ++ " = " ++ source)) "int64_t"

/-- An integer as it is assigned. -/
def converted (p : Primitive) (source : String) : String :=
  if p = .int64 then source else "(" ++ p.castType ++ ") " ++ source

theorem first_of_target {target : String} (h : ∃ rest, target = "result." ++ rest) (value : String) :
    ∃ c ∈ (target ++ " = " ++ value).toList.head?, c ≠ ' ' := by
  obtain ⟨rest, rfl⟩ := h
  exact ⟨'r', by simp, by decide⟩

/-- An assigned integer is converted to the type of its cast and to no other. -/
theorem converts_iff {target : String} (h : ∃ rest, target = "result." ++ rest) (p : Primitive) (source : String)
    (depth : Nat) (type : String) :
    Converts target source (actionLine depth (target ++ " = " ++ converted p source)) type ↔ type = p.castType := by
  -- A cast makes a text longer, so that no text is both cast and left as it is.
  have hlong : ∀ type : String, source ≠ "(" ++ type ++ ") " ++ source := fun type e => by
    have hlength := congrArg (List.length ∘ String.toList) e
    simp at hlength
    omega
  constructor
  · intro hconverts
    generalize hl : actionLine depth (target ++ " = " ++ converted p source) = l at hconverts
    cases hconverts with
    | cast depth' _ =>
      have hvalue := (String.append_right_inj _).mp (actionLine_inj (first_of_target h _) (first_of_target h _) hl)
      unfold converted at hvalue
      split at hvalue
      · exact absurd hvalue (hlong type)
      · exact ((String.append_right_inj _).mp ((String.append_left_inj _).mp ((String.append_left_inj _).mp hvalue))).symm
    | same depth' =>
      have hvalue := (String.append_right_inj _).mp (actionLine_inj (first_of_target h _) (first_of_target h _) hl)
      unfold converted at hvalue
      split at hvalue
      · next hp =>
        rw [hp]
        rfl
      · exact absurd hvalue.symm (hlong p.castType)
  · rintro rfl
    unfold converted
    split
    · next hp =>
      rw [hp]
      exact .same depth
    · exact .cast depth p.castType

theorem castType_eq_declaredType_iff (p : Primitive) : p.castType = p.declaredType ↔ p ≠ .integer := by
  cases p <;> decide

/-! ### Assigned integers -/

theorem performs_integer {struct : String} {f : Field} {p : Primitive} (hp : p.isInteger = true)
    (hf : f.type = .primitive p) {m : Macro} (h : assignment struct f = .ok m) :
    Performs m 2 ("result." ++ f.name ++ " = " ++ converted p f.name) := by
  have hassign : assignment struct f = .ok (Access.int64Attribute (.text "python_struct") f.name
      (.text ("result." ++ f.name ++ " = " ++ converted p f.name))) := by
    rw [assignment, hf]
    cases p with
    | boolean => cases hp
    | float => cases hp
    | double => cases hp
    | string => cases hp
    | _ => rfl
  cases hassign.symm.trans h
  exact performs_int64Attribute _ _ _

theorem elementAssignment_integer {p : Primitive} (hp : p.isInteger = true) (target : String) :
    elementAssignment target (.primitive p) = .ok (target ++ " = " ++ converted p "item_value") := by
  cases p with
  | boolean => cases hp
  | float => cases hp
  | double => cases hp
  | string => cases hp
  | _ => rfl

theorem performs_integerElement {struct : String} {f : Field} {p : Primitive} (hp : p.isInteger = true)
    (hf : f.type.element = .ok (.primitive p)) {m : Macro} (h : assignment struct f = .ok m) :
    Performs m 2 ("result." ++ f.name ++ "[item_index]" ++ " = " ++ converted p "item_value") := by
  obtain ⟨name, type, comment⟩ := f
  cases type with
  | list element bound =>
    obtain rfl : element = .primitive p := Except.ok.inj hf
    obtain ⟨action, haction, h⟩ := exists_of_bind_eq_ok h
    cases haction.symm.trans (elementAssignment_integer hp _)
    exact performs_elements h
  | array element length =>
    obtain rfl : element = .primitive p := Except.ok.inj hf
    obtain ⟨action, haction, h⟩ := exists_of_bind_eq_ok h
    cases haction.symm.trans (elementAssignment_integer hp _)
    exact performs_elements h
  | _ => cases hf

theorem spelling_of_element {type : DataType} {p : Primitive} (h : type.element = .ok (.primitive p)) {spelling : Spelling}
    (hs : type.spelling = .ok spelling) : ∃ length, spelling = .around p.declaredType length := by
  cases type with
  | list element bound =>
    obtain rfl : element = .primitive p := Except.ok.inj h
    cases bound with
    | unset => cases hs
    | unbounded => cases hs
    | named constant =>
      cases hs
      exact ⟨"[" ++ constant ++ "]", rfl⟩
  | array element length =>
    obtain rfl : element = .primitive p := Except.ok.inj h
    cases hs
    exact ⟨"[" ++ length ++ "]", rfl⟩
  | _ => cases h

/-- In every conversion of a struct, the statement of a field converts an integer to the type that the header
declares for the field or for its elements, unless it is the integer type without a size. -/
theorem converted_eq_declared_iff {s : Struct} {t t' : Sources} (ht : t.code.Ready) (h : structToC s t = .ok () t') :
    ∃ name statements, t'.code = t.code.addLines (structToCLines s name statements) ∧
      List.Forall₂ (fun f statement => ∃ line, statement.getLast? = some line ∧ ∀ p : Primitive, p.isInteger = true →
        ∃ converted declared, (converted = declared ↔ p ≠ .integer) ∧
          (f.type = .primitive p → f.type.spelling = .ok (.plain declared) ∧
            ∀ type, Converts ("result." ++ f.name) f.name line type ↔ type = converted) ∧
          (f.type.element = .ok (.primitive p) →
            (∀ spelling, f.type.spelling = .ok spelling → ∃ length, spelling = .around declared length) ∧
            ∀ type, Converts ("result." ++ f.name ++ "[item_index]") "item_value" line type ↔ type = converted))
        s.fields statements := by
  obtain ⟨name, statements, hstatements, hcode⟩ := code_of_structToC ht h
  refine ⟨name, statements, hcode, (forall₂_of_mapM_eq_ok hstatements).imp ?_⟩
  intro f statement hstatement
  obtain ⟨m, hm, hlines⟩ := exists_of_bind_eq_ok hstatement
  obtain ⟨depth, index, value, hperforms, -⟩ := performs_assignment hm
  have hlast := hperforms.getLast?_statementLines hlines
  refine ⟨_, hlast, fun p hp => ⟨p.castType, p.declaredType, castType_eq_declaredType_iff p, ?_, ?_⟩⟩
  · intro hf
    have hline := hlast.symm.trans ((performs_integer hp hf hm).getLast?_statementLines hlines)
    rw [Option.some.inj hline]
    exact ⟨by rw [hf]; rfl, converts_iff ⟨f.name, rfl⟩ p f.name 2⟩
  · intro hf
    have hline := hlast.symm.trans ((performs_integerElement hp hf hm).getLast?_statementLines hlines)
    rw [Option.some.inj hline]
    exact ⟨fun spelling hs => spelling_of_element hf hs,
      converts_iff ⟨f.name ++ "[item_index]", String.append_assoc ..⟩ p "item_value" 2⟩

/-- A struct with an integer of this type and a list of such integers. -/
def tally (p : Primitive) : Struct :=
  ⟨"Tally", [⟨"total", .primitive p, none⟩, ⟨"counts", .list (.primitive p) (.named "MAX"), none⟩], .bool false,
    .text "t"⟩

theorem converted_eq_declared_tally :
    Writer.braced.Ready ∧ ∃ t, structToC (tally .uint16) ⟨Writer.braced, Writer.braced⟩ = .ok () t ∧
      ∃ total counts, Converts "result.total" "total" total "uint16_t" ∧
        Converts "result.counts[item_index]" "item_value" counts "uint16_t" ∧
        (DataType.primitive .uint16).spelling = .ok (.plain "uint16_t") ∧
        (DataType.list (.primitive .uint16) (.named "MAX")).spelling = .ok (.around "uint16_t" "[MAX]") := by
  have hname : (tally .uint16).cName = .ok "struct tally" := rfl
  have h := structToC_eq hname rfl (t := ⟨Writer.braced, Writer.braced⟩) Writer.braced_ready
  refine ⟨Writer.braced_ready, _, h, ?_⟩
  obtain ⟨name, statements, -, hall⟩ := converted_eq_declared_iff Writer.braced_ready h
  cases hall with
  | cons htotal hrest =>
    cases hrest with
    | cons hcounts =>
      obtain ⟨total, -, htotal⟩ := htotal
      obtain ⟨counts, -, hcounts⟩ := hcounts
      obtain ⟨c, d, hiff, hplain, -⟩ := htotal .uint16 rfl
      obtain ⟨c', d', hiff', -, haround⟩ := hcounts .uint16 rfl
      obtain ⟨hspelling, htype⟩ := hplain rfl
      obtain ⟨hspelling', htype'⟩ := haround rfl
      obtain ⟨length, hlength⟩ := hspelling' _ rfl
      cases hspelling
      cases hlength
      exact ⟨total, counts, (htype _).mpr (hiff.mpr (by decide)).symm, (htype' _).mpr (hiff'.mpr (by decide)).symm, rfl, rfl⟩

/-- An integer without a size is declared with 64 bits and cast to `int`. -/
theorem converted_ne_declared_tally :
    headerText .knr ⟨"tallies", [], [tally .integer], []⟩ =
        .ok "struct tally \x7b\n    int64_t total;\n    int64_t counts[MAX];\n    size_t counts_length;\n\x7d;\n\n" ∧
      (outcome (structToC (tally .integer) *> Sourcing.result) ⟨Writer.braced, Writer.braced⟩).map Prod.snd =
        .ok (linesText ["struct tally Tally_to_c(PyObject *python_struct) \x7b",
          "    struct tally result = \x7b0\x7d;",
          "    with_attribute(", "        python_struct,", "        \"total\",", "        python_value,",
          "        with_pylong_as_int64(", "            python_value,", "            total,",
          "            result.total = (int) total));",
          "    with_attribute(", "        python_struct,", "        \"counts\",", "        python_value,",
          "        with_list_elements(", "            python_value,", "            int64_t,", "            MAX,",
          "            result.counts[item_index] = (int) item_value));",
          "    return result;", "\x7d", ""]) := by
  decide +kernel

end CodeBridge.Emit.Conversion
