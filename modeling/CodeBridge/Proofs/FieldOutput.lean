import CodeBridge.Proofs.PrinterFunctions

/-! # The output of fields

The function that prints a struct has a block of lines for each field, in the order of the fields. The block prints the
value of the field, and of an array the elements in a loop. Elements that are no structs are left out: the loop over
them prints their indentation and their commas alone. -/

namespace CodeBridge.Emit.Printers

open Writing Sourcing

/-- The statement that prints a value of the type, `depth` levels below the struct. -/
def outputCall (argument depth : String) : DataType → Except Fault String
  | .struct s => do return (← s.cName) ++ "_to_string(" ++ argument ++ ", out, indentation" ++ depth ++ ");"
  | .enumeration e => do return (← e.cName) ++ "_to_string(" ++ argument ++ ", out);"
  | t => do return "OutputHandler_process(out, " ++ (← t.printfCode) ++ ", " ++ argument ++ ");"

/-- These lines print the value of the field. -/
inductive Prints (style : Style) (f : Field) (ls : List String) : Prop where
  | value {call : String} (htype : ∀ element length, f.type ≠ .array element length)
      (hcall : outputCall ("value." ++ f.name) " + 1" f.type = .ok call) (hmem : call ∈ ls) : Prints style f ls
  | elements {element : DataType} {length call : String} {before inner after : List String}
      (htype : f.type = .array element length)
      (hloop : ls =
        before ++ (blockLines style ("for (size_t index = 0; index < " ++ length ++ "; ++index)") inner ++ after))
      (hcall : outputCall ("value." ++ f.name ++ "[index]") " + 2" element = .ok call) (hmem : call ∈ inner) :
      Prints style f ls

section
variable {style : Style} {f : Field} {ls : List String}

theorem outputCall_struct {argument depth c : String} {s : Struct} (hc : s.cName = .ok c) :
    outputCall argument depth (.struct s) = .ok (c ++ "_to_string(" ++ argument ++ ", out, indentation" ++ depth ++ ");") := by
  simp only [outputCall, hc]
  rfl

theorem outputCall_enumeration {argument depth c : String} {e : Enumeration} (hc : e.cName = .ok c) :
    outputCall argument depth (.enumeration e) = .ok (c ++ "_to_string(" ++ argument ++ ", out);") := by
  simp only [outputCall, hc]
  rfl

theorem outputCall_of_printfCode {argument depth code : String} {t : DataType} (hcode : t.printfCode = .ok code) :
    outputCall argument depth t = .ok ("OutputHandler_process(out, " ++ code ++ ", " ++ argument ++ ");") := by
  cases t with
  | struct s => cases hcode
  | enumeration e => cases hcode
  | _ =>
    simp only [outputCall, hcode]
    rfl

theorem argument_mem_outputCall {argument depth call : String} {t : DataType} {c : Char}
    (h : outputCall argument depth t = .ok call) (hc : c ∈ argument.toList) : c ∈ call.toList := by
  unfold outputCall at h
  split at h
  all_goals
    obtain ⟨name, -, h⟩ := exists_of_bind_eq_ok h
    cases h
    simp [hc]

/-- A value that is no array is printed by a single statement. -/
theorem valueLines_eq_outputCall (htype : ∀ element length, f.type ≠ .array element length)
    (h : valueLines style f = .ok ls) :
    ∃ call, outputCall ("value." ++ f.name) " + 1" f.type = .ok call ∧ ls = [call] := by
  unfold valueLines at h
  split at h
  case h_1 s hs =>
    obtain ⟨c, hc, h⟩ := exists_of_bind_eq_ok h
    cases h
    exact ⟨_, hs ▸ outputCall_struct hc, by simp [← String.toList_inj]⟩
  case h_2 e he =>
    obtain ⟨c, hc, h⟩ := exists_of_bind_eq_ok h
    cases h
    exact ⟨_, he ▸ outputCall_enumeration hc, by simp [← String.toList_inj]⟩
  case h_3 element length harray => exact absurd harray (htype element length)
  case h_4 p hp =>
    obtain ⟨code, hcode, h⟩ := exists_of_bind_eq_ok h
    cases h
    exact ⟨_, hp ▸ outputCall_of_printfCode hcode, by simp [← String.toList_inj]⟩
  case h_5 hcustom =>
    obtain ⟨code, hcode, h⟩ := exists_of_bind_eq_ok h
    cases h
    exact ⟨_, hcustom ▸ outputCall_of_printfCode hcode, by simp [← String.toList_inj]⟩
  case h_6 => cases h

theorem prints_value (htype : ∀ element length, f.type ≠ .array element length) (h : fieldLines style f = .ok ls) :
    Prints style f ls := by
  obtain ⟨value, hvalue, h⟩ := exists_of_bind_eq_ok h
  obtain ⟨call, hcall, rfl⟩ := valueLines_eq_outputCall htype hvalue
  cases h
  exact .value htype hcall (by simp [labelled])

/-- The block of an array has a loop between its brackets. -/
theorem fieldLines_array {element : DataType} {length : String} (htype : f.type = .array element length)
    (h : fieldLines style f = .ok ls) :
    ∃ inner, elementLines f.name element = .ok inner ∧ ls = labelled f (arrayLines style length inner) := by
  obtain ⟨value, hvalue, h⟩ := exists_of_bind_eq_ok h
  unfold valueLines at hvalue
  rw [htype] at hvalue
  obtain ⟨inner, hinner, hvalue⟩ := exists_of_bind_eq_ok hvalue
  cases hvalue
  cases h
  exact ⟨inner, hinner, rfl⟩

theorem prints_structs {s : Struct} {length : String} (htype : f.type = .array (.struct s) length)
    (h : fieldLines style f = .ok ls) : Prints style f ls := by
  obtain ⟨inner, hinner, rfl⟩ := fieldLines_array htype h
  have hloop : labelled f (arrayLines style length inner) =
      [indentationLine " + 1", "OutputHandler_process(out, \"%s: \", \"" ++ f.name ++ "\");", processLine "[\\n"] ++
        (blockLines style ("for (size_t index = 0; index < " ++ length ++ "; ++index)") inner ++
          [indentationLine " + 1", processLine "]", processLine ",\\n"]) := by
    simp [labelled, arrayLines]
  obtain ⟨c, hc, hinner⟩ := exists_of_bind_eq_ok hinner
  cases hinner
  refine .elements htype hloop (outputCall_struct hc) ?_
  simp [← String.toList_inj]

/-! ### Elements that are left out -/

theorem indented_ne_append {l a b : String} {c : Char} (ha : a.toList.head? = some c) (hc : c ≠ ' ') :
    indented l ≠ a ++ b := by
  intro e
  have hhead := congrArg (fun s : String => s.toList.head?) e
  simp [indented, ha] at hhead
  exact hc hhead.symm

/-- Only the lines within the loop of an array are indented. -/
theorem mem_of_indented_mem {length l : String} {inner : List String}
    (h : indented l ∈ labelled f (arrayLines style length inner)) : l ∈ inner := by
  have hprocess : ∀ text, indented l ≠ processLine text := fun text => by
    unfold processLine
    rw [String.append_assoc]
    exact indented_ne_append (by simp) (by decide : 'O' ≠ ' ')
  have hindentation : ∀ depth, indented l ≠ indentationLine depth := fun depth => by
    unfold indentationLine
    rw [String.append_assoc]
    exact indented_ne_append (by simp) (by decide : 'O' ≠ ' ')
  have hlabel : indented l ≠ "OutputHandler_process(out, \"%s: \", \"" ++ f.name ++ "\");" := by
    rw [String.append_assoc]
    exact indented_ne_append (by simp) (by decide : 'O' ≠ ' ')
  have hopening : indented l ≠ "\x7b" := by simp [indented, ← String.toList_inj]
  have hclosing : indented l ≠ "\x7d" := by simp [indented, ← String.toList_inj]
  have hheading : indented l ∉ style.heading ("for (size_t index = 0; index < " ++ length ++ "; ++index)") := by
    have hfor : ∀ more, indented l ≠ "for (size_t index = 0; index < " ++ length ++ "; ++index)" ++ more := fun more => by
      rw [String.append_assoc, String.append_assoc]
      exact indented_ne_append (by simp) (by decide : 'f' ≠ ' ')
    unfold Style.heading
    split
    · have hend := hfor ""
      rw [String.append_empty] at hend
      simp [hend, hopening]
    · simpa using hfor " \x7b"
  have hinner : ∃ k ∈ inner, indented k = indented l := by
    simpa [labelled, arrayLines, blockLines, hprocess, hindentation, hlabel, hheading, hclosing] using h
  obtain ⟨k, hk, e⟩ := hinner
  rw [indented, indented, String.append_right_inj] at e
  exact e ▸ hk

/-- In a loop over anything but structs no statement has an element for its argument. -/
theorem not_prints_elements {element : DataType} {length : String} (htype : f.type = .array element length)
    (helement : ∀ s, element ≠ .struct s) (h : fieldLines style f = .ok ls) : ¬Prints style f ls := by
  obtain ⟨inner, hinner, rfl⟩ := fieldLines_array htype h
  have hinner : inner = [indentationLine " + 2", processLine ",\\n"] := by
    unfold elementLines at hinner
    split at hinner
    · exact absurd rfl (helement _)
    · cases hinner
      rfl
  rintro (⟨hvalue, -, -⟩ | ⟨-, hloop, hcall, hmem⟩)
  · exact hvalue element length htype
  · have hinside : ∀ {head k : String} {ks : List String}, k ∈ ks → indented k ∈ blockLines style head ks :=
      fun hk => List.mem_append_left _ (List.mem_append_right _ (List.mem_map_of_mem hk))
    have hmem := mem_of_indented_mem (hloop ▸ List.mem_append_right _ (List.mem_append_left _ (hinside hmem)))
    -- The argument of a call has a bracket, and neither of the two statements has one.
    have hbracket := argument_mem_outputCall hcall (c := '[') (by simp)
    rw [hinner, List.mem_pair] at hmem
    rcases hmem with rfl | rfl
    · exact absurd hbracket (by decide)
    · exact absurd hbracket (by decide)

end

/-! ### The fields of a struct -/

/-- The function of a struct has a block for each field, in the order of the fields. The block prints the value of its
field unless this is an array of other elements than structs. -/
theorem prints_fields_iff {style : Style} (hstyle : style = .knr ∨ style = .bsd) {s : Struct} {t t' : Sources}
    (hheader : t.header.Ready) (hcode : t.code.Ready) (h : struct style s t = .ok () t') :
    ∃ d : Definition, t'.header = t.header.addLines [d.declaration] ∧ t'.code = t.code.addLines (d.lines style) ∧
      d.fields = s.fields ∧ List.Forall₂ (fun f ls => Prints style f ls ↔
        ∀ element length, f.type = .array element length → ∃ e, element = .struct e) s.fields d.blocks := by
  have hdefines := defines_struct hstyle s
  cases hs : structDefinitions style s with
  | error fault =>
    rw [hs] at hdefines
    obtain ⟨t'', ht⟩ := hdefines t hheader hcode
    rw [ht] at h
    cases h
  | ok ds =>
    obtain ⟨c, blocks, -, hblocks, rfl⟩ := of_structDefinitions_eq_ok hs
    rw [hs] at hdefines
    rw [hdefines t hheader hcode] at h
    cases h
    refine ⟨_, rfl, by rw [List.flatMap_singleton], rfl, forall₂_of_mapM_of_forall hblocks fun f _ ls hls => ?_⟩
    constructor
    · intro hprints element length htype
      by_contra helement
      exact not_prints_elements htype (fun e he => helement ⟨e, he⟩) hls hprints
    · intro harrays
      by_cases htype : ∃ element length, f.type = .array element length
      · obtain ⟨element, length, htype⟩ := htype
        obtain ⟨e, rfl⟩ := harrays element length htype
        exact prints_structs htype hls
      · exact prints_value (fun element length e => htype ⟨element, length, e⟩) hls

def corner : Struct :=
  ⟨"Corner", [⟨"x", .primitive .double, none⟩], .bool true, .text "t"⟩

/-- A struct with a value of each kind and an array of structs. -/
def outline : Struct :=
  ⟨"Outline", [⟨"size", .primitive .int32, none⟩, ⟨"start", .struct corner, none⟩,
    ⟨"shape", .enumeration ⟨"Shape", ["OPEN", "CLOSED"], .int 0, .bool true, .text "e"⟩, none⟩,
    ⟨"corners", .array (.struct corner) "CORNERS", none⟩], .bool true, .text "t"⟩

theorem prints_outline :
    Writer.braced.Ready ∧ ∃ t', struct .knr outline ⟨Writer.braced, Writer.braced⟩ = .ok () t' ∧
      ∃ d : Definition, t'.code = Writer.braced.addLines (d.lines .knr) ∧ d.fields = outline.fields ∧
        List.Forall₂ (Prints .knr) outline.fields d.blocks := by
  obtain ⟨ds, hds⟩ : ∃ ds, structDefinitions .knr outline = .ok ds := ⟨_, rfl⟩
  have hdefines : Defines .knr (struct .knr outline) (.ok ds) := hds ▸ defines_struct (.inl rfl) outline
  have hstruct := hdefines ⟨Writer.braced, Writer.braced⟩ Writer.braced_ready Writer.braced_ready
  obtain ⟨d, -, hcode, hfields, hprints⟩ :=
    prints_fields_iff (.inl rfl) Writer.braced_ready Writer.braced_ready hstruct
  refine ⟨Writer.braced_ready, _, hstruct, d, hcode, hfields, ?_⟩
  obtain ⟨hlength, hprints⟩ := List.forall₂_iff_zip.mp hprints
  refine List.forall₂_iff_zip.mpr ⟨hlength, fun hmem => (hprints hmem).mpr ?_⟩
  have harrays : ∀ f ∈ outline.fields, ∀ element length, f.type = .array element length →
      ∃ e, element = .struct e := by
    simp [outline]
  exact harrays _ (List.of_mem_zip hmem).1

/-- An array of numbers. -/
def samples : Field :=
  ⟨"xs", .array (.primitive .int32) "MAX", none⟩

def samplesLines : List String :=
  ["OutputHandler_indent(out, indentation + 1);", "OutputHandler_process(out, \"%s: \", \"xs\");",
    "OutputHandler_process(out, \"[\\n\");", "for (size_t index = 0; index < MAX; ++index) \x7b",
    "    OutputHandler_indent(out, indentation + 2);", "    OutputHandler_process(out, \",\\n\");", "\x7d",
    "OutputHandler_indent(out, indentation + 1);", "OutputHandler_process(out, \"]\");",
    "OutputHandler_process(out, \",\\n\");"]

/-- Numbers can be printed, and the loop over an array of them prints none. -/
theorem samples_unprinted :
    (outcome (struct .knr ⟨"Series", [samples], .bool true, .text "t"⟩ *> Sourcing.result)
        ⟨Writer.braced, Writer.braced⟩).map Prod.snd =
      .ok (linesText (["void series_t_to_string(series_t value, struct OutputHandler *out, size_t indentation) \x7b"] ++
        (["OutputHandler_process(out, \"Series \x7b\\n\");"] ++ samplesLines ++
          ["OutputHandler_indent(out, indentation);", "OutputHandler_process(out, \"\x7d\");"]).map indented ++
        ["\x7d", ""])) ∧
      outputCall "value.xs[index]" " + 2" (.primitive .int32) =
        .ok "OutputHandler_process(out, \"%\" PRIi32, value.xs[index]);" ∧ ¬Prints .knr samples samplesLines := by
  have hlines : fieldLines .knr samples = .ok samplesLines := rfl
  refine ⟨by decide +kernel, rfl, not_prints_elements rfl ?_ hlines⟩
  simp

end CodeBridge.Emit.Printers
