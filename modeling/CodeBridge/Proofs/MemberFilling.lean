import CodeBridge.Proofs.HeaderLines
import CodeBridge.Proofs.StructFilling

/-! # Members that are filled

The header declares one member for each field of a struct and a second one for the length of each list. The
conversion to the struct fills the members of the fields. The length of a list is left as it is, unless another
field of the struct has its name. -/

namespace CodeBridge.Emit.Conversion

open Macro Text

/-! ### Declared members -/

/-- The header of a struct declares this member by this declaration. -/
inductive Declared (s : Struct) : String → String → Prop where
  | field {f : Field} {spelling : Spelling} (hf : f ∈ s.fields) (hs : f.type.spelling = .ok spelling) :
      Declared s f.name (spelling.declare f.name)
  | length {f : Field} (hf : f ∈ s.fields) (hl : Header.isList f.type = true) :
      Declared s (f.name ++ "_length") ("size_t " ++ f.name ++ "_length;")

theorem declaration_mem {s : Struct} {style : Style} {ls : List String} (h : Header.structLines style s = .ok ls)
    {member declaration : String} (hd : Declared s member declaration) :
    ∃ l ∈ ls, ∃ remark, l = indented (declaration ++ remark) := by
  obtain ⟨head, start, close, lines, -, -, -, hlines, rfl⟩ := Header.definitionLines_eq_ok h
  obtain ⟨blocks, hblocks, hlines⟩ := exists_of_bind_eq_ok hlines
  cases hlines
  have hline : ∃ remark, declaration ++ remark ∈ blocks.flatten := by
    cases hd with
    | field hf hs =>
      obtain ⟨block, hblock, hmember⟩ := exists_result_of_mem hblocks hf
      obtain ⟨spelling, remark, more, hspelling, rfl⟩ := Header.of_memberLines_eq_ok hmember
      cases hspelling.symm.trans hs
      exact ⟨remark, List.mem_flatten.mpr ⟨_, hblock, List.mem_cons_self⟩⟩
    | length hf hl =>
      obtain ⟨block, hblock, hmember⟩ := exists_result_of_mem hblocks hf
      obtain ⟨spelling, -, hrest⟩ := exists_of_bind_eq_ok hmember
      obtain ⟨first, -, hpure⟩ := exists_of_bind_eq_ok hrest
      rw [hl] at hpure
      cases hpure
      refine ⟨"", List.mem_flatten.mpr ⟨_, hblock, List.mem_append_right _ ?_⟩⟩
      simp
  obtain ⟨remark, hremark⟩ := hline
  exact ⟨_, List.mem_append_left _ (List.mem_append_right _ (List.mem_map.mpr ⟨_, hremark, rfl⟩)), remark, rfl⟩

/-! ### Assigned members -/

/-- A line assigns a member as a whole or at an index. An assignment is the last argument of its macro call, so
it stands before the parenthesis that ends a statement. -/
def Assigns (line member : String) : Prop :=
  ∃ before index value, (∀ c ∈ before.toList, c = ' ') ∧ (index = "" ∨ index = "[item_index]") ∧
    line = before ++ ("result." ++ member ++ index ++ " = " ++ value) ++ ");"

/-- Some line assigns the member. -/
def Filled (ls : List String) (member : String) : Prop :=
  ∃ l ∈ ls, Assigns l member

theorem assigns_actionLine (depth : Nat) (member value : String) {index : String}
    (hindex : index = "" ∨ index = "[item_index]") :
    Assigns (indented (actionLine (depth + 1) ("result." ++ member ++ index ++ " = " ++ value))) member := by
  refine ⟨"    " ++ gap (depth + 1), index, value ++ closers depth, ?_, hindex, ?_⟩
  · simp [gap]
  · rw [← String.toList_inj]
    simp [indented, actionLine, closers, List.replicate_succ']

theorem Assigns.ends {line member : String} (h : Assigns line member) : ∃ cs, line.toList = cs ++ [')', ';'] := by
  obtain ⟨before, index, value, -, -, rfl⟩ := h
  exact ⟨_, String.toList_append ..⟩

theorem not_assigns_of_ends {line member : String} {cs : List Char} {c d : Char} (hline : line.toList = cs ++ [c, d])
    (hne : c ≠ ')' ∨ d ≠ ';') : ¬Assigns line member := by
  intro h
  obtain ⟨cs', hends⟩ := h.ends
  have hpair := List.append_inj_right' (hline.symm.trans hends) rfl
  cases hpair
  simp at hne

theorem not_assigns_of_goesOn {line member : String} (h : GoesOn line) : ¬Assigns line member := by
  intro ha
  obtain ⟨cs, hends⟩ := ha.ends
  rcases h with h | h
  · rw [hends] at h
    simp at h
  · rw [hends] at h
    simp at h

/-- What is assigned in a conversion is assigned by the statement of a field. -/
theorem exists_field_of_assigns {s : Struct} {name : String} {statements : List (List String)}
    (hstatements : fillings s = .ok statements) {l member : String} (hl : l ∈ structToCLines s name statements)
    (ha : Assigns l member) : ∃ f ∈ s.fields, ∃ depth index value, (index = "" ∨ index = "[item_index]") ∧
      l = indented (actionLine (depth + 1) ("result." ++ f.name ++ index ++ " = " ++ value)) := by
  simp only [structToCLines, List.mem_append, List.mem_map, List.mem_cons, List.not_mem_nil, or_false] at hl
  rcases hl with (rfl | ⟨k, hk, rfl⟩) | hl
  · exact absurd ha (not_assigns_of_ends (String.toList_append ..) (.inr (by decide)))
  · rcases hk with rfl | hk | rfl
    · have hends : (indented (name ++ " result = \x7b0\x7d;")).toList =
          ("    " ++ name ++ " result = \x7b0").toList ++ ['\x7d', ';'] := by simp [indented]
      exact absurd ha (not_assigns_of_ends hends (.inl (by decide)))
    · obtain ⟨statement, hstatement, hk⟩ := List.mem_flatten.mp hk
      obtain ⟨f, hf, hlines⟩ := exists_source_of_mem hstatements hstatement
      obtain ⟨m, hm, hlines⟩ := exists_of_bind_eq_ok hlines
      obtain ⟨depth, index, value, hperforms, hindex⟩ := performs_assignment hm
      obtain ⟨init, rfl, hinit⟩ := hperforms.statementLines hlines
      -- Only the last line of a statement can assign: behind the others the call goes on.
      rcases List.mem_append.mp hk with hk | hk
      · exact absurd ha (not_assigns_of_goesOn (hinit k hk).indented)
      · exact ⟨f, hf, depth, index, value, hindex, by rw [List.mem_singleton.mp hk]⟩
    · have hends : (indented "return result;").toList = "    return resul".toList ++ ['t', ';'] := rfl
      exact absurd ha (not_assigns_of_ends hends (.inl (by decide)))
  · obtain ⟨cs, hends⟩ := ha.ends
    have hlength := congrArg List.length hends
    rcases hl with rfl | rfl
    · simp at hlength
    · simp at hlength

theorem filled_of_mem {s : Struct} {name : String} {statements : List (List String)}
    (hstatements : fillings s = .ok statements) {f : Field} (hf : f ∈ s.fields) :
    Filled (structToCLines s name statements) f.name := by
  obtain ⟨statement, hstatement, hlines⟩ := exists_result_of_mem hstatements hf
  obtain ⟨m, hm, hlines⟩ := exists_of_bind_eq_ok hlines
  obtain ⟨depth, index, value, hperforms, hindex⟩ := performs_assignment hm
  obtain ⟨init, rfl, -⟩ := hperforms.statementLines hlines
  refine ⟨_, ?_, assigns_actionLine depth f.name value hindex⟩
  have hline : actionLine (depth + 1) ("result." ++ f.name ++ index ++ " = " ++ value) ∈ statements.flatten :=
    List.mem_flatten.mpr ⟨_, hstatement, by simp⟩
  simp only [structToCLines, List.mem_append, List.mem_map, List.mem_cons, List.not_mem_nil, or_false]
  exact .inl (.inr ⟨_, .inr (.inl hline), rfl⟩)

theorem name_eq_of_append {a b : String} (ha : IsName a) (hb : IsName b) {x y : List Char}
    (hx : ∀ c ∈ x.head?, isName c = false) (hy : ∀ c ∈ y.head?, isName c = false)
    (h : a.toList ++ x = b.toList ++ y) : a = b := by
  rw [← String.toList_inj, ← takeWhile_append_of_head ha.2 hx, h, takeWhile_append_of_head hb.2 hy]

/-- A member that is a word is assigned only under its own name. -/
theorem name_eq_of_assigns {name member : String} (hname : IsName name) (hmember : IsName member) {depth : Nat}
    {index value : String} (hindex : index = "" ∨ index = "[item_index]")
    (h : Assigns (indented (actionLine (depth + 1) ("result." ++ name ++ index ++ " = " ++ value))) member) :
    name = member := by
  obtain ⟨before, index', value', hbefore, hindex', e⟩ := h
  have hblank : ∀ c ∈ ("    " ++ gap (depth + 1)).toList, c = ' ' := by simp [gap]
  have hlines := congrArg String.toList e
  have hsplit : (indented (actionLine (depth + 1) ("result." ++ name ++ index ++ " = " ++ value))).toList =
      ("    " ++ gap (depth + 1)).toList ++ ("result.".toList ++ (name.toList ++ (index.toList ++ (" = ".toList ++
        (value.toList ++ (closers (depth + 1) ++ ";").toList))))) := by simp [indented, actionLine]
  have hsplit' : (before ++ ("result." ++ member ++ index' ++ " = " ++ value') ++ ");").toList =
      before.toList ++ ("result.".toList ++ (member.toList ++ (index'.toList ++ (" = ".toList ++
        (value'.toList ++ ");".toList))))) := by simp
  rw [hsplit, hsplit'] at hlines
  -- Behind its blanks the line holds `result.`, a name and then something that is part of no name.
  have hrest := eq_of_blanks_append hblank hbefore ⟨'r', rfl, by decide⟩ ⟨'r', rfl, by decide⟩ hlines
  have hend : ∀ {i : String} (cs : List Char), i = "" ∨ i = "[item_index]" →
      ∀ c ∈ (i.toList ++ (" = ".toList ++ cs)).head?, isName c = false := by
    rintro i cs (rfl | rfl) c hc
    · cases hc
      decide
    · cases hc
      decide
  exact name_eq_of_append hname hmember (hend _ hindex) (hend _ hindex') (List.append_cancel_left hrest)

/-! ### Declared and assigned members -/

/-- A conversion fills the member of every field. It fills every member that the header declares exactly when the
length of each list has a field of its own. -/
theorem members_filled_iff {s : Struct} {style : Style} {w w' : Writer} {t t' : Sources} (hw : w.Ready)
    (ht : t.code.Ready) (hheader : Header.struct style s w = .ok () w') (hcode : structToC s t = .ok () t') :
    ∃ header code, w' = w.addLines header ∧ t'.code = t.code.addLines code ∧
      (∀ member declaration, Declared s member declaration →
        ∃ l ∈ header, ∃ remark, l = indented (declaration ++ remark)) ∧
      (∀ f ∈ s.fields, Filled code f.name) ∧
      ((∀ f ∈ s.fields, IsName f.name) →
        ((∀ member declaration, Declared s member declaration → Filled code member) ↔
          ∀ f ∈ s.fields, Header.isList f.type = true → ∃ g ∈ s.fields, g.name = f.name ++ "_length")) := by
  obtain ⟨header, hlines, hw'⟩ := (Header.yields_struct style s).of_ok hw hheader
  obtain ⟨name, statements, hstatements, ht'⟩ := code_of_structToC ht hcode
  have hfilled : ∀ f ∈ s.fields, Filled (structToCLines s name statements) f.name :=
    fun f hf => filled_of_mem hstatements hf
  refine ⟨header, structToCLines s name statements, hw', ht', fun _ _ hd => declaration_mem hlines hd, hfilled, ?_⟩
  intro hnames
  constructor
  · intro hall f hf hlist
    obtain ⟨l, hl, ha⟩ := hall _ _ (.length hf hlist)
    obtain ⟨g, hg, depth, index, value, hindex, rfl⟩ := exists_field_of_assigns hstatements hl ha
    exact ⟨g, hg, name_eq_of_assigns (hnames g hg) ((hnames f hf).append (by decide)) hindex ha⟩
  · intro hlengths member declaration hd
    cases hd with
    | field hf _ => exact hfilled _ hf
    | length hf hlist =>
      obtain ⟨g, hg, hname⟩ := hlengths _ hf hlist
      exact hname ▸ hfilled g hg

/-- A struct without lists. -/
def sample : Struct :=
  ⟨"Sample", [⟨"level", .primitive .uint8, none⟩, ⟨"values", .array (.primitive .double) "COUNT", none⟩], .bool false,
    .text "t"⟩

theorem members_filled_sample :
    Writer.braced.Ready ∧ ∃ w t code, Header.struct .bsd sample Writer.braced = .ok () w ∧
      structToC sample ⟨Writer.braced, Writer.braced⟩ = .ok () t ∧ t.code = Writer.braced.addLines code ∧
      (∀ f ∈ sample.fields, IsName f.name) ∧
      ∀ member declaration, Declared sample member declaration → Filled code member := by
  have hname : sample.cName = .ok "struct sample" := rfl
  have hcode := structToC_eq hname rfl (t := ⟨Writer.braced, Writer.braced⟩) Writer.braced_ready
  have hlines : Header.structLines .bsd sample = .ok _ := rfl
  have hyields := Header.yields_struct .bsd sample
  rw [hlines] at hyields
  have hnames : ∀ f ∈ sample.fields, IsName f.name := by
    simp only [sample, List.forall_mem_cons, List.not_mem_nil, false_imp_iff, implies_true, and_true]
    decide
  obtain ⟨header, code, -, ht, -, -, hiff⟩ := members_filled_iff Writer.braced_ready Writer.braced_ready
    (hyields _ Writer.braced_ready) hcode
  refine ⟨Writer.braced_ready, _, _, code, hyields _ Writer.braced_ready, hcode, ht, hnames, (hiff hnames).mpr ?_⟩
  simp [sample, Header.isList]

/-- A struct with a list. -/
def series : Struct :=
  ⟨"Series", [⟨"xs", .list (.primitive .int32) (.named "MAX"), none⟩], .bool false, .text "t"⟩

/-- The lines of its conversion. -/
def seriesLines : List String :=
  ["struct series Series_to_c(PyObject *python_struct) \x7b",
    "    struct series result = \x7b0\x7d;",
    "    with_attribute(", "        python_struct,", "        \"xs\",", "        python_value,",
    "        with_list_elements(", "            python_value,", "            int32_t,", "            MAX,",
    "            result.xs[item_index] = (int32_t) item_value));",
    "    return result;", "\x7d", ""]

/-- The length of a list is declared, and no line of the conversion assigns it. -/
theorem length_unfilled_series :
    headerText .knr ⟨"series", [], [series], []⟩ =
        .ok "struct series \x7b\n    int32_t xs[MAX];\n    size_t xs_length;\n\x7d;\n\n" ∧
      (outcome (structToC series *> Sourcing.result) ⟨Writer.braced, Writer.braced⟩).map Prod.snd =
        .ok (linesText seriesLines) ∧ ¬Filled seriesLines "xs_length" := by
  refine ⟨by decide +kernel, by decide +kernel, ?_⟩
  rintro ⟨l, hl, ha⟩
  obtain ⟨statements, hstatements, hlines⟩ : ∃ statements, fillings series = .ok statements ∧
      structToCLines series "struct series" statements = seriesLines := ⟨_, rfl, rfl⟩
  rw [← hlines] at hl
  obtain ⟨f, hf, depth, index, value, hindex, rfl⟩ := exists_field_of_assigns hstatements hl ha
  rw [List.mem_singleton.mp hf] at ha
  exact absurd (name_eq_of_assigns (by decide) (by decide) hindex ha) (by decide)

end CodeBridge.Emit.Conversion
