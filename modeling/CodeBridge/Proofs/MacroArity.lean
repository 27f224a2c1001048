import CodeBridge.Proofs.FinishedTexts

/-! # Arguments of support macros

A macro of C takes one number of arguments, wherever it is called. All support macros are called so in the conversions of
a module but one: the macro that makes a list of an array gets the length of an array, but none for a list. So its calls
agree as long as no module has a list in one field and an array in another. -/

namespace CodeBridge

open Text

/-! ### Calls in each other -/

namespace Macro

mutual

/-- The calls of a statement, its own and those among its arguments: the name of the macro and the number of arguments. -/
def uses : Macro → List (String × Nat)
  | .value _ => []
  | .call name arguments => (name, arguments.length) :: usesAll arguments

def usesAll : List Macro → List (String × Nat)
  | [] => []
  | m :: ms => m.uses ++ usesAll ms

end

theorem mem_usesAll {ms : List Macro} {u : String × Nat} : u ∈ usesAll ms ↔ ∃ m ∈ ms, u ∈ m.uses := by
  induction ms with
  | nil => simp [usesAll]
  | cons m ms ih => simp [usesAll, ih]

end Macro

/-- Some field of the module is a list. -/
def Module.HasList (m : Module) : Prop :=
  ∃ s ∈ m.structs, ∃ f ∈ s.fields, ∃ element bound, f.type = .list element bound

/-- Some field of the module is an array. -/
def Module.HasArray (m : Module) : Prop :=
  ∃ s ∈ m.structs, ∃ f ∈ s.fields, ∃ element length, f.type = .array element length

namespace Emit

/-! ### Statements in code -/

/-- A line like those that the names of macros stand on. -/
def OpensCall (l : String) : Prop :=
  l.toList.getLast? = some '('

instance : DecidablePred OpensCall := fun l =>
  inferInstanceAs (Decidable (l.toList.getLast? = some '('))

theorem not_opensCall_append (a : String) {b : String} (hb : b ≠ "" ∧ ¬OpensCall b) : ¬OpensCall (a ++ b) := by
  obtain ⟨hne, hb⟩ := hb
  have hlast : (a ++ b).toList.getLast? = b.toList.getLast? := by
    rw [String.toList_append, List.getLast?_append_of_ne_nil _ (mt String.toList_eq_nil_iff.mp hne)]
  rwa [OpensCall, hlast]

/-- Lines of code with these calls in them, one after the other, as statements. No other line opens a call. -/
inductive Embeds : (ls : List String) → (ms : List Macro) → Prop where
  | nil : Embeds [] []
  | line {l : String} (h : ¬OpensCall l) {ls : List String} {ms : List Macro} (rest : Embeds ls ms) :
      Embeds (l :: ls) ms
  | statement {m : Macro} {block : List String} (h : m.statementLines = .ok block) {blanks : String}
      (hblanks : ∀ c ∈ blanks.toList, isBlank c = true) {ls : List String} {ms : List Macro} (rest : Embeds ls ms) :
      Embeds (block.map (blanks ++ ·) ++ ls) (m :: ms)

namespace Embeds

variable {ls ls' : List String} {ms ms' : List Macro}

theorem of_plain (h : ∀ l ∈ ls, ¬OpensCall l) : Embeds ls [] := by
  induction ls with
  | nil => exact .nil
  | cons l ls ih =>
    obtain ⟨hl, hls⟩ := List.forall_mem_cons.mp h
    exact .line hl (ih hls)

theorem append (h : Embeds ls ms) (h' : Embeds ls' ms') : Embeds (ls ++ ls') (ms ++ ms') := by
  induction h with
  | nil => exact h'
  | line hl _ ih => exact .line hl ih
  | statement hm hblanks _ ih =>
    rw [List.append_assoc]
    exact .statement hm hblanks ih

/-- A statement by itself. -/
theorem of_statement {m : Macro} {block : List String} (h : m.statementLines = .ok block) : Embeds block [m] := by
  have hall : Embeds (block.map ("" ++ ·) ++ []) [m] := .statement h (by simp) .nil
  simpa using hall

theorem indented (h : Embeds ls ms) : Embeds (ls.map indented) ms := by
  induction h with
  | nil => exact .nil
  | @line l hl _ _ _ ih =>
    refine .line ?_ ih
    by_cases hempty : l = ""
    · subst hempty
      decide
    · exact not_opensCall_append "    " ⟨hempty, hl⟩
  | @statement m block hm blanks hblanks _ _ _ ih =>
    have hdeeper : ∀ c ∈ ("    " ++ blanks).toList, isBlank c = true := by
      rw [String.toList_append]
      exact List.forall_mem_append.mpr ⟨by decide, hblanks⟩
    have hall := Embeds.statement hm hdeeper ih
    have hlines : (block.map (blanks ++ ·)).map CodeBridge.indented = block.map ("    " ++ blanks ++ ·) := by
      simp [CodeBridge.indented, String.append_assoc]
    rwa [List.map_append, hlines]

/-- Statements in turn, one for each field. -/
theorem of_fields {statement : Field → Except Fault Macro} {fields : List Field} {lss : List (List String)}
    (h : fields.mapM (fun f => do (← statement f).statementLines) = .ok lss) :
    ∃ ms, fields.mapM statement = .ok ms ∧ Embeds lss.flatten ms := by
  induction fields generalizing lss with
  | nil =>
    cases h
    exact ⟨[], rfl, .nil⟩
  | cons f fields ih =>
    rw [List.mapM_cons] at h
    obtain ⟨block, hblock, h⟩ := exists_of_bind_eq_ok h
    obtain ⟨rest, hrest, h⟩ := exists_of_bind_eq_ok h
    cases h
    obtain ⟨m, hm, hblock⟩ := exists_of_bind_eq_ok hblock
    obtain ⟨ms, hms, hembeds⟩ := ih hrest
    exact ⟨m :: ms, mapM_cons_eq_ok hm hms, (of_statement hblock).append hembeds⟩

end Embeds

namespace Conversion

open Sourcing

/-! ### The statements of conversions -/

/-- The statement that reads the ordinal of an enumeration. -/
def ordinalStatement : Macro :=
  Access.int64Attribute (.text "python_enum") "value" (.text "ordinal = (int) value")

/-- The statements of a struct: those that fill its fields, and those that set the attributes of an object. -/
def structStatements (s : Struct) : Except Fault (List Macro) := do
  return (← s.fields.mapM (assignment s.name)) ++ (← s.fields.mapM (attributeSetting s.name))

/-- The statements of a module in the order in which they are written. -/
def statements (m : Module) : Except Fault (List Macro) := do
  return m.enumerations.map (fun _ => ordinalStatement) ++ (← m.structs.mapM structStatements).flatten

theorem embeds_enumerationToCLines (e : Enumeration) : Embeds (enumerationToCLines e) [ordinalStatement] := by
  have hstatement : ordinalStatement.statementLines =
      .ok ["with_attribute(", "    python_enum,", "    \"value\",", "    python_value,", "    with_pylong_as_int64(",
        "        python_value,", "        value,", "        ordinal = (int) value));"] := rfl
  have hcases : ∀ l ∈ e.values.flatMap fun v => ["    case " ++ v ++ ":", "        return " ++ v ++ ";"], ¬OpensCall l := by
    intro l hl
    obtain ⟨v, -, hl⟩ := List.mem_flatMap.mp hl
    rcases List.mem_pair.mp hl with rfl | rfl <;> exact not_opensCall_append _ (by decide)
  have hrest : ∀ l ∈ ["    default:",
      "        fail_with_message(\"Illegal ordinal value for enum " ++ e.name ++ " [%d]\", ordinal);", "\x7d"],
      ¬OpensCall l := by
    simp +decide [not_opensCall_append]
  have hswitch : Embeds ["switch (ordinal) \x7b"] [] := .of_plain (by decide)
  have hstart : Embeds ("int ordinal;" :: _) _ := .line (by decide) ((Embeds.of_statement hstatement).append hswitch)
  exact hstart.append ((Embeds.of_plain hcases).append (.of_plain hrest))

theorem not_opensCall_loadLines (holder path name : String) : ∀ l ∈ loadLines holder path name, ¬OpensCall l := by
  simp +decide [loadLines, not_opensCall_append]

theorem embeds_enumerationToPythonLines (path : String) (e : Enumeration) : Embeds (enumerationToPythonLines path e) [] := by
  refine .of_plain ?_
  simpa +decide [enumerationToPythonLines, or_imp, forall_and, not_opensCall_append]
    using not_opensCall_loadLines "enum_class" path e.name

theorem not_opensCall_structToPythonStart (path : String) (s : Struct) : ∀ l ∈ structToPythonStart path s, ¬OpensCall l := by
  simpa +decide [structToPythonStart, or_imp, forall_and, not_opensCall_append]
    using not_opensCall_loadLines "struct_class" path s.name

/-- The lines of a function around those of its body. -/
theorem embeds_definition {d : Definition} {ms : List Macro} (h : Embeds d.body ms) : Embeds (d.lines .knr) ms := by
  have hhead : ∀ l ∈ Style.knr.heading d.function.signature, ¬OpensCall l := by
    simp +decide [Style.heading, not_opensCall_append]
  have hclose : Embeds ["\x7d", ""] [] := .of_plain (by decide)
  have hall := ((Embeds.of_plain hhead).append h.indented).append hclose
  rwa [List.nil_append, List.append_nil] at hall

/-- The two functions of an item. -/
theorem embeds_pair {d d' : Definition} {ms ms' both : List Macro} (h : Embeds d.body ms) (h' : Embeds d'.body ms')
    (hboth : ms ++ ms' = both) : Embeds ([d, d'].flatMap (Definition.lines .knr)) both := by
  have hall := (embeds_definition h).append ((embeds_definition h').append .nil)
  rw [List.append_nil ms', hboth] at hall
  exact hall

theorem embeds_enumerationDefinitions {path : String} {e : Enumeration} {ds : List Definition}
    (h : enumerationDefinitions path e = .ok ds) : Embeds (ds.flatMap (Definition.lines .knr)) [ordinalStatement] := by
  obtain ⟨c, -, h⟩ := exists_of_bind_eq_ok h
  cases h
  have htoC : Embeds (enumerationToCLines e ++ []) [ordinalStatement] := (embeds_enumerationToCLines e).append .nil
  have htoPython : Embeds (enumerationToPythonLines path e ++ []) [] := (embeds_enumerationToPythonLines path e).append .nil
  exact embeds_pair htoC htoPython rfl

theorem embeds_structDefinitions {path : String} {s : Struct} {ds : List Definition} (h : structDefinitions path s = .ok ds) :
    ∃ ms, structStatements s = .ok ms ∧ Embeds (ds.flatMap (Definition.lines .knr)) ms := by
  obtain ⟨c, fs, ss, -, hfs, hss, rfl⟩ := of_structDefinitions_eq_ok h
  obtain ⟨assigned, hassigned, hfill⟩ := Embeds.of_fields hfs
  obtain ⟨set, hset, hsettings⟩ := Embeds.of_fields hss
  have hresult : Embeds [c ++ " result = \x7b0\x7d;"] [] := .of_plain (by simp +decide [not_opensCall_append])
  have hreturn : Embeds ["return result;"] [] := .of_plain (by decide)
  have hstart := Embeds.of_plain (not_opensCall_structToPythonStart path s)
  have htoC := hresult.append (hfill.append hreturn)
  have htoPython := hstart.append (hsettings.append hreturn)
  rw [List.nil_append, List.append_nil] at htoC htoPython
  refine ⟨assigned ++ set, ?_, embeds_pair htoC htoPython rfl⟩
  rw [structStatements, hassigned, hset]
  rfl

theorem embeds_enumerations {path : String} {es : List Enumeration} {dss : List (List Definition)}
    (h : es.mapM (enumerationDefinitions path) = .ok dss) :
    Embeds (dss.flatten.flatMap (Definition.lines .knr)) (es.map fun _ => ordinalStatement) := by
  have hall := forall₂_of_mapM_eq_ok h
  clear h
  induction hall with
  | nil => exact .nil
  | cons he _ ih =>
    rw [List.flatten_cons, List.flatMap_append]
    exact (embeds_enumerationDefinitions he).append ih

theorem embeds_structs {path : String} {ss : List Struct} {dss : List (List Definition)}
    (h : ss.mapM (structDefinitions path) = .ok dss) :
    ∃ mss, ss.mapM structStatements = .ok mss ∧ Embeds (dss.flatten.flatMap (Definition.lines .knr)) mss.flatten := by
  have hall := forall₂_of_mapM_eq_ok h
  clear h
  induction hall with
  | nil => exact ⟨[], rfl, .nil⟩
  | cons hs _ ih =>
    obtain ⟨ms, hms, hfirst⟩ := embeds_structDefinitions hs
    obtain ⟨mss, hmss, hrest⟩ := ih
    refine ⟨ms :: mss, mapM_cons_eq_ok hms hmss, ?_⟩
    rw [List.flatten_cons, List.flatMap_append]
    exact hfirst.append hrest

/-- The code of a module has the statements of the module in it. -/
theorem embeds_definitions {package : String} {m : Module} {ds : List Definition} (h : definitions package m = .ok ds) :
    ∃ ms, statements m = .ok ms ∧ Embeds (ds.flatMap (Definition.lines .knr)) ms := by
  obtain ⟨es, hes, h⟩ := exists_of_bind_eq_ok h
  obtain ⟨ss, hss, h⟩ := exists_of_bind_eq_ok h
  cases h
  obtain ⟨mss, hmss, hstructs⟩ := embeds_structs hss
  refine ⟨_, by rw [statements, hmss]; rfl, ?_⟩
  rw [List.flatMap_append]
  exact (embeds_enumerations hes).append hstructs

/-! ### Numbers of arguments -/

/-- The support macros that have one number of arguments. -/
def arities : List (String × Nat) :=
  [("with_attribute", 4), ("with_pylong_as_int64", 3), ("with_pyfloat_as_double", 3), ("with_list_elements", 4),
    ("with_array_elements", 4), ("set_python_attribute", 3), ("with_pybool", 3), ("with_double_as_pyfloat", 3),
    ("with_string_as_pystring", 3), ("with_int64_as_pylong", 3)]

/-- The macro that makes a list of an array, with this number of arguments. -/
def pylist (arguments : Nat) : String × Nat :=
  ("with_array_as_pylist", arguments)

section
variable {struct : String} {f : Field} {m : Macro}

theorem uses_elements {name action : String} {type : DataType} {loop : String} {size : Except Fault Value}
    (hloop : (loop, 4) ∈ arities)
    (h : (do
      let elements : Macro ← (do
        let element ← type.element
        let spelling ← element.spelling
        let size ← size
        return .call loop [.text "python_value", .value spelling.value, .value size, .text action])
      return Access.withAttribute (.text "python_struct") name elements) = Except.ok m) : ∀ u ∈ m.uses, u ∈ arities := by
  obtain ⟨elements, helements, h⟩ := exists_of_bind_eq_ok h
  obtain ⟨element, -, helements⟩ := exists_of_bind_eq_ok helements
  obtain ⟨spelling, -, helements⟩ := exists_of_bind_eq_ok helements
  obtain ⟨v, -, helements⟩ := exists_of_bind_eq_ok helements
  cases helements
  cases h
  simp +decide [Access.withAttribute, Macro.text, Macro.uses, Macro.usesAll, hloop]

theorem uses_assignment (h : assignment struct f = .ok m) : ∀ u ∈ m.uses, u ∈ arities := by
  unfold assignment at h
  split at h
  case h_5 =>
    obtain ⟨action, -, h⟩ := exists_of_bind_eq_ok h
    exact uses_elements (by decide) h
  case h_6 =>
    obtain ⟨action, -, h⟩ := exists_of_bind_eq_ok h
    exact uses_elements (by decide) h
  case h_7 =>
    split at h
    · obtain ⟨value, -, h⟩ := exists_of_bind_eq_ok h
      cases h
      simp +decide [Access.int64Attribute, Access.int64, Access.withAttribute, Macro.text, Macro.uses, Macro.usesAll]
    · obtain ⟨name, -, h⟩ := exists_of_bind_eq_ok h
      cases h
  all_goals
    cases h
    simp +decide [Access.floatAttribute, Access.float, Access.withAttribute, Macro.text, Macro.uses, Macro.usesAll]

/-- The calls that set an attribute: the list that is made of a list takes three arguments, that of an array four. -/
theorem uses_attributeSetting (h : attributeSetting struct f = .ok m) :
    (∃ element bound, f.type = .list element bound ∧ pylist 3 ∈ m.uses ∧ ∀ u ∈ m.uses, u ∈ arities ∨ u = pylist 3) ∨
    (∃ element length, f.type = .array element length ∧ pylist 4 ∈ m.uses ∧ ∀ u ∈ m.uses, u ∈ arities ∨ u = pylist 4) ∨
    ((∀ element bound, f.type ≠ .list element bound) ∧ (∀ element length, f.type ≠ .array element length) ∧
      ∀ u ∈ m.uses, u ∈ arities) := by
  unfold attributeSetting at h
  split at h
  case h_7 element bound htype =>
    obtain ⟨label, -, h⟩ := exists_of_bind_eq_ok h
    cases h
    refine .inl ⟨element, bound, htype, ?_, ?_⟩ <;>
      simp +decide [Access.setAttribute, Macro.text, Macro.uses, Macro.usesAll, pylist]
  case h_8 element length htype =>
    obtain ⟨label, -, h⟩ := exists_of_bind_eq_ok h
    cases h
    refine .inr (.inl ⟨element, length, htype, ?_, ?_⟩) <;>
      simp +decide [Access.setAttribute, Macro.text, Macro.uses, Macro.usesAll, pylist]
  case h_9 hlist harray =>
    split at h
    · cases h
      refine .inr (.inr ⟨hlist, harray, ?_⟩)
      simp +decide [Access.setAttribute, Macro.text, Macro.uses, Macro.usesAll]
    · obtain ⟨name, -, h⟩ := exists_of_bind_eq_ok h
      cases h
  all_goals
    next htype =>
    cases h
    refine .inr (.inr ⟨by simp [htype], by simp [htype], ?_⟩)
    simp +decide [Access.setAttribute, Macro.text, Macro.uses, Macro.usesAll]

end

section
variable {m : Module} {ms : List Macro}

theorem cases_of_mem_statements (h : statements m = .ok ms) {x : Macro} (hx : x ∈ ms) :
    x = ordinalStatement ∨
      ∃ s ∈ m.structs, ∃ f ∈ s.fields, assignment s.name f = .ok x ∨ attributeSetting s.name f = .ok x := by
  obtain ⟨mss, hmss, h⟩ := exists_of_bind_eq_ok h
  cases h
  rcases List.mem_append.mp hx with hx | hx
  · obtain ⟨e, -, rfl⟩ := List.mem_map.mp hx
    exact .inl rfl
  · obtain ⟨s, hs, both, hboth, hx⟩ := (mem_flatten_of_mapM_eq_ok hmss).mp hx
    obtain ⟨assigned, hassigned, hboth⟩ := exists_of_bind_eq_ok hboth
    obtain ⟨set, hset, hboth⟩ := exists_of_bind_eq_ok hboth
    cases hboth
    rcases List.mem_append.mp hx with hx | hx
    · obtain ⟨f, hf, hx⟩ := exists_source_of_mem hassigned hx
      exact .inr ⟨s, hs, f, hf, .inl hx⟩
    · obtain ⟨f, hf, hx⟩ := exists_source_of_mem hset hx
      exact .inr ⟨s, hs, f, hf, .inr hx⟩

theorem exists_attributeSetting (h : statements m = .ok ms) {s : Struct} (hs : s ∈ m.structs) {f : Field}
    (hf : f ∈ s.fields) : ∃ x ∈ ms, attributeSetting s.name f = .ok x := by
  obtain ⟨mss, hmss, h⟩ := exists_of_bind_eq_ok h
  cases h
  obtain ⟨both, hmem, hboth⟩ := exists_result_of_mem hmss hs
  obtain ⟨assigned, -, hboth⟩ := exists_of_bind_eq_ok hboth
  obtain ⟨set, hset, hboth⟩ := exists_of_bind_eq_ok hboth
  cases hboth
  obtain ⟨x, hx, hsetting⟩ := exists_result_of_mem hset hf
  have hx : x ∈ mss.flatten := List.mem_flatten.mpr ⟨_, hmem, List.mem_append_right _ hx⟩
  exact ⟨x, List.mem_append_right _ hx, hsetting⟩

theorem cases_of_mem_uses (h : statements m = .ok ms) {u : String × Nat} (hu : u ∈ Macro.usesAll ms) :
    u ∈ arities ∨ u = pylist 3 ∧ m.HasList ∨ u = pylist 4 ∧ m.HasArray := by
  obtain ⟨x, hx, hu⟩ := Macro.mem_usesAll.mp hu
  rcases cases_of_mem_statements h hx with rfl | ⟨s, hs, f, hf, hassigned | hset⟩
  · have all : ∀ u ∈ ordinalStatement.uses, u ∈ arities := by decide
    exact .inl (all u hu)
  · exact .inl (uses_assignment hassigned u hu)
  · rcases uses_attributeSetting hset with ⟨element, bound, htype, -, hall⟩ | ⟨element, length, htype, -, hall⟩ | ⟨-, -, hall⟩
    · exact (hall u hu).imp_right fun e => .inl ⟨e, s, hs, f, hf, element, bound, htype⟩
    · exact (hall u hu).imp_right fun e => .inr ⟨e, s, hs, f, hf, element, length, htype⟩
    · exact .inl (hall u hu)

theorem pylist_mem_of_hasList (h : statements m = .ok ms) (hm : m.HasList) : pylist 3 ∈ Macro.usesAll ms := by
  obtain ⟨s, hs, f, hf, element, bound, htype⟩ := hm
  obtain ⟨x, hx, hset⟩ := exists_attributeSetting h hs hf
  rcases uses_attributeSetting hset with ⟨_, _, -, hmem, -⟩ | ⟨_, _, harray, -, -⟩ | ⟨hlist, -, -⟩
  · exact Macro.mem_usesAll.mpr ⟨x, hx, hmem⟩
  · cases htype.symm.trans harray
  · exact absurd htype (hlist element bound)

theorem pylist_mem_of_hasArray (h : statements m = .ok ms) (hm : m.HasArray) : pylist 4 ∈ Macro.usesAll ms := by
  obtain ⟨s, hs, f, hf, element, length, htype⟩ := hm
  obtain ⟨x, hx, hset⟩ := exists_attributeSetting h hs hf
  rcases uses_attributeSetting hset with ⟨_, _, hlist, -, -⟩ | ⟨_, _, -, hmem, -⟩ | ⟨-, harray, -⟩
  · cases htype.symm.trans hlist
  · exact Macro.mem_usesAll.mpr ⟨x, hx, hmem⟩
  · exact absurd htype (harray element length)

/-- Two calls of one macro with different numbers of arguments are found exactly if lists and arrays are. -/
theorem uses_agree_iff (h : statements m = .ok ms) :
    (∀ u ∈ Macro.usesAll ms, ∀ v ∈ Macro.usesAll ms, u.1 = v.1 → u.2 = v.2) ↔ ¬(m.HasList ∧ m.HasArray) := by
  have hone : ∀ u ∈ arities, ∀ v ∈ arities, u.1 = v.1 → u.2 = v.2 := by decide
  have hother : ∀ u ∈ arities, u.1 ≠ "with_array_as_pylist" := by decide
  constructor
  · rintro hagree ⟨hlist, harray⟩
    exact absurd (hagree _ (pylist_mem_of_hasList h hlist) _ (pylist_mem_of_hasArray h harray) rfl) (by decide)
  · intro hnot u hu v hv hname
    -- No macro of the table makes lists, and two calls of the one that does differ only between a list and an array.
    rcases cases_of_mem_uses h hu with hu | ⟨rfl, hlist⟩ | ⟨rfl, harray⟩ <;>
      rcases cases_of_mem_uses h hv with hv | ⟨rfl, hlist'⟩ | ⟨rfl, harray'⟩
    · exact hone u hu v hv hname
    · exact absurd hname (hother u hu)
    · exact absurd hname (hother u hu)
    · exact absurd hname.symm (hother v hv)
    · rfl
    · exact absurd ⟨hlist, harray'⟩ hnot
    · exact absurd hname.symm (hother v hv)
    · exact absurd ⟨hlist', harray⟩ hnot
    · rfl

end

/-- The code of the conversions has the statements of the module in it. Every macro that they call takes the number of
arguments in the table, but for the one that makes a list of an array: it takes three arguments for a list and four for an
array. So all calls of one macro agree exactly if the module has not both. -/
theorem support_arities_agree_iff {package header code : String} {m : Module}
    (h : conversionTexts package m = .ok (header, code)) :
    ∃ ms ls, statements m = .ok ms ∧ code = linesText ls ∧ Embeds ls ms ∧
      (∀ u ∈ Macro.usesAll ms, u ∈ arities ∨ u = pylist 3 ∧ m.HasList ∨ u = pylist 4 ∧ m.HasArray) ∧
      (m.HasList → pylist 3 ∈ Macro.usesAll ms) ∧ (m.HasArray → pylist 4 ∈ Macro.usesAll ms) ∧
      ((∀ u ∈ Macro.usesAll ms, ∀ v ∈ Macro.usesAll ms, u.1 = v.1 → u.2 = v.2) ↔ ¬(m.HasList ∧ m.HasArray)) := by
  rw [conversionTexts_eq] at h
  cases hds : definitions package m with
  | error fault =>
    rw [hds] at h
    cases h
  | ok ds =>
    rw [hds] at h
    cases h
    obtain ⟨ms, hms, hembeds⟩ := embeds_definitions hds
    exact ⟨ms, _, hms, rfl, hembeds, fun u hu => cases_of_mem_uses hms hu, pylist_mem_of_hasList hms,
      pylist_mem_of_hasArray hms, uses_agree_iff hms⟩

def genre : Enumeration :=
  ⟨"Genre", ["NOVEL", "VERSE"], .int 0, .bool false, .text "e"⟩

/-- A module with a list and no array. -/
def library : Module where
  name := "library"
  enumerations := [genre]
  structs := [⟨"Book", [⟨"genre", .enumeration genre, none⟩, ⟨"price", .primitive .double, none⟩,
    ⟨"pages", .list (.primitive .int32) (.named "PAGES"), none⟩], .bool false, .text "t"⟩]

theorem library_arities_agree :
    ∃ header code, conversionTexts "" library = .ok (header, code) ∧ library.HasList ∧ ¬library.HasArray ∧
      ∃ ms, statements library = .ok ms ∧ pylist 3 ∈ Macro.usesAll ms ∧
        ∀ u ∈ Macro.usesAll ms, ∀ v ∈ Macro.usesAll ms, u.1 = v.1 → u.2 = v.2 := by
  obtain ⟨⟨header, code⟩, htexts⟩ : ∃ texts, conversionTexts "" library = .ok texts := by
    rw [conversionTexts_eq]
    exact ⟨_, rfl⟩
  have hlist : library.HasList := ⟨_, .head _, _, .tail _ (.tail _ (.head _)), _, _, rfl⟩
  have harray : ¬library.HasArray := by simp [Module.HasArray, library]
  obtain ⟨ms, ls, hms, -, -, -, hpylist, -, hiff⟩ := support_arities_agree_iff htexts
  exact ⟨header, code, htexts, hlist, harray, ms, hms, hpylist hlist, hiff.mpr fun h => harray h.2⟩

/-- A struct with a list and an array. -/
def mixed : Struct :=
  ⟨"Mixed", [⟨"xs", .list (.primitive .int32) (.named "MAX"), none⟩, ⟨"ys", .array (.primitive .int32) "MAX", none⟩],
    .bool false, .text "t"⟩

theorem mixed_arities_differ :
    (∃ texts, conversionTexts "" ⟨"mixture", [], [mixed], []⟩ = .ok texts) ∧
      settings mixed = .ok
        [["with_array_as_pylist(", "    c_struct.xs,", "    Int32_to_python,", "    set_python_attribute(", "        result,",
            "        \"xs\",", "        pylist));"],
          ["with_array_as_pylist(", "    c_struct.ys,", "    MAX,", "    Int32_to_python,", "    set_python_attribute(",
            "        result,", "        \"ys\",", "        pylist));"]] ∧
      (statements ⟨"mixture", [], [mixed], []⟩).map Macro.usesAll = .ok
        [("with_attribute", 4), ("with_list_elements", 4), ("with_attribute", 4), ("with_array_elements", 4), pylist 3,
          ("set_python_attribute", 3), pylist 4, ("set_python_attribute", 3)] := by
  refine ⟨?_, rfl, rfl⟩
  rw [conversionTexts_eq]
  exact ⟨_, rfl⟩

end Conversion

end Emit

end CodeBridge
