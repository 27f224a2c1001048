import CodeBridge.Proofs.Functions
import CodeBridge.Proofs.StructFilling

/-! # The functions of conversions

Each enumeration and each struct has a function for either direction. The functions of a struct have a statement for
each field, and for a field that holds a struct or an enumeration the statement names the function of its type. -/

namespace CodeBridge.Emit.Conversion

open Writing Sourcing

/-! ### Bodies -/

def loadLines (holder path name : String) : List String :=
  ["if (" ++ holder ++ " == NULL) \x7b", "    " ++ holder ++ " = load_class(\"" ++ path ++ "\", \"" ++ name ++ "\");",
    "\x7d"]

theorem yields_guarded (condition action : String) :
    Yields (do
      write (condition ++ " ")
      block (line action)) (.ok [condition ++ " \x7b", "    " ++ action, "\x7d"]) :=
  Yields.block (Style.opens_before (show Style.knr.opening condition = .ok [condition ++ " \x7b"] from rfl))
    (Yields.line action) ""

theorem yields_loadClass (holder path name : String) :
    Yields (loadClass holder path name) (.ok (loadLines holder path name)) := by
  have h := yields_guarded ("if (" ++ holder ++ " == NULL)")
    (holder ++ " = load_class(\"" ++ path ++ "\", \"" ++ name ++ "\");")
  simpa [loadLines, loadClass, String.append_assoc] using h

def enumerationToCLines (e : Enumeration) : List String :=
  ["int ordinal;", "with_attribute(", "    python_enum,", "    \"value\",", "    python_value,",
    "    with_pylong_as_int64(", "        python_value,", "        value,", "        ordinal = (int) value));",
    "switch (ordinal) \x7b"] ++
  ((e.values.flatMap fun v => ["    case " ++ v ++ ":", "        return " ++ v ++ ";"]) ++
  ["    default:", "        fail_with_message(\"Illegal ordinal value for enum " ++ e.name ++ " [%d]\", ordinal);", "\x7d"])

theorem yields_enumerationToCBody (e : Enumeration) : Yields (enumerationToCBody e) (.ok (enumerationToCLines e)) := by
  have hstatement : Yields
      (Access.int64Attribute (.text "python_enum") "value" (.text "ordinal = (int) value")).writeStatement
      (.ok ["with_attribute(", "    python_enum,", "    \"value\",", "    python_value,", "    with_pylong_as_int64(",
        "        python_value,", "        value,", "        ordinal = (int) value));"]) :=
    Macro.yields_statement _
  have hcases : Yields (Writing.each e.values valueCase)
      (.ok (e.values.flatMap fun v => ["    case " ++ v ++ ":", "        return " ++ v ++ ";"])) :=
    Yields.each_ok fun v => (Yields.line _).bind (Yields.line _)
  exact (Yields.line _).bind (hstatement.bind ((Yields.line _).bind (hcases.bind ((Yields.line _).bind
    ((Yields.line _).bind (Yields.line _))))))

def enumerationToPythonLines (path : String) (e : Enumeration) : List String :=
  ["static PyObject *enum_class = NULL;"] ++ (loadLines "enum_class" path e.name ++
  (["PyObject *result = PyObject_CallFunction(enum_class, \"i\", value);"] ++
  (["if (result == NULL) \x7b",
    "    " ++ ("fail_with_message(\"Unable to convert ordinal value [%d] to enum " ++ e.name ++ ": \", value);"), "\x7d"] ++
  ["return result;"])))

theorem yields_enumerationToPythonBody (path : String) (e : Enumeration) :
    Yields (enumerationToPythonBody path e) (.ok (enumerationToPythonLines path e)) := by
  have hfail := (yields_guarded "if (result == NULL)"
    ("fail_with_message(\"Unable to convert ordinal value [%d] to enum " ++ e.name ++ ": \", value);")).bind
    (Yields.line "return result;")
  rw [bind_assoc] at hfail
  exact (Yields.line _).bind ((yields_loadClass _ _ _).bind ((Yields.line _).bind hfail))

/-- The lines of the statements that set the attributes of an object, a list of them for each field. -/
def settings (s : Struct) : Except Fault (List (List String)) :=
  s.fields.mapM fun f => do (← attributeSetting s.name f).statementLines

/-- The lines that make the object. -/
def structToPythonStart (path : String) (s : Struct) : List String :=
  ["static PyObject *struct_class = NULL;"] ++ (loadLines "struct_class" path s.name ++
  (["PyObject *result = PyObject_CallFunction(struct_class, \"\");"] ++
  ["if (result == NULL) \x7b", "    " ++ ("fail_with_message(\"Unable to instantiate struct " ++ s.name ++ "\");"), "\x7d"]))

theorem yields_structToPythonBody (path : String) (s : Struct) :
    Yields (structToPythonBody path s)
      (do return structToPythonStart path s ++ ((← settings s).flatten ++ ["return result;"])) := by
  have hfields : Yields (Writing.each s.fields fun f => do (← Writing.check (attributeSetting s.name f)).writeStatement)
      (do return (← settings s).flatten) :=
    Yields.each fun f _ => Yields.check fun m _ => m.yields_statement
  have hstart := (Yields.line "static PyObject *struct_class = NULL;").bind
    ((yields_loadClass "struct_class" path s.name).bind
      ((Yields.line "PyObject *result = PyObject_CallFunction(struct_class, \"\");").bind
        (yields_guarded "if (result == NULL)" ("fail_with_message(\"Unable to instantiate struct " ++ s.name ++ "\");"))))
  have hall := hstart.bind (hfields.bind (Yields.line "return result;"))
  simp only [bind_assoc, pure_bind] at hall
  exact hall

/-! ### Definitions -/

def enumerationDefinitions (path : String) (e : Enumeration) : Except Fault (List Definition) := do
  let c ← e.cName
  return [⟨⟨c, e.name ++ "_to_c", "PyObject *python_enum"⟩, enumerationToCLines e, [], [], []⟩,
    ⟨⟨"PyObject *", e.name ++ "_to_python", c ++ " value"⟩, enumerationToPythonLines path e, [], [], []⟩]

def structDefinitions (path : String) (s : Struct) : Except Fault (List Definition) := do
  let c ← s.cName
  let fillings ← fillings s
  let settings ← settings s
  return [⟨⟨c, s.name ++ "_to_c", "PyObject *python_struct"⟩, [c ++ " result = \x7b0\x7d;"], s.fields, fillings,
      ["return result;"]⟩,
    ⟨⟨"PyObject *", s.name ++ "_to_python", c ++ " c_struct"⟩, structToPythonStart path s, s.fields, settings,
      ["return result;"]⟩]

/-- The functions of a module, in the order in which they are written. -/
def definitions (package : String) (m : Module) : Except Fault (List Definition) :=
  collect m (enumerationDefinitions (classPath package m)) (structDefinitions (classPath package m))

theorem defines_enumerationToC (e : Enumeration) :
    Defines .knr (enumerationToC e) (do
      let c ← e.cName
      return [⟨⟨c, e.name ++ "_to_c", "PyObject *python_enum"⟩, enumerationToCLines e, [], [], []⟩]) := by
  refine .check fun c _ => .function (.inl rfl) (r := .ok _) ?_ (fun _ h => by cases h; rfl) ?_
  · simpa [Definition.body] using yields_enumerationToCBody e
  · simp [Function.signature, String.append_assoc]

theorem defines_enumerationToPython (path : String) (e : Enumeration) :
    Defines .knr (enumerationToPython path e) (do
      let c ← e.cName
      return [⟨⟨"PyObject *", e.name ++ "_to_python", c ++ " value"⟩, enumerationToPythonLines path e, [], [], []⟩]) := by
  refine .check fun c _ => .function (.inl rfl) (r := .ok _) ?_ (fun _ h => by cases h; rfl) ?_
  · simpa [Definition.body] using yields_enumerationToPythonBody path e
  · simp [Function.signature, String.append_assoc]

theorem defines_enumeration (path : String) (e : Enumeration) :
    Defines .knr (do
      enumerationToC e
      enumerationToPython path e) (enumerationDefinitions path e) := by
  have hboth := (defines_enumerationToC e).bind (defines_enumerationToPython path e)
  unfold enumerationDefinitions
  generalize e.cName = name at hboth ⊢
  cases name <;> exact hboth

theorem defines_struct (path : String) (s : Struct) :
    Defines .knr (do
      structToC s
      structToPython path s) (structDefinitions path s) := by
  have htoC : Defines .knr (structToC s) (do
      let c ← s.cName
      return [← (do
        let fillings ← fillings s
        return ⟨⟨c, s.name ++ "_to_c", "PyObject *python_struct"⟩, [c ++ " result = \x7b0\x7d;"], s.fields, fillings,
          ["return result;"]⟩)]) := by
    refine .check fun c hc => .function (.inl rfl) (f := ⟨c, s.name ++ "_to_c", "PyObject *python_struct"⟩) ?_ ?_ ?_
    · have hbody := yields_structToCBody hc
      generalize fillings s = fillings at hbody ⊢
      cases fillings <;> exact hbody
    · intro d hd
      obtain ⟨_, -, hd⟩ := exists_of_bind_eq_ok hd
      cases hd
      rfl
    · simp [Function.signature, String.append_assoc]
  have htoPython : Defines .knr (structToPython path s) (do
      let c ← s.cName
      return [← (do
        let settings ← settings s
        return ⟨⟨"PyObject *", s.name ++ "_to_python", c ++ " c_struct"⟩, structToPythonStart path s, s.fields, settings,
          ["return result;"]⟩)]) := by
    refine .check fun c hc => .function (.inl rfl) (f := ⟨"PyObject *", s.name ++ "_to_python", c ++ " c_struct"⟩) ?_ ?_ ?_
    · have hbody := yields_structToPythonBody path s
      generalize settings s = settings at hbody ⊢
      cases settings <;> exact hbody
    · intro d hd
      obtain ⟨_, -, hd⟩ := exists_of_bind_eq_ok hd
      cases hd
      rfl
    · simp [Function.signature, String.append_assoc]
  -- Both directions ask for the C name. The second finds what the first has found.
  have hboth := htoC.bind htoPython
  unfold structDefinitions
  generalize s.cName = name, fillings s = fillings, settings s = settings at hboth ⊢
  cases name with
  | error fault => exact hboth
  | ok c =>
    cases fillings with
    | error fault => exact hboth
    | ok fillings => cases settings <;> exact hboth

theorem defines_run (package : String) (m : Module) : Defines .knr (run package m) (definitions package m) :=
  .collect (defines_enumeration (classPath package m)) (defines_struct (classPath package m))

/-! ### Functions that are named -/

/-- The statement of a field that holds a struct or an enumeration names one function, which is one of `fs` and the
function of that type: it fills the field as a whole or element by element, or it makes the attribute in one of these
ways. -/
inductive Served (fs : List Function) (f : Field) (held : DataType) : List String → Prop where
  | fill {g : Function} (hg : g ∈ fs) (hname : g.name = held.label ++ "_to_c") :
      Served fs f held ["with_attribute(", "    python_struct,", "    " ++ Access.quote f.name ++ ",", "    python_value,",
        "    result." ++ f.name ++ " = " ++ g.name ++ "(python_value));"]
  | fillElements {g : Function} (hg : g ∈ fs) (hname : g.name = held.label ++ "_to_c") {loop type : String}
      (hloop : loop = "with_list_elements" ∨ loop = "with_array_elements") (htype : held.spelling = .ok (.plain type))
      (size : String) :
      Served fs f held ["with_attribute(", "    python_struct,", "    " ++ Access.quote f.name ++ ",", "    python_value,",
        "    " ++ loop ++ "(", "        python_value,", "        " ++ type ++ ",", "        " ++ size ++ ",",
        "        result." ++ f.name ++ "[item_index] = " ++ g.name ++ "(item_value)));"]
  | set {g : Function} (hg : g ∈ fs) (hname : g.name = held.label ++ "_to_python") :
      Served fs f held ["set_python_attribute(", "    result,", "    " ++ Access.quote f.name ++ ",",
        "    " ++ g.name ++ "(c_struct." ++ f.name ++ "));"]
  | setElements {g : Function} (hg : g ∈ fs) (hname : g.name = held.label ++ "_to_python") (size : Option String) :
      Served fs f held (["with_array_as_pylist(", "    c_struct." ++ f.name ++ ","] ++
        size.toList.map (fun size => "    " ++ size ++ ",") ++ ["    " ++ g.name ++ ",",
        "    set_python_attribute(", "        result,", "        " ++ Access.quote f.name ++ ",", "        pylist));"])

theorem statementLines_withAttribute (name action : String) :
    (Access.withAttribute (.text "python_struct") name (.text action)).statementLines =
      .ok ["with_attribute(", "    python_struct,", "    " ++ Access.quote name ++ ",", "    python_value,",
        "    " ++ action ++ ");"] := by
  show Except.ok ["with_attribute(", "    python_struct,", indented (Access.quote name ++ ","), "    python_value,",
    indented (action ++ ")") ++ ";"] = _
  simp [indented, String.append_assoc]

theorem statementLines_elements {name loop action : String} {type size : Value} {ls : List String}
    (h : (Access.withAttribute (.text "python_struct") name
      (.call loop [.text "python_value", .value type, .value size, .text action])).statementLines = .ok ls) :
    ∃ typeText sizeText, type.text? = .ok typeText ∧ size.text? = .ok sizeText ∧
      ls = ["with_attribute(", "    python_struct,", "    " ++ Access.quote name ++ ",", "    python_value,",
        "    " ++ loop ++ "(", "        python_value,", "        " ++ typeText ++ ",", "        " ++ sizeText ++ ",",
        "        " ++ action ++ "));"] := by
  simp only [Access.withAttribute, Macro.statementLines, Macro.lines, Macro.argumentLines, Macro.furtherLines] at h
  cases htype : type.text? with
  | error fault =>
    rw [htype] at h
    cases h
  | ok typeText =>
    cases hsize : size.text? with
    | error fault =>
      rw [htype, hsize] at h
      cases h
    | ok sizeText =>
      rw [htype, hsize] at h
      cases h
      exact ⟨typeText, sizeText, rfl, rfl, by simp [indented, Value.shown, ← String.toList_inj]⟩

section
variable {fs : List Function} {g : Function} {f : Field} {held : DataType} {struct : String} {m : Macro} {ls : List String}

theorem served_elements {type : DataType} {loop : String} {size : Except Fault Value} (hg : g ∈ fs)
    (hname : g.name = held.label ++ "_to_c") (hloop : loop = "with_list_elements" ∨ loop = "with_array_elements")
    (helement : type.element = .ok held)
    (hplain : ∀ spelling, held.spelling = .ok spelling → ∃ text, spelling = .plain text)
    (h : (do
      let elements : Macro ← (do
        let element ← type.element
        let spelling ← element.spelling
        let size ← size
        return .call loop [.text "python_value", .value spelling.value, .value size,
          .text ("result." ++ f.name ++ "[item_index]" ++ " = " ++ held.label ++ "_to_c(item_value)")])
      return Access.withAttribute (.text "python_struct") f.name elements) = Except.ok m)
    (hls : m.statementLines = .ok ls) : Served fs f held ls := by
  obtain ⟨elements, helements, h⟩ := exists_of_bind_eq_ok h
  obtain ⟨inner, hinner, helements⟩ := exists_of_bind_eq_ok helements
  cases helement.symm.trans hinner
  obtain ⟨spelling, hspelling, helements⟩ := exists_of_bind_eq_ok helements
  obtain ⟨v, -, helements⟩ := exists_of_bind_eq_ok helements
  obtain ⟨type, rfl⟩ := hplain spelling hspelling
  cases helements
  cases h
  obtain ⟨typeText, sizeText, htype, -, rfl⟩ := statementLines_elements hls
  cases htype
  have hline : "        " ++ ("result." ++ f.name ++ "[item_index]" ++ " = " ++ held.label ++ "_to_c(item_value)") ++ "));" =
      "        result." ++ f.name ++ "[item_index] = " ++ g.name ++ "(item_value)));" := by
    rw [hname, ← String.toList_inj]
    simp
  rw [hline]
  exact .fillElements hg hname hloop hspelling sizeText

theorem served_whole (hg : g ∈ fs) (hname : g.name = held.label ++ "_to_c")
    (hls : (Access.withAttribute (.text "python_struct") f.name
      (.text ("result." ++ f.name ++ " = " ++ held.label ++ "_to_c(python_value)"))).statementLines = .ok ls) :
    Served fs f held ls := by
  rw [statementLines_withAttribute] at hls
  cases hls
  have hline : "    " ++ ("result." ++ f.name ++ " = " ++ held.label ++ "_to_c(python_value)") ++ ");" =
      "    result." ++ f.name ++ " = " ++ g.name ++ "(python_value));" := by
    rw [hname, ← String.toList_inj]
    simp
  rw [hline]
  exact .fill hg hname

/-- The statement that fills a field calls the function of the type that the field holds. -/
theorem served_assignment (hg : g ∈ fs) (hname : g.name = held.label ++ "_to_c") (hheld : f.type.held? = some held)
    (h : assignment struct f = .ok m) (hls : m.statementLines = .ok ls) : Served fs f held ls := by
  obtain ⟨htype, hkind⟩ := DataType.of_held?_eq_some hheld
  have hplain : ∀ spelling, held.spelling = .ok spelling → ∃ text, spelling = .plain text := by
    intro spelling hspelling
    obtain ⟨text, htext, -⟩ := DataType.of_spelling_eq_ok hspelling (by rintro _ _ rfl; simp at hkind)
      (by rintro _ _ rfl; simp at hkind)
    exact ⟨text, htext⟩
  unfold assignment at h
  rcases htype with htype | ⟨bound, htype⟩ | ⟨length, htype⟩ <;> rw [htype] at h <;>
    rcases hkind with ⟨s, rfl⟩ | ⟨e, rfl⟩
  case inl.inl => cases h; exact served_whole hg hname hls
  case inl.inr => cases h; exact served_whole hg hname hls
  case inr.inl.inl => exact served_elements hg hname (.inl rfl) rfl hplain h hls
  case inr.inl.inr => exact served_elements hg hname (.inl rfl) rfl hplain h hls
  case inr.inr.inl => exact served_elements hg hname (.inr rfl) rfl hplain h hls
  case inr.inr.inr => exact served_elements hg hname (.inr rfl) rfl hplain h hls

theorem statementLines_setAttribute (name value : String) : (Access.setAttribute name value).statementLines =
    .ok ["set_python_attribute(", "    result,", "    " ++ Access.quote name ++ ",", "    " ++ value ++ ");"] := by
  show Except.ok ["set_python_attribute(", "    result,", indented (Access.quote name ++ ","),
    indented (value ++ ")") ++ ";"] = _
  simp [indented, ← String.toList_inj]

theorem served_sequence (hg : g ∈ fs) (hname : g.name = held.label ++ "_to_python") (size : Option String)
    (hls : (Macro.call "with_array_as_pylist" (.text ("c_struct." ++ f.name) ::
      (size.toList.map Macro.text ++ [.text (held.label ++ "_to_python")]) ++
      [Access.setAttribute f.name "pylist"])).statementLines = .ok ls) : Served fs f held ls := by
  have hserved := Served.setElements (f := f) hg hname size
  rw [hname] at hserved
  cases size <;> cases hls
  all_goals
    convert hserved using 1
    simp [indented, Value.shown, ← String.toList_inj]

/-- The statement that sets an attribute names the function of the type that the field holds. -/
theorem served_attributeSetting (hg : g ∈ fs) (hname : g.name = held.label ++ "_to_python")
    (hheld : f.type.held? = some held) (h : attributeSetting struct f = .ok m) (hls : m.statementLines = .ok ls) :
    Served fs f held ls := by
  have whole : m = Access.setAttribute f.name (held.label ++ "_to_python(c_struct." ++ f.name ++ ")") →
      Served fs f held ls := by
    rintro rfl
    rw [statementLines_setAttribute] at hls
    cases hls
    have hline : "    " ++ (held.label ++ "_to_python(c_struct." ++ f.name ++ ")") ++ ");" =
        "    " ++ g.name ++ "(c_struct." ++ f.name ++ "));" := by
      rw [hname, ← String.toList_inj]
      simp
    rw [hline]
    exact .set hg hname
  obtain ⟨htype, hkind⟩ := DataType.of_held?_eq_some hheld
  unfold attributeSetting at h
  rcases htype with htype | ⟨bound, htype⟩ | ⟨length, htype⟩ <;> rw [htype] at h <;>
    rcases hkind with ⟨s, rfl⟩ | ⟨e, rfl⟩ <;> cases h
  case inl.inl => exact whole rfl
  case inl.inr => exact whole rfl
  case inr.inl.inl => exact served_sequence hg hname none hls
  case inr.inl.inr => exact served_sequence hg hname none hls
  case inr.inr.inl => exact served_sequence hg hname (some length) hls
  case inr.inr.inr => exact served_sequence hg hname (some length) hls

end

/-! ### The functions of a whole module -/

section
variable {package : String} {m : Module} {ds : List Definition}

theorem of_structDefinitions_eq_ok {path : String} {s : Struct} {l : List Definition}
    (h : structDefinitions path s = .ok l) :
    ∃ c fs ss, s.cName = .ok c ∧ fillings s = .ok fs ∧ settings s = .ok ss ∧
      l = [⟨⟨c, s.name ++ "_to_c", "PyObject *python_struct"⟩, [c ++ " result = \x7b0\x7d;"], s.fields, fs,
          ["return result;"]⟩,
        ⟨⟨"PyObject *", s.name ++ "_to_python", c ++ " c_struct"⟩, structToPythonStart path s, s.fields, ss,
          ["return result;"]⟩] := by
  obtain ⟨c, hc, h⟩ := exists_of_bind_eq_ok h
  obtain ⟨fs, hfs, h⟩ := exists_of_bind_eq_ok h
  obtain ⟨ss, hss, h⟩ := exists_of_bind_eq_ok h
  cases h
  exact ⟨c, fs, ss, hc, hfs, hss, rfl⟩

/-- The names of the functions for either direction. -/
def names (t : DataType) : List String :=
  [t.label ++ "_to_c", t.label ++ "_to_python"]

theorem names_definitions (h : definitions package m = .ok ds) : ds.map (·.function.name) = m.items.flatMap names := by
  refine names_collect h (fun e l hl => ?_) fun s l hl => ?_
  · obtain ⟨c, -, hl⟩ := exists_of_bind_eq_ok hl
    cases hl
    rfl
  · obtain ⟨c, fs, ss, -, -, -, rfl⟩ := of_structDefinitions_eq_ok hl
    rfl

/-- In a closed module every function that is named for a field is among those that are defined. -/
theorem served_definitions (h : definitions package m = .ok ds) (hclosed : m.Closed) : ∀ d ∈ ds,
    List.Forall₂ (fun f ls => ∀ held, f.type.held? = some held → Served (ds.map Definition.function) f held ls)
      d.fields d.blocks := by
  intro d hd
  rcases (mem_collect_iff h).mp hd with ⟨e, -, l, hl, hd⟩ | ⟨s, hs, l, hl, hd⟩
  · obtain ⟨c, -, hl⟩ := exists_of_bind_eq_ok hl
    cases hl
    simp only [List.mem_cons, List.not_mem_nil, or_false] at hd
    rcases hd with rfl | rfl <;> exact .nil
  · obtain ⟨c, fs, ss, -, hfs, hss, rfl⟩ := of_structDefinitions_eq_ok hl
    simp only [List.mem_cons, List.not_mem_nil, or_false] at hd
    rcases hd with rfl | rfl
    · refine forall₂_of_mapM_of_forall hfs fun f hf ls hls held hheld => ?_
      obtain ⟨g, hg, hname⟩ := exists_function (names_definitions h) (hclosed s hs f hf held hheld) (.head _)
      obtain ⟨_, hcall, hls⟩ := exists_of_bind_eq_ok hls
      exact served_assignment hg hname hheld hcall hls
    · refine forall₂_of_mapM_of_forall hss fun f hf ls hls held hheld => ?_
      obtain ⟨g, hg, hname⟩ := exists_function (names_definitions h) (hclosed s hs f hf held hheld) (.tail _ (.head _))
      obtain ⟨_, hcall, hls⟩ := exists_of_bind_eq_ok hls
      exact served_attributeSetting hg hname hheld hcall hls

end

/-! ### Single lines -/

section
variable {f : Field} {struct : String} {m : Macro}

theorem oneLine_cast {t : DataType} {name value : String} (ht : t.OneLine) (hname : OneLine name)
    (h : t.cast name = .ok value) : OneLine value := by
  cases t with
  | primitive p => cases p <;> cases h <;> simp +decide [hname, Primitive.castType]
  | custom _ castType isInteger =>
    cases isInteger <;> cases h
    simp +decide [ht.2, hname]
  | _ => cases h

theorem oneLine_elementAssignment {target action : String} {element : DataType} (htarget : OneLine target)
    (helement : element.OneLine) (h : elementAssignment target element = .ok action) : OneLine action := by
  unfold elementAssignment at h
  split at h
  case h_1 s => cases h; simp +decide [htarget, (show OneLine s.name from helement)]
  case h_2 e => cases h; simp +decide [htarget, (show OneLine e.name from helement)]
  case h_3 => cases h; simp +decide [htarget]
  case h_4 => cases h; simp +decide [htarget]
  case h_5 => cases h
  case h_6 => cases h
  case h_7 t =>
    split at h
    · obtain ⟨value, hvalue, h⟩ := exists_of_bind_eq_ok h
      cases h
      simp +decide [htarget, oneLine_cast helement (by decide) hvalue]
    · obtain ⟨name, -, h⟩ := exists_of_bind_eq_ok h
      cases h

/-- Sequences are not assigned element by element. -/
theorem elementAssignment_ne_nested {target action : String} {element : DataType}
    (h : elementAssignment target element = .ok action) :
    (∀ inner bound, element ≠ .list inner bound) ∧ ∀ inner length, element ≠ .array inner length := by
  refine ⟨?_, ?_⟩ <;> rintro _ _ rfl <;> cases h

theorem oneLine_withAttribute {owner name : String} {action : Macro} (howner : OneLine owner) (hname : OneLine name)
    (haction : action.OneLine) : (Access.withAttribute (.text owner) name action).OneLine := by
  simp +decide [Access.withAttribute, Access.quote, howner, hname, haction]

theorem oneLine_elements {name target action loop : String} {type element : DataType} {size : Except Fault Value}
    (hname : OneLine name) (htarget : OneLine target) (hloop : OneLine loop) (htype : type.element = .ok element)
    (helement : element.OneLine) (haction : elementAssignment target element = .ok action)
    (hsize : ∀ v, size = .ok v → ∀ text, v.text? = .ok text → OneLine text)
    (h : (do
      let elements : Macro ← (do
        let element ← type.element
        let spelling ← element.spelling
        let size ← size
        return .call loop [.text "python_value", .value spelling.value, .value size, .text action])
      return Access.withAttribute (.text "python_struct") name elements) = Except.ok m) : m.OneLine := by
  obtain ⟨elements, helements, h⟩ := exists_of_bind_eq_ok h
  obtain ⟨element, helement', helements⟩ := exists_of_bind_eq_ok helements
  cases htype.symm.trans helement'
  obtain ⟨spelling, hspelling, helements⟩ := exists_of_bind_eq_ok helements
  obtain ⟨v, hv, helements⟩ := exists_of_bind_eq_ok helements
  -- Only lists and arrays are spelled in two pieces, and they are refused as elements.
  obtain ⟨hlist, harray⟩ := elementAssignment_ne_nested haction
  obtain ⟨text, rfl, htext⟩ := DataType.of_spelling_eq_ok hspelling hlist harray
  cases helements
  cases h
  have htype : (Macro.value (Spelling.plain text).value).OneLine := Macro.oneLine_text.mpr (htext helement)
  have hvalue : (Macro.value v).OneLine := hsize v hv
  have haction := oneLine_elementAssignment htarget helement haction
  exact oneLine_withAttribute (by decide) hname (by simp +decide [hloop, htype, hvalue, haction])

theorem oneLine_assignment (hname : OneLine f.name) (htype : f.type.OneLine) (h : assignment struct f = .ok m) :
    m.OneLine := by
  have hitem : OneLine ("result." ++ f.name ++ "[item_index]") := by simp +decide [hname]
  unfold assignment at h
  split at h
  case h_1 s hs =>
    cases h
    rw [hs] at htype
    have hs : OneLine s.name := htype
    exact oneLine_withAttribute (by decide) hname (by simp +decide [hname, hs])
  case h_2 e he =>
    cases h
    rw [he] at htype
    have he : OneLine e.name := htype
    exact oneLine_withAttribute (by decide) hname (by simp +decide [hname, he])
  case h_3 =>
    cases h
    exact oneLine_withAttribute (by decide) hname (by simp +decide [Access.float, hname])
  case h_4 =>
    cases h
    exact oneLine_withAttribute (by decide) hname (by simp +decide [Access.float, hname])
  case h_5 element bound hlist =>
    rw [hlist] at htype
    obtain ⟨action, haction, h⟩ := exists_of_bind_eq_ok h
    refine oneLine_elements hname hitem (by decide) rfl htype.1 haction (fun v hv text htext => ?_) h
    cases bound <;> cases hv <;> cases htext
    · decide
    · exact htype.2 _ rfl
  case h_6 element length harray =>
    rw [harray] at htype
    obtain ⟨action, haction, h⟩ := exists_of_bind_eq_ok h
    refine oneLine_elements hname hitem (by decide) rfl htype.1 haction ?_ h
    rintro _ ⟨⟩ _ ⟨⟩
    exact htype.2
  case h_7 =>
    split at h
    · obtain ⟨value, hvalue, h⟩ := exists_of_bind_eq_ok h
      cases h
      have hvalue := oneLine_cast htype hname hvalue
      exact oneLine_withAttribute (by decide) hname (by simp +decide [Access.int64, hname, hvalue])
    · obtain ⟨name, -, h⟩ := exists_of_bind_eq_ok h
      cases h

theorem oneLine_attributeSetting (hname : OneLine f.name) (htype : f.type.OneLine)
    (h : attributeSetting struct f = .ok m) : m.OneLine := by
  have hset : ∀ value, OneLine value → (Access.setAttribute f.name value).OneLine := fun value hvalue => by
    simp +decide [Access.setAttribute, Access.quote, hname, hvalue]
  have hvalue := hset "value" (by decide)
  have hpylist := hset "pylist" (by decide)
  unfold attributeSetting at h
  split at h
  case h_1 s hs =>
    cases h
    rw [hs] at htype
    have hs : OneLine s.name := htype
    exact hset _ (by simp +decide [hname, hs])
  case h_2 e he =>
    cases h
    rw [he] at htype
    have he : OneLine e.name := htype
    exact hset _ (by simp +decide [hname, he])
  case h_3 => cases h; simp +decide [hname, hvalue]
  case h_4 => cases h; simp +decide [hname, hvalue]
  case h_5 => cases h; simp +decide [hname, hvalue]
  case h_6 => cases h; simp +decide [hname, hvalue]
  case h_7 element bound hlist =>
    rw [hlist] at htype
    obtain ⟨label, hlabel, h⟩ := exists_of_bind_eq_ok h
    cases h
    have hlabel := DataType.oneLine_name htype.1 hlabel
    simp +decide [hname, hlabel, hpylist]
  case h_8 element length harray =>
    rw [harray] at htype
    obtain ⟨label, hlabel, h⟩ := exists_of_bind_eq_ok h
    cases h
    have hlabel := DataType.oneLine_name htype.1 hlabel
    simp +decide [hname, hlabel, hpylist, htype.2]
  case h_9 =>
    split at h
    · cases h
      simp +decide [hname, hvalue]
    · obtain ⟨name, -, h⟩ := exists_of_bind_eq_ok h
      cases h

end

section
variable {package : String} {m : Module} {ds : List Definition}

theorem oneLine_loadLines {holder path name : String} (hholder : OneLine holder) (hpath : OneLine path)
    (hname : OneLine name) : ∀ l ∈ loadLines holder path name, OneLine l := by
  simp +decide [loadLines, hholder, hpath, hname]

theorem oneLine_enumerationToCLines {e : Enumeration} (hname : OneLine e.name) (hvalues : ∀ v ∈ e.values, OneLine v) :
    ∀ l ∈ enumerationToCLines e, OneLine l := by
  have hcases : ∀ l ∈ e.values.flatMap (fun v => ["    case " ++ v ++ ":", "        return " ++ v ++ ";"]), OneLine l := by
    intro l hl
    obtain ⟨v, hv, hl⟩ := List.mem_flatMap.mp hl
    simp only [List.mem_cons, List.not_mem_nil, or_false] at hl
    rcases hl with rfl | rfl <;> simp +decide [hvalues v hv]
  simp only [enumerationToCLines, List.forall_mem_append]
  exact ⟨by decide, hcases, by simp +decide [hname]⟩

theorem oneLine_enumerationToPythonLines {path : String} {e : Enumeration} (hpath : OneLine path) (hname : OneLine e.name) :
    ∀ l ∈ enumerationToPythonLines path e, OneLine l := by
  simp only [enumerationToPythonLines, List.forall_mem_append]
  exact ⟨by decide, oneLine_loadLines (by decide) hpath hname, by decide, by simp +decide [hname], by decide⟩

theorem oneLine_structToPythonStart {path : String} {s : Struct} (hpath : OneLine path) (hname : OneLine s.name) :
    ∀ l ∈ structToPythonStart path s, OneLine l := by
  simp only [structToPythonStart, List.forall_mem_append]
  exact ⟨by decide, oneLine_loadLines (by decide) hpath hname, by decide, by simp +decide [hname]⟩

/-- The statements of the fields have no line feeds in their lines. -/
theorem oneLine_statements {s : Struct} {statement : String → Field → Except Fault Macro} {lss : List (List String)}
    (hall : ∀ f ∈ s.fields, ∀ call, statement s.name f = .ok call → call.OneLine)
    (h : s.fields.mapM (fun f => do (← statement s.name f).statementLines) = .ok lss) : ∀ l ∈ lss.flatten, OneLine l := by
  intro l hl
  obtain ⟨f, hf, ls, hls, hl⟩ := (mem_flatten_of_mapM_eq_ok h).mp hl
  obtain ⟨call, hcall, hls⟩ := exists_of_bind_eq_ok hls
  exact Macro.oneLine_statementLines (hall f hf call hcall) hls l hl

theorem oneLine_definitions (hm : m.OneLine) (h : definitions package m = .ok ds) : ∀ d ∈ ds,
    OneLine d.function.signature ∧ (OneLine package → ∀ l ∈ d.body, OneLine l) := by
  have hpath : OneLine package → OneLine (classPath package m) := fun hpackage => by
    simp +decide [classPath, hpackage, hm.name]
  intro d hd
  rcases (mem_collect_iff h).mp hd with ⟨e, he, l, hl, hd⟩ | ⟨s, hs, l, hl, hd⟩
  · obtain ⟨hname, hvalues⟩ := hm.enumerations e he
    obtain ⟨c, hc, hl⟩ := exists_of_bind_eq_ok hl
    have hc := oneLine_enumerationName hname hc
    cases hl
    simp only [List.mem_cons, List.not_mem_nil, or_false] at hd
    rcases hd with rfl | rfl
    · refine ⟨by simp +decide [Function.signature, hc, hname], fun _ => ?_⟩
      simpa [Definition.body] using oneLine_enumerationToCLines hname hvalues
    · refine ⟨by simp +decide [Function.signature, hc, hname], fun hpackage => ?_⟩
      simpa [Definition.body] using oneLine_enumerationToPythonLines (hpath hpackage) hname
  · obtain ⟨hname, hfields⟩ := hm.structs s hs
    obtain ⟨c, fs, ss, hc, hfs, hss, rfl⟩ := of_structDefinitions_eq_ok hl
    have hc := oneLine_structName hname hc
    simp only [List.mem_cons, List.not_mem_nil, or_false] at hd
    rcases hd with rfl | rfl
    · refine ⟨by simp +decide [Function.signature, hc, hname], fun _ => ?_⟩
      have hblocks := oneLine_statements (fun f hf _ => oneLine_assignment (hfields f hf).1 (hfields f hf).2) hfs
      simp only [Definition.body, List.forall_mem_append]
      exact ⟨by simp +decide [hc], hblocks, by decide⟩
    · refine ⟨by simp +decide [Function.signature, hc, hname], fun hpackage => ?_⟩
      have hblocks := oneLine_statements (fun f hf _ => oneLine_attributeSetting (hfields f hf).1 (hfields f hf).2) hss
      simp only [Definition.body, List.forall_mem_append]
      exact ⟨oneLine_structToPythonStart (hpath hpackage) hname, hblocks, by decide⟩

end

end CodeBridge.Emit.Conversion
