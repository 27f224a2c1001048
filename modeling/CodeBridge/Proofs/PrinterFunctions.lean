import CodeBridge.Proofs.Functions

/-! # The functions of printers

Each enumeration and each struct has a function that prints it. The function of a struct prints its fields in turn, and
a field that holds a struct or an enumeration is printed by a call of the function of its type. -/

namespace CodeBridge.Emit.Printers

open Writing Sourcing

/-! ### Bodies -/

def processLine (text : String) : String :=
  "OutputHandler_process(out, \"" ++ text ++ "\");"

def indentationLine (depth : String) : String :=
  "OutputHandler_indent(out, indentation" ++ depth ++ ");"

theorem yields_process (text : String) : Yields (process text) (.ok [processLine text]) :=
  Yields.line _

theorem yields_printIndentation (depth : String) : Yields (printIndentation depth) (.ok [indentationLine depth]) :=
  Yields.line _

def caseLines (value : String) : List String :=
  ["case " ++ value ++ ":"] ++
    (["OutputHandler_process(out, \"%s\", \"" ++ value ++ "\");"] ++ ["break;"]).map indented

def switchLines (e : Enumeration) : List String :=
  e.values.flatMap caseLines ++ (["default:"] ++
    ["OutputHandler_process(out, \"Unknown %s value: %d\", \"" ++ e.name ++ "\", value);"].map indented)

theorem yields_switchBody (e : Enumeration) : Yields (switchBody e) (.ok (switchLines e)) := by
  have hcase : ∀ value, Yields (valueCase value) (.ok (caseLines value)) := fun value => by
    have hdeeper := ((Yields.line ("OutputHandler_process(out, \"%s\", \"" ++ value ++ "\");")).bind
      (Yields.line "break;")).deeper
    simp only [bind_assoc] at hdeeper
    exact (Yields.line _).bind hdeeper
  exact (Yields.each_ok hcase).bind ((Yields.line _).bind (Yields.line _).deeper)

/-- The lines of a block with what stands before it. -/
def blockLines (style : Style) (head : String) (inner : List String) : List String :=
  style.heading head ++ inner.map indented ++ ["\x7d"]

def elementLines (field : String) (type : DataType) : Except Fault (List String) :=
  match type with
  | .struct s => do
    return [indentationLine " + 2", (← s.cName) ++ "_to_string(value." ++ field ++ "[index], out, indentation + 2);",
      processLine ",\\n"]
  | _ => .ok [indentationLine " + 2", processLine ",\\n"]

def arrayLines (style : Style) (length : String) (inner : List String) : List String :=
  [processLine "[\\n"] ++ (blockLines style ("for (size_t index = 0; index < " ++ length ++ "; ++index)") inner ++
    ([indentationLine " + 1"] ++ [processLine "]"]))

def valueLines (style : Style) (f : Field) : Except Fault (List String) :=
  match f.type with
  | .struct s => do return [(← s.cName) ++ "_to_string(value." ++ f.name ++ ", out, indentation + 1);"]
  | .enumeration e => do return [(← e.cName) ++ "_to_string(value." ++ f.name ++ ", out);"]
  | .array type length => do return arrayLines style length (← elementLines f.name type)
  | .primitive p => do
    return ["OutputHandler_process(out, " ++ (← (DataType.primitive p).printfCode) ++ ", value." ++ f.name ++ ");"]
  | .custom name castType isInteger => do
    return ["OutputHandler_process(out, " ++ (← (DataType.custom name castType isInteger).printfCode) ++ ", value." ++
      f.name ++ ");"]
  | t => .error (.unprintableType t.shown)

/-- The lines that print a field: its name goes before its value. -/
def labelled (f : Field) (value : List String) : List String :=
  [indentationLine " + 1"] ++ (["OutputHandler_process(out, \"%s: \", \"" ++ f.name ++ "\");"] ++
    (value ++ [processLine ",\\n"]))

def fieldLines (style : Style) (f : Field) : Except Fault (List String) := do
  return labelled f (← valueLines style f)

section
variable {style : Style} (hstyle : style = .knr ∨ style = .bsd)
include hstyle

theorem yields_block (head : String) {body : Writing Unit} {r : Except Fault (List String)} (hbody : Yields body r) :
    Yields (do
      style.before head
      block body) (do return blockLines style head (← r)) :=
  Yields.block (Style.opens_before (Style.opening_eq hstyle head)) hbody ""

omit hstyle in
theorem yields_element (field : String) (type : DataType) : Yields (element field type) (elementLines field type) := by
  have hother : Yields (do
      printIndentation " + 2"
      process ",\\n") (.ok [indentationLine " + 2", processLine ",\\n"]) :=
    (yields_printIndentation _).bind (yields_process _)
  cases type with
  | struct s =>
    have hcall : Yields (do
        line ((← Writing.check s.cName) ++ "_to_string(value." ++ field ++ "[index], out, indentation + 2);"))
        (do return [(← s.cName) ++ "_to_string(value." ++ field ++ "[index], out, indentation + 2);"]) :=
      Yields.check fun c _ => Yields.line _
    have hall := (yields_printIndentation " + 2").bind (hcall.bind (yields_process ",\\n"))
    simp only [element, elementLines, bind_assoc] at hall ⊢
    generalize s.cName = name at hall ⊢
    cases name <;> exact hall
  | _ => exact hother

theorem yields_fieldValue (f : Field) : Yields (fieldValue style f) (valueLines style f) := by
  obtain ⟨name, type, comment⟩ := f
  cases type with
  | struct s => exact Yields.check fun c _ => Yields.line _
  | enumeration e => exact Yields.check fun c _ => Yields.line _
  | array type length =>
    have hloop := yields_block hstyle ("for (size_t index = 0; index < " ++ length ++ "; ++index)")
      (yields_element name type)
    have hall := (yields_process "[\\n").bind (hloop.bind ((yields_printIndentation " + 1").bind (yields_process "]")))
    simp only [bind_assoc] at hall
    simp only [fieldValue, valueLines]
    generalize elementLines name type = inner at hall ⊢
    cases inner <;> exact hall
  | primitive p => exact Yields.check fun code _ => Yields.line _
  | custom _ _ _ => exact Yields.check fun code _ => Yields.line _
  | _ => exact fun w _ => ⟨w, rfl⟩

theorem yields_field (f : Field) : Yields (field style f) (fieldLines style f) := by
  have hall := (yields_printIndentation " + 1").bind
    ((Yields.line ("OutputHandler_process(out, \"%s: \", \"" ++ f.name ++ "\");")).bind
      ((yields_fieldValue hstyle f).bind (yields_process ",\\n")))
  unfold fieldLines
  generalize valueLines style f = value at hall ⊢
  cases value <;> exact hall

end

/-! ### Definitions -/

def enumerationDefinitions (style : Style) (e : Enumeration) : Except Fault (List Definition) := do
  let c ← e.cName
  return [⟨⟨"void", c ++ "_to_string", c ++ " value, struct OutputHandler *out"⟩,
    blockLines style "switch (value)" (switchLines e), [], [], []⟩]

def structDefinitions (style : Style) (s : Struct) : Except Fault (List Definition) := do
  let c ← s.cName
  let blocks ← s.fields.mapM (fieldLines style)
  return [⟨⟨"void", c ++ "_to_string", c ++ " value, struct OutputHandler *out, size_t indentation"⟩,
    [processLine (s.name ++ " \x7b\\n")], s.fields, blocks, [indentationLine "", processLine "\x7d"]⟩]

/-- The functions of a module, in the order in which they are written. -/
def definitions (style : Style) (m : Module) : Except Fault (List Definition) :=
  collect m (enumerationDefinitions style) (structDefinitions style)

section
variable {style : Style} (hstyle : style = .knr ∨ style = .bsd)
include hstyle

theorem defines_enumeration (e : Enumeration) : Defines style (enumeration style e) (enumerationDefinitions style e) := by
  refine .check fun c _ => .function hstyle (r := .ok _) ?_ (fun _ h => by cases h; rfl) ?_
  · simpa [Definition.body] using yields_block hstyle "switch (value)" (yields_switchBody e)
  · simp [Function.signature, String.append_assoc]

theorem defines_struct (s : Struct) : Defines style (struct style s) (structDefinitions style s) := by
  have hdefines : Defines style (struct style s) (do
      let c ← s.cName
      return [← (do
        let blocks ← s.fields.mapM (fieldLines style)
        return ⟨⟨"void", c ++ "_to_string", c ++ " value, struct OutputHandler *out, size_t indentation"⟩,
          [processLine (s.name ++ " \x7b\\n")], s.fields, blocks, [indentationLine "", processLine "\x7d"]⟩)]) := by
    refine .check fun c _ => .function hstyle
      (f := ⟨"void", c ++ "_to_string", c ++ " value, struct OutputHandler *out, size_t indentation"⟩) ?_ ?_ ?_
    · have hbody := (yields_process (s.name ++ " \x7b\\n")).bind ((Yields.each fun f (_ : f ∈ s.fields) =>
        yields_field hstyle f).bind ((yields_printIndentation "").bind (yields_process "\x7d")))
      generalize s.fields.mapM (fieldLines style) = blocks at hbody ⊢
      cases blocks <;> exact hbody
    · intro d hd
      obtain ⟨_, -, hd⟩ := exists_of_bind_eq_ok hd
      cases hd
      rfl
    · simp [Function.signature, String.append_assoc]
  unfold structDefinitions
  generalize s.cName = name, s.fields.mapM (fieldLines style) = blocks at hdefines ⊢
  cases name with
  | error fault => exact hdefines
  | ok c => cases blocks <;> exact hdefines

theorem defines_run (m : Module) : Defines style (run style m) (definitions style m) :=
  .collect (defines_enumeration hstyle) (defines_struct hstyle)

end

/-! ### Functions that are called -/

/-- The name of the function of a type. -/
def names (t : DataType) : List String :=
  match t.spelling with
  | .ok spelling => [spelling.text ++ "_to_string"]
  | .error _ => []

/-- A field that holds a struct or an enumeration is printed by the function of that type, which is one of `fs`. Of an
array the function is called for each element, unless the elements are of an enumeration: these are not printed. -/
inductive Served (style : Style) (fs : List Function) (f : Field) : DataType → List String → Prop where
  | struct {s : Struct} {g : Function} (hg : g ∈ fs) (hname : g.name ∈ names (.struct s)) :
      Served style fs f (.struct s) (labelled f [g.name ++ "(value." ++ f.name ++ ", out, indentation + 1);"])
  | enumeration {e : Enumeration} {g : Function} (hg : g ∈ fs) (hname : g.name ∈ names (.enumeration e)) :
      Served style fs f (.enumeration e) (labelled f [g.name ++ "(value." ++ f.name ++ ", out);"])
  | structs {s : Struct} {g : Function} (hg : g ∈ fs) (hname : g.name ∈ names (.struct s)) (length : String) :
      Served style fs f (.struct s) (labelled f (arrayLines style length [indentationLine " + 2",
        g.name ++ "(value." ++ f.name ++ "[index], out, indentation + 2);", processLine ",\\n"]))
  | enumerations {e : Enumeration} (length : String) :
      Served style fs f (.enumeration e) (labelled f (arrayLines style length [indentationLine " + 2", processLine ",\\n"]))

section
variable {style : Style} {m : Module} {ds : List Definition}

theorem names_struct {s : Struct} {c : String} (hc : s.cName = .ok c) : names (.struct s) = [c ++ "_to_string"] := by
  rw [names, spelling_struct hc]
  rfl

theorem names_enumeration {e : Enumeration} {c : String} (hc : e.cName = .ok c) :
    names (.enumeration e) = [c ++ "_to_string"] := by
  rw [names, spelling_enumeration hc]
  rfl

theorem of_structDefinitions_eq_ok {s : Struct} {l : List Definition} (h : structDefinitions style s = .ok l) :
    ∃ c blocks, s.cName = .ok c ∧ s.fields.mapM (fieldLines style) = .ok blocks ∧
      l = [⟨⟨"void", c ++ "_to_string", c ++ " value, struct OutputHandler *out, size_t indentation"⟩,
        [processLine (s.name ++ " \x7b\\n")], s.fields, blocks, [indentationLine "", processLine "\x7d"]⟩] := by
  obtain ⟨c, hc, h⟩ := exists_of_bind_eq_ok h
  obtain ⟨blocks, hblocks, h⟩ := exists_of_bind_eq_ok h
  cases h
  exact ⟨c, blocks, hc, hblocks, rfl⟩

theorem names_definitions (h : definitions style m = .ok ds) : ds.map (·.function.name) = m.items.flatMap names := by
  refine names_collect h (fun e l hl => ?_) fun s l hl => ?_
  · obtain ⟨c, hc, hl⟩ := exists_of_bind_eq_ok hl
    cases hl
    rw [names_enumeration hc]
    rfl
  · obtain ⟨c, blocks, hc, -, rfl⟩ := of_structDefinitions_eq_ok hl
    rw [names_struct hc]
    rfl

/-- A field of a struct or an enumeration with a function is printed by that function. -/
theorem served_field {fs : List Function} {f : Field} {held : DataType} {ls : List String}
    (hfunction : ∀ name ∈ names held, ∃ g ∈ fs, g.name = name) (hheld : f.type.held? = some held)
    (h : fieldLines style f = .ok ls) : Served style fs f held ls := by
  have hcall : ∀ c : String, c ++ "_to_string(value." = c ++ "_to_string" ++ "(value." := fun c => by
    rw [String.append_assoc]
    rfl
  obtain ⟨htype, hkind⟩ := DataType.of_held?_eq_some hheld
  obtain ⟨value, hvalue, h⟩ := exists_of_bind_eq_ok h
  cases h
  unfold valueLines at hvalue
  rcases htype with htype | ⟨bound, htype⟩ | ⟨length, htype⟩ <;> rw [htype] at hvalue <;>
    rcases hkind with ⟨s, rfl⟩ | ⟨e, rfl⟩
  case inl.inl =>
    obtain ⟨c, hc, hvalue⟩ := exists_of_bind_eq_ok hvalue
    have hmem : c ++ "_to_string" ∈ names (.struct s) := names_struct hc ▸ List.mem_singleton_self _
    obtain ⟨g, hg, hname⟩ := hfunction _ hmem
    cases hvalue
    rw [hcall, ← hname]
    exact .struct hg (hname ▸ hmem)
  case inl.inr =>
    obtain ⟨c, hc, hvalue⟩ := exists_of_bind_eq_ok hvalue
    have hmem : c ++ "_to_string" ∈ names (.enumeration e) := names_enumeration hc ▸ List.mem_singleton_self _
    obtain ⟨g, hg, hname⟩ := hfunction _ hmem
    cases hvalue
    rw [hcall, ← hname]
    exact .enumeration hg (hname ▸ hmem)
  -- Lists are not printed.
  case inr.inl.inl => cases hvalue
  case inr.inl.inr => cases hvalue
  case inr.inr.inl =>
    obtain ⟨inner, hinner, hvalue⟩ := exists_of_bind_eq_ok hvalue
    obtain ⟨c, hc, hinner⟩ := exists_of_bind_eq_ok hinner
    have hmem : c ++ "_to_string" ∈ names (.struct s) := names_struct hc ▸ List.mem_singleton_self _
    obtain ⟨g, hg, hname⟩ := hfunction _ hmem
    cases hinner
    cases hvalue
    rw [hcall, ← hname]
    exact .structs hg (hname ▸ hmem) length
  case inr.inr.inr =>
    cases hvalue
    exact .enumerations length

/-- In a closed module every function that is called for a field is among those that are defined. -/
theorem served_definitions (h : definitions style m = .ok ds) (hclosed : m.Closed) : ∀ d ∈ ds,
    List.Forall₂ (fun f ls => ∀ held, f.type.held? = some held → Served style (ds.map Definition.function) f held ls)
      d.fields d.blocks := by
  intro d hd
  rcases (mem_collect_iff h).mp hd with ⟨e, -, l, hl, hd⟩ | ⟨s, hs, l, hl, hd⟩
  · obtain ⟨c, -, hl⟩ := exists_of_bind_eq_ok hl
    cases hl
    cases List.mem_singleton.mp hd
    exact .nil
  · obtain ⟨c, blocks, -, hblocks, rfl⟩ := of_structDefinitions_eq_ok hl
    cases List.mem_singleton.mp hd
    refine forall₂_of_mapM_of_forall hblocks fun f hf ls hls held hheld => ?_
    exact served_field (fun _ => exists_function (names_definitions h) (hclosed s hs f hf held hheld)) hheld hls

end

/-! ### Single lines -/

section
variable {style : Style} {m : Module} {ds : List Definition}

theorem oneLine_processLine {text : String} (h : OneLine text) : OneLine (processLine text) :=
  oneLine_append.mpr ⟨oneLine_append.mpr ⟨by decide, h⟩, by decide⟩

theorem oneLine_blockLines {head : String} {inner : List String} (hhead : OneLine head) (hinner : ∀ l ∈ inner, OneLine l) :
    ∀ l ∈ blockLines style head inner, OneLine l := by
  simp only [blockLines, List.forall_mem_append]
  exact ⟨⟨Style.oneLine_heading hhead, by simpa using hinner⟩, by decide⟩

theorem oneLine_switchLines {e : Enumeration} (hname : OneLine e.name) (hvalues : ∀ v ∈ e.values, OneLine v) :
    ∀ l ∈ switchLines e, OneLine l := by
  have hcases : ∀ l ∈ e.values.flatMap caseLines, OneLine l := by
    intro l hl
    obtain ⟨v, hv, hl⟩ := List.mem_flatMap.mp hl
    simp only [caseLines, List.map_append, List.map_cons, List.map_nil, List.mem_append, List.mem_singleton] at hl
    rcases hl with rfl | rfl | rfl <;> simp +decide [hvalues v hv]
  simp only [switchLines, List.forall_mem_append]
  exact ⟨hcases, by decide, by simp +decide [hname]⟩

theorem oneLine_printfCode {t : DataType} {code : String} (h : t.printfCode = .ok code) : OneLine code := by
  unfold DataType.printfCode at h
  split at h <;> cases h <;> decide

theorem oneLine_elementLines {field : String} {type : DataType} {ls : List String} (hfield : OneLine field)
    (htype : type.OneLine) (h : elementLines field type = .ok ls) : ∀ l ∈ ls, OneLine l := by
  unfold elementLines at h
  split at h
  · obtain ⟨c, hc, h⟩ := exists_of_bind_eq_ok h
    have hc := oneLine_structName htype hc
    cases h
    simp +decide [hfield, hc]
  · cases h
    decide

theorem oneLine_valueLines {f : Field} {ls : List String} (hname : OneLine f.name) (htype : f.type.OneLine)
    (h : valueLines style f = .ok ls) : ∀ l ∈ ls, OneLine l := by
  unfold valueLines at h
  split at h
  case h_1 s hs =>
    rw [hs] at htype
    obtain ⟨c, hc, h⟩ := exists_of_bind_eq_ok h
    have hc := oneLine_structName htype hc
    cases h
    simp +decide [hname, hc]
  case h_2 e he =>
    rw [he] at htype
    obtain ⟨c, hc, h⟩ := exists_of_bind_eq_ok h
    have hc := oneLine_enumerationName htype hc
    cases h
    simp +decide [hname, hc]
  case h_3 type length harray =>
    rw [harray] at htype
    obtain ⟨inner, hinner, h⟩ := exists_of_bind_eq_ok h
    cases h
    simp only [arrayLines, List.forall_mem_append]
    have hlength : OneLine length := htype.2
    exact ⟨by decide, oneLine_blockLines (by simp +decide [hlength]) (oneLine_elementLines hname htype.1 hinner),
      by decide, by decide⟩
  case h_4 =>
    obtain ⟨code, hcode, h⟩ := exists_of_bind_eq_ok h
    cases h
    simp +decide [hname, oneLine_printfCode hcode]
  case h_5 =>
    obtain ⟨code, hcode, h⟩ := exists_of_bind_eq_ok h
    cases h
    simp +decide [hname, oneLine_printfCode hcode]
  case h_6 => cases h

theorem oneLine_fieldLines {f : Field} {ls : List String} (hname : OneLine f.name) (htype : f.type.OneLine)
    (h : fieldLines style f = .ok ls) : ∀ l ∈ ls, OneLine l := by
  obtain ⟨value, hvalue, h⟩ := exists_of_bind_eq_ok h
  cases h
  simp only [labelled, List.forall_mem_append]
  exact ⟨by decide, by simp +decide [hname], oneLine_valueLines hname htype hvalue, by decide⟩

theorem oneLine_definitions (hm : m.OneLine) (h : definitions style m = .ok ds) : ∀ d ∈ ds,
    OneLine d.function.signature ∧ ∀ l ∈ d.body, OneLine l := by
  intro d hd
  rcases (mem_collect_iff h).mp hd with ⟨e, he, l, hl, hd⟩ | ⟨s, hs, l, hl, hd⟩
  · obtain ⟨hname, hvalues⟩ := hm.enumerations e he
    obtain ⟨c, hc, hl⟩ := exists_of_bind_eq_ok hl
    have hc := oneLine_enumerationName hname hc
    cases hl
    cases List.mem_singleton.mp hd
    refine ⟨by simp +decide [Function.signature, hc], ?_⟩
    simpa [Definition.body] using oneLine_blockLines (by decide) (oneLine_switchLines hname hvalues)
  · obtain ⟨hname, hfields⟩ := hm.structs s hs
    obtain ⟨c, blocks, hc, hblocks, rfl⟩ := of_structDefinitions_eq_ok hl
    have hc := oneLine_structName hname hc
    cases List.mem_singleton.mp hd
    refine ⟨by simp +decide [Function.signature, hc], ?_⟩
    have hlines : ∀ l ∈ blocks.flatten, OneLine l := by
      intro l hl
      obtain ⟨f, hf, ls, hls, hl⟩ := (mem_flatten_of_mapM_eq_ok hblocks).mp hl
      exact oneLine_fieldLines (hfields f hf).1 (hfields f hf).2 hls l hl
    simp only [Definition.body, List.forall_mem_append]
    exact ⟨by simpa using oneLine_processLine (oneLine_append.mpr ⟨hname, by decide⟩), hlines, by decide⟩

end

end CodeBridge.Emit.Printers
