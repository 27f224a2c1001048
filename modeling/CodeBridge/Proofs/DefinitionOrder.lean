import CodeBridge.Proofs.Functions
import CodeBridge.Proofs.TypeNames

/-! # Definitions before their use

A header holds the constants of a module, then its enumerations and then its structs, in whatever order they were
offered to the module. So if each struct comes behind the structs that its fields hold, then every macro and every
type in the declaration of a member is defined by the lines before it. -/

namespace CodeBridge

/-! ### The items of a module by their sorts -/

namespace Item

def constant? : Item → Option Constant
  | .constant c => some c
  | _ => none

def struct? : Item → Option Struct
  | .type (.struct s) => some s
  | _ => none

def enumeration? : Item → Option Enumeration
  | .type (.enumeration e) => some e
  | _ => none

end Item

theorem Module.of_add_eq_ok {item : Item} {m m' : Module} (h : m.add item = .ok m') :
    m' = ⟨m.name, m.constants ++ item.constant?.toList, m.structs ++ item.struct?.toList,
      m.enumerations ++ item.enumeration?.toList⟩ := by
  unfold Module.add at h
  split at h
  all_goals cases h
  all_goals simp [Item.constant?, Item.struct?, Item.enumeration?]

/-- A module has the items that it is offered, each sort in the order of the offer. -/
theorem Module.of_addAll_eq_ok {items : List Item} {m m' : Module} (h : m.addAll items = .ok m') :
    m' = ⟨m.name, m.constants ++ items.filterMap Item.constant?, m.structs ++ items.filterMap Item.struct?,
      m.enumerations ++ items.filterMap Item.enumeration?⟩ := by
  induction items generalizing m with
  | nil =>
    cases h
    simp
  | cons item items ih =>
    obtain ⟨m₁, hadd, h⟩ := exists_of_bind_eq_ok h
    cases Module.of_add_eq_ok hadd
    simpa [List.filterMap_eq_flatMap_toList] using ih h

theorem Module.of_ofItems_eq_ok {name : String} {items : List Item} {m : Module} (h : Module.ofItems name items = .ok m) :
    m = ⟨name, items.filterMap Item.constant?, items.filterMap Item.struct?, items.filterMap Item.enumeration?⟩ :=
  Module.of_addAll_eq_ok h

/-- The constant that the length of a list or an array is given by. -/
def DataType.lengthName? : DataType → Option String
  | .list _ (.named constant) => some constant
  | .array _ length => some length
  | _ => none

/-- Items that bring along all that their structs use: the structs that a field holds come before, the enumerations
and the constants for lengths come anywhere. No sequence holds sequences, and the suffixes are the usual ones. -/
structure Item.Ordered (items : List Item) : Prop where
  structs : ∀ front s back, items = front ++ .type (.struct s) :: back → ∀ f ∈ s.fields, ∀ t,
    f.type.held? = some (.struct t) → .type (.struct t) ∈ front
  enumerations : ∀ s, .type (.struct s) ∈ items → ∀ f ∈ s.fields, ∀ e,
    f.type.held? = some (.enumeration e) → .type (.enumeration e) ∈ items
  lengths : ∀ s, .type (.struct s) ∈ items → ∀ f ∈ s.fields, ∀ name, f.type.lengthName? = some name →
    ∃ c, .constant c ∈ items ∧ c.name = name
  flat : ∀ s, .type (.struct s) ∈ items → ∀ f ∈ s.fields, ∀ element, f.type.element = .ok element →
    ∀ inner, element.element ≠ .ok inner
  structSuffixes : ∀ s, .type (.struct s) ∈ items → s.suffix = .text "t"
  enumerationSuffixes : ∀ e, .type (.enumeration e) ∈ items → e.suffix = .text "e"

namespace Emit.Header

/-! ### Lines that define -/

def MacroIn (ls : List String) (name : String) : Prop :=
  ∃ value, "#define " ++ name ++ " " ++ value ∈ ls

/-- Lines among these define this type as a struct or an enumeration. -/
def TypeIn (style : Style) (ls : List String) (type : String) : Prop :=
  ∃ a d b, ls = a ++ d ++ b ∧ (Defines style "struct" d type ∨ Defines style "enum" d type)

theorem MacroIn.append {ls : List String} {name : String} (h : MacroIn ls name) (more : List String) :
    MacroIn (ls ++ more) name := by
  obtain ⟨value, hvalue⟩ := h
  exact ⟨value, List.mem_append_left more hvalue⟩

theorem TypeIn.append {style : Style} {ls : List String} {type : String} (h : TypeIn style ls type) (more : List String) :
    TypeIn style (ls ++ more) type := by
  obtain ⟨a, d, b, rfl, hd⟩ := h
  exact ⟨a, d, b ++ more, by simp, hd⟩

theorem TypeIn.behind {style : Style} {ls : List String} {type : String} (h : TypeIn style ls type) (more : List String) :
    TypeIn style (more ++ ls) type := by
  obtain ⟨a, d, b, rfl, hd⟩ := h
  exact ⟨more ++ a, d, b, by simp, hd⟩

theorem typeIn_of_mem {α : Type} {style : Style} {lines : α → Except Fault (List String)} {items : List α}
    {blocks : List (List String)} (h : items.mapM lines = .ok blocks) {a : α} (ha : a ∈ items) {type : String}
    (hdefines : ∀ ls, lines a = .ok ls → Defines style "struct" ls type ∨ Defines style "enum" ls type) :
    TypeIn style blocks.flatten type := by
  obtain ⟨ls, hls, hlines⟩ := exists_result_of_mem h ha
  obtain ⟨before, after, rfl⟩ := List.append_of_mem hls
  exact ⟨before.flatten, ls, after.flatten, by simp, hdefines ls hlines⟩

theorem macroIn_of_mem {constants : List Constant} {blocks : List (List String)}
    (h : constants.mapM constantLines = .ok blocks) {c : Constant} (hc : c ∈ constants) :
    MacroIn blocks.flatten c.name := by
  obtain ⟨ls, hls, hlines⟩ := exists_result_of_mem h hc
  obtain ⟨value, -, hlines⟩ := exists_of_bind_eq_ok hlines
  cases hlines
  exact ⟨value, List.mem_flatten.mpr ⟨_, hls, List.mem_cons_self⟩⟩

/-- A definition under the usual suffix defines the type by which fields refer to it. -/
theorem defines_cName {style : Style} {keyword mark name c : String} (hmark : mark ≠ "") {typedef : Value}
    {body : Except Fault (List String)} {ls : List String}
    (h : definitionLines style keyword name typedef (.text mark) body = .ok ls)
    (hc : cName (keyword ++ " ") ("_" ++ mark) name typedef = .ok c) : Defines style keyword ls c := by
  obtain ⟨tag, htag, hc⟩ := exists_of_bind_eq_ok hc
  rw [defines_iff htag h, ← (reference_eq_definedType_iff keyword mark tag mark hmark typedef).mpr fun _ => rfl]
  exact (Except.ok.inj hc).symm

/-! ### Types of members -/

/-- A type in a declaration behind these lines: that of a field which holds no struct and no enumeration is a primitive,
and all others are defined by the lines. -/
def Known (style : Style) (before : List String) (t : DataType) (text : String) : Prop :=
  (t.held? = none → ∃ p : Primitive, text = p.declaredType) ∧ (t.held? ≠ none → TypeIn style before text)

/-- A spelling in which everything is known: the type, and the macro of a length. -/
def Grounded (style : Style) (before : List String) (t : DataType) : Spelling → Prop
  | .plain text => Known style before t text
  | .around text behind => Known style before t text ∧
      ∃ constant, t.lengthName? = some constant ∧ behind = "[" ++ constant ++ "]" ∧ MacroIn before constant

/-- Everything that a field of this type can refer to is defined. -/
structure Provided (style : Style) (before : List String) (t : DataType) : Prop where
  struct : ∀ s c, t.held? = some (.struct s) → s.cName = .ok c → TypeIn style before c
  enumeration : ∀ e c, t.held? = some (.enumeration e) → e.cName = .ok c → TypeIn style before c
  length : ∀ name, t.lengthName? = some name → MacroIn before name
  flat : ∀ element, t.element = .ok element → ∀ inner, element.element ≠ .ok inner

section
variable {style : Style} {before : List String} {t : DataType}

theorem Provided.known (h : Provided style before t) {u : DataType} (hheld : t.held? = u.item?)
    (hflat : ∀ inner, u.element ≠ .ok inner) {spelling : Spelling} (hspelling : u.spelling = .ok spelling) :
    ∃ text, spelling = .plain text ∧ Known style before t text := by
  cases u with
  | primitive p =>
    cases hspelling
    exact ⟨_, rfl, fun _ => ⟨p, rfl⟩, fun hne => absurd hheld hne⟩
  | struct s =>
    obtain ⟨c, hc, hspelling⟩ := exists_of_bind_eq_ok ((map_eq_pure_bind _ _).symm.trans hspelling)
    cases hspelling
    have hne : t.held? ≠ none := by simp [hheld, DataType.item?]
    exact ⟨c, rfl, fun hnone => absurd hnone hne, fun _ => h.struct s c hheld hc⟩
  | enumeration e =>
    obtain ⟨c, hc, hspelling⟩ := exists_of_bind_eq_ok ((map_eq_pure_bind _ _).symm.trans hspelling)
    cases hspelling
    have hne : t.held? ≠ none := by simp [hheld, DataType.item?]
    exact ⟨c, rfl, fun hnone => absurd hnone hne, fun _ => h.enumeration e c hheld hc⟩
  | list element bound => exact absurd rfl (hflat element)
  | array element length => exact absurd rfl (hflat element)
  | _ => cases hspelling

theorem Provided.grounded (h : Provided style before t) {spelling : Spelling} (hspelling : t.spelling = .ok spelling) :
    Grounded style before t spelling := by
  -- What is no sequence holds itself. A sequence is spelled around its elements, and they are no sequences.
  have hplain : t.held? = t.item? → (∀ inner, t.element ≠ .ok inner) → Grounded style before t spelling := by
    intro hheld hflat
    obtain ⟨text, rfl, hknown⟩ := h.known hheld hflat hspelling
    exact hknown
  cases t with
  | list element bound =>
    cases bound with
    | named constant =>
      obtain ⟨inner, hinner, hspelling⟩ := exists_of_bind_eq_ok hspelling
      obtain ⟨text, rfl, hknown⟩ := h.known rfl (h.flat element rfl) hinner
      cases hspelling
      exact ⟨hknown, constant, rfl, rfl, h.length constant rfl⟩
    | unset => cases hspelling
    | unbounded => cases hspelling
  | array element length =>
    obtain ⟨inner, hinner, hspelling⟩ := exists_of_bind_eq_ok hspelling
    obtain ⟨text, rfl, hknown⟩ := h.known rfl (h.flat element rfl) hinner
    cases hspelling
    exact ⟨hknown, length, rfl, rfl, h.length length rfl⟩
  | _ => exact hplain rfl fun inner => by rintro ⟨⟩

end

/-! ### The place of a member -/

/-- The lines of a header before the member of a field: `structs` stand before its struct `s`, and `earlier` fields
before it. -/
def linesBefore (style : Style) (m : Module) (structs : List Struct) (s : Struct) (earlier : List Field) :
    Except Fault (List String) := do
  let front ← headerLines style ⟨m.name, m.constants, structs, m.enumerations⟩
  let start ← style.opening (← opening "struct" s.name s.typedef)
  let members ← earlier.mapM (memberLines s.name)
  return front ++ (start ++ members.flatten.map indented)

theorem exists_place {style : Style} {m : Module} {ls : List String} (h : headerLines style m = .ok ls)
    {structs others : List Struct} {s : Struct} (hs : m.structs = structs ++ s :: others)
    {earlier later : List Field} {f : Field} (hf : s.fields = earlier ++ f :: later) :
    ∃ before spelling remark after, linesBefore style m structs s earlier = .ok before ∧
      f.type.spelling = .ok spelling ∧ ls = before ++ indented (spelling.declare f.name ++ remark) :: after := by
  obtain ⟨constants, enumerations, all, hconstants, henumerations, hall, rfl⟩ := headerLines_eq_ok h
  rw [hs] at hall
  obtain ⟨blocks, block, more, hblocks, hblock, rfl⟩ := of_mapM_append_cons_eq_ok hall
  obtain ⟨head, start, close, lines, hhead, hstart, -, hbody, rfl⟩ := definitionLines_eq_ok hblock
  obtain ⟨fields, hfields, hbody⟩ := exists_of_bind_eq_ok hbody
  cases hbody
  rw [hf] at hfields
  obtain ⟨members, member, rest, hmembers, hmember, rfl⟩ := of_mapM_append_cons_eq_ok hfields
  obtain ⟨spelling, remark, tail, hspelling, rfl⟩ := of_memberLines_eq_ok hmember
  -- The block of the struct is cut behind the earlier fields, the row of blocks before that of the struct.
  have hbefore : linesBefore style m structs s earlier =
      .ok (constants.flatten ++ (enumerations.flatten ++ blocks.flatten) ++ (start ++ members.flatten.map indented)) := by
    simp only [linesBefore, headerLines, hconstants, henumerations, hblocks, hhead, hstart, hmembers, bind, Except.bind]
    rfl
  exact ⟨_, spelling, remark, (tail ++ rest.flatten).map indented ++ ["\x7d" ++ close, ""] ++ more.flatten, hbefore,
    hspelling, by simp⟩

/-! ### What the lines of a header define -/

section
variable {style : Style} {m : Module} {ls : List String}

theorem macroIn_of_headerLines (h : headerLines style m = .ok ls) {c : Constant} (hc : c ∈ m.constants) :
    MacroIn ls c.name := by
  obtain ⟨constants, enumerations, structs, hconstants, -, -, rfl⟩ := headerLines_eq_ok h
  exact (macroIn_of_mem hconstants hc).append _

theorem enumeration_typeIn_of_headerLines (h : headerLines style m = .ok ls) {e : Enumeration} (he : e ∈ m.enumerations)
    (hsuffix : e.suffix = .text "e") {c : String} (hc : e.cName = .ok c) : TypeIn style ls c := by
  obtain ⟨constants, enumerations, structs, -, henumerations, -, rfl⟩ := headerLines_eq_ok h
  refine ((typeIn_of_mem henumerations he fun block hblock => .inr ?_).append _).behind _
  rw [enumerationLines, hsuffix] at hblock
  exact defines_cName (by decide) hblock hc

theorem struct_typeIn_of_headerLines (h : headerLines style m = .ok ls) {s : Struct} (hs : s ∈ m.structs)
    (hsuffix : s.suffix = .text "t") {c : String} (hc : s.cName = .ok c) : TypeIn style ls c := by
  obtain ⟨constants, enumerations, structs, -, -, hstructs, rfl⟩ := headerLines_eq_ok h
  refine ((typeIn_of_mem hstructs hs fun block hblock => .inl ?_).behind _).behind _
  rw [structLines, hsuffix] at hblock
  exact defines_cName (by decide) hblock hc

end

theorem provided_of_ordered {items front back : List Item} (ho : Item.Ordered items) {s : Struct}
    (hitems : items = front ++ .type (.struct s) :: back) {f : Field} (hf : f ∈ s.fields) {style : Style} {name : String}
    {ls : List String} (h : headerLines style ⟨name, items.filterMap Item.constant?, front.filterMap Item.struct?,
      items.filterMap Item.enumeration?⟩ = .ok ls) (more : List String) : Provided style (ls ++ more) f.type := by
  have hs : .type (.struct s) ∈ items := by simp [hitems]
  refine ⟨fun t c ht hc => ?_, fun e c he hc => ?_, fun name hname => ?_, ho.flat s hs f hf⟩
  · -- Only here the order counts: the blocks of the header end before that of the struct.
    have hfront := ho.structs front s back hitems f hf t ht
    have hsuffix := ho.structSuffixes t (by simp [hitems, hfront])
    exact (struct_typeIn_of_headerLines h (List.mem_filterMap.mpr ⟨_, hfront, rfl⟩) hsuffix hc).append more
  · have he := ho.enumerations s hs f hf e he
    exact (enumeration_typeIn_of_headerLines h (List.mem_filterMap.mpr ⟨_, he, rfl⟩)
      (ho.enumerationSuffixes e he) hc).append more
  · obtain ⟨c, hc, rfl⟩ := ho.lengths s hs f hf name hname
    exact (macroIn_of_headerLines h (List.mem_filterMap.mpr ⟨_, hc, rfl⟩)).append more

/-- In the header of ordered items, whatever the declaration of a member refers to is defined by the lines before it:
the length of a list or an array by a macro, a struct or an enumeration by its own definition. -/
theorem member_types_defined_before {name : String} {items : List Item} {m : Module}
    (hm : Module.ofItems name items = .ok m) (ho : Item.Ordered items) {style : Style} {text : String}
    (htext : headerText style m = .ok text) {front back : List Item} {s : Struct}
    (hitems : items = front ++ .type (.struct s) :: back) {earlier later : List Field} {f : Field}
    (hf : s.fields = earlier ++ f :: later) :
    ∃ before spelling remark after, linesBefore style m (front.filterMap Item.struct?) s earlier = .ok before ∧
      f.type.spelling = .ok spelling ∧
      text = linesText (before ++ indented (spelling.declare f.name ++ remark) :: after) ∧
      Grounded style before f.type spelling := by
  cases Module.of_ofItems_eq_ok hm
  rw [headerText_eq] at htext
  obtain ⟨ls, hls, htext⟩ := exists_of_bind_eq_ok htext
  cases htext
  have hstructs : items.filterMap Item.struct? =
      front.filterMap Item.struct? ++ s :: back.filterMap Item.struct? := by
    simp [hitems, Item.struct?]
  obtain ⟨before, spelling, remark, after, hbefore, hspelling, rfl⟩ := exists_place hls hstructs hf
  refine ⟨before, spelling, remark, after, hbefore, hspelling, rfl, ?_⟩
  obtain ⟨lines, hlines, hbefore⟩ := exists_of_bind_eq_ok hbefore
  obtain ⟨head, -, hbefore⟩ := exists_of_bind_eq_ok hbefore
  obtain ⟨start, -, hbefore⟩ := exists_of_bind_eq_ok hbefore
  obtain ⟨members, -, hbefore⟩ := exists_of_bind_eq_ok hbefore
  cases hbefore
  exact (provided_of_ordered ho hitems (by simp [hf]) hlines _).grounded hspelling

def color : Enumeration :=
  ⟨"Color", ["RED", "GREEN"], .int 0, .bool true, .text "e"⟩

def path : Struct :=
  ⟨"Path", [⟨"color", .enumeration color, none⟩,
    ⟨"points", .list (.struct (point "t")) (.named "MAX_POINTS"), some "in order"⟩], .bool false, .text "t"⟩

/-- Items with a constant and an enumeration behind the struct that uses them. -/
def drawing : List Item :=
  [.type (.struct (point "t")), .type (.struct path), .constant ⟨"MAX_POINTS", .int 16⟩, .type (.enumeration color)]

theorem ordered_drawing : Item.Ordered drawing where
  structs := by
    intro front s back hsplit f hf t ht
    rcases front with _ | ⟨first, _ | ⟨second, rest⟩⟩
    · cases hsplit
      cases List.mem_singleton.mp hf
      cases ht
    · cases hsplit
      simp only [path, List.mem_cons, List.not_mem_nil, or_false] at hf
      rcases hf with rfl | rfl
      · cases ht
      · cases ht
        exact List.mem_cons_self
    · simp only [drawing, List.cons_append, List.cons.injEq] at hsplit
      have hs : .type (.struct s) ∈ rest ++ .type (.struct s) :: back := by simp
      rw [← hsplit.2.2] at hs
      simp at hs
  enumerations := by simp [drawing, path, point, DataType.held?, DataType.item?]
  lengths := by simp [drawing, path, point, DataType.lengthName?]
  flat := by simp [drawing, path, point, DataType.element]
  structSuffixes := by simp [drawing, path, point]
  enumerationSuffixes := by simp [drawing, color]

def drawingLines : List String :=
  ["#define MAX_POINTS 16", "", "typedef enum \x7b", "    RED = 0,", "    GREEN = 1", "\x7d color_e;", "",
    "typedef struct \x7b", "    int32_t x;", "\x7d point_t;", "", "struct path \x7b", "    color_e color;",
    "    point_t points[MAX_POINTS]; /* in order */", "    size_t points_length;", "\x7d;", ""]

theorem points_defined_before :
    Item.Ordered drawing ∧ ∃ m, Module.ofItems "drawing" drawing = .ok m ∧
      headerText .knr m = .ok (linesText drawingLines) ∧ ∃ before remark after,
        linesText drawingLines = linesText (before ++ indented ("point_t points[MAX_POINTS];" ++ remark) :: after) ∧
        TypeIn .knr before "point_t" ∧ MacroIn before "MAX_POINTS" := by
  obtain ⟨m, hm, htext⟩ : ∃ m, Module.ofItems "drawing" drawing = .ok m ∧
      headerText .knr m = .ok (linesText drawingLines) := ⟨_, rfl, by decide +kernel⟩
  have hsplit : drawing = [.type (.struct (point "t"))] ++ .type (.struct path) ::
      [.constant ⟨"MAX_POINTS", .int 16⟩, .type (.enumeration color)] := rfl
  have hfields : path.fields = [⟨"color", .enumeration color, none⟩] ++
      ⟨"points", .list (.struct (point "t")) (.named "MAX_POINTS"), some "in order"⟩ :: [] := rfl
  obtain ⟨before, spelling, remark, after, -, hspelling, hlines, hgrounded⟩ :=
    member_types_defined_before hm ordered_drawing htext hsplit hfields
  have hspelling' : (DataType.list (.struct (point "t")) (.named "MAX_POINTS")).spelling =
      .ok (.around "point_t" "[MAX_POINTS]") := rfl
  cases hspelling'.symm.trans hspelling
  obtain ⟨⟨-, htype⟩, constant, hconstant, -, hmacro⟩ := hgrounded
  cases hconstant
  exact ⟨ordered_drawing, m, hm, htext, before, remark, after, hlines, htype (Option.some_ne_none _), hmacro⟩

end Emit.Header

end CodeBridge
