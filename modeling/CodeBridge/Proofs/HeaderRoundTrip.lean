import CodeBridge.Proofs.HeaderContents
import CodeBridge.Proofs.Tags

/-! # Reading a header back

The header of a module, read again, gives what the module defines: its constants with their texts, its
enumerations with their counted values and its structs with the types of their fields, all in the order of the
module and whatever the style of the braces. -/

namespace CodeBridge.Header

open Text Emit Emit.Header

/-! ### What a module defines -/

def constantText : Value → String
  | .text s => Escape.quote s
  | v => v.shown

def constantEntry (c : Constant) : Entry :=
  ⟨c.name, some (constantText c.value), some ""⟩

/-- An enumeration with its values counted from its first ordinal on, which has to be a whole number. -/
def enumerationGroup (e : Enumeration) : Except Fault Group :=
  match e.first with
  | .int first => do return ⟨← Name.snake e.name, ordinalEntries first e.values, none⟩
  | v => .error (.kindNotInteger v.kind)

def fieldEntry (f : Field) : Except Fault Entry := do
  return ⟨f.name, some (← f.type.spelling).text, some (firstLine f.comment)⟩

def structGroup (s : Struct) : Except Fault Group := do
  return ⟨← Name.snake s.name, ← s.fields.mapM fieldEntry, none⟩

/-- All that a module defines, in its order. -/
def definitionsOf (m : Module) : Except Fault Definitions := do
  return ⟨m.constants.map constantEntry, ← m.enumerations.mapM enumerationGroup, ← m.structs.mapM structGroup⟩

/-! ### Modules whose headers can be read -/

/-- A value whose text can be read back: a text must not hold the start of a comment, and a whole number must not
have too many digits. -/
def ReadableValue : Value → Prop
  | .int n => Decimal.tooLong n = false
  | .bool _ => True
  | .float _ => True
  | .text s => Uncommented s.toList
  | _ => False

structure ReadableConstant (c : Constant) : Prop where
  name : IsName c.name
  value : ReadableValue c.value

/-- The name of an enumeration or a struct whose tag can be read back. -/
structure ReadableTag (name : String) (typedef : Value) : Prop where
  word : IsName name
  spoken : ∃ c ∈ name.toList, c ≠ '_'
  plain : typedef.truthy = false

structure ReadableEnumeration (e : Enumeration) : Prop where
  tag : ReadableTag e.name e.typedef
  values : ∀ v ∈ e.values, IsName v
  first : ∃ n, e.first = .int n ∧ Writable n e.values.length

structure ReadableField (f : Field) : Prop where
  name : IsName f.name
  type : ∃ p, f.type = .primitive p ∧ p ≠ .string
  comment : ∀ text ∈ f.comment, Presentable text

structure ReadableStruct (s : Struct) : Prop where
  tag : ReadableTag s.name s.typedef
  fields : ∀ f ∈ s.fields, ReadableField f

structure ReadableModule (m : Module) : Prop where
  constants : ∀ c ∈ m.constants, ReadableConstant c
  enumerations : ∀ e ∈ m.enumerations, ReadableEnumeration e
  structs : ∀ s ∈ m.structs, ReadableStruct s

/-! ### Lines that read back -/

/-- Lines are written, and reading them turns `d` into `d'`. -/
def ReadsBack (written : Except Fault (List String)) (d d' : Definitions) : Prop :=
  ∃ ls, written = .ok ls ∧ '\r' ∉ unlines (ls.map String.toList) ∧ Reads Initializer.evaluate (ls.map String.toList) d d'

theorem carriage_not_mem_unlines {ls : List (List Char)} (h : ∀ l ∈ ls, '\r' ∉ l) : '\r' ∉ unlines ls := by
  intro hm
  obtain ⟨l, hl, hm⟩ := List.mem_flatMap.mp hm
  rcases List.mem_append.mp hm with hm | hm
  · exact h l hl hm
  · exact absurd (List.mem_singleton.mp hm) (by decide)

theorem ReadsBack.append {a b : Except Fault (List String)} {d d' d'' : Definitions} (ha : ReadsBack a d d')
    (hb : ReadsBack b d' d'') : ReadsBack (do return (← a) ++ (← b)) d d'' := by
  obtain ⟨as, rfl, hca, hra⟩ := ha
  obtain ⟨bs, rfl, hcb, hrb⟩ := hb
  refine ⟨as ++ bs, rfl, ?_, ?_⟩
  · rw [List.map_append, unlines_append]
    exact fun m => (List.mem_append.mp m).elim hca hcb
  · rw [List.map_append]
    exact hra.append hrb

/-- What is read back item by item is read back as a whole. -/
theorem readsBack_each {α β : Type} {items : List α} {written : α → Except Fault (List String)}
    (row : α → Except Fault β) (add : Definitions → β → Definitions)
    (h : ∀ a ∈ items, ∃ b, row a = .ok b ∧ ∀ d, ReadsBack (written a) d (add d b)) :
    ∃ rows, items.mapM row = .ok rows ∧
      ∀ d, ReadsBack (do return (← items.mapM written).flatten) d (rows.foldl add d) := by
  induction items with
  | nil => exact ⟨[], rfl, fun d => ⟨[], rfl, List.not_mem_nil, .nil _ d⟩⟩
  | cons a items ih =>
    obtain ⟨b, hb, hread⟩ := h a List.mem_cons_self
    obtain ⟨rows, hrows, hreads⟩ := ih fun a' ha' => h a' (List.mem_cons_of_mem _ ha')
    refine ⟨b :: rows, mapM_cons_eq_ok hb hrows, fun d => ?_⟩
    obtain ⟨ls, hls, hc, hr⟩ := (hread d).append (hreads (add d b))
    refine ⟨ls, ?_, hc, hr⟩
    rw [← hls, List.mapM_cons]
    simp only [bind_assoc, pure_bind, List.flatten_cons]

/-! ### Constants -/

theorem ReadableValue.literal {v : Value} (h : ReadableValue v) :
    Emit.Header.literal v = .ok (constantText v) ∧ MacroValue (constantText v).toList := by
  cases v with
  | int n => exact ⟨text?_int h, .of_isNumeral (Decimal.isNumeral_intText n)⟩
  | bool b =>
    cases b
    · exact ⟨rfl, .of_isNumeral (by decide)⟩
    · exact ⟨rfl, .of_isNumeral (by decide)⟩
  | float x => exact ⟨rfl, .of_isNumeral (Decimal.isNumeral_floatText x)⟩
  | text s => exact ⟨rfl, .quote h⟩
  | _ => exact h.elim

theorem readsBack_constant {c : Constant} (h : ReadableConstant c) (d : Definitions) :
    ReadsBack (Emit.Header.constantLines c) d (d.addConstant (constantEntry c)) := by
  obtain ⟨hliteral, hvalue⟩ := h.value.literal
  have hline : ("#define " ++ c.name ++ " " ++ constantText c.value).toList =
      "#define".toList ++ (' ' :: (c.name.toList ++ ' ' :: (constantText c.value).toList)) := by simp
  have hread := constant?_line h.name hvalue.solid hvalue.line hvalue.uncommented
  have hname : '\r' ∉ c.name.toList := not_mem_of_forall h.name.2 rfl
  have hfeed : '\n' ∉ c.name.toList := not_mem_of_forall h.name.2 rfl
  rw [hline] at hread
  refine ⟨["#define " ++ c.name ++ " " ++ constantText c.value, ""], by rw [Emit.Header.constantLines, hliteral]; rfl, ?_, ?_⟩
  · simp [hname, hvalue.carriage]
  · rw [List.map_cons, hline]
    refine .constant ?_ (by simp [hfeed, hvalue.line]) hread d
    have hend := last_append hvalue.solid.last (' ' :: (c.name.toList ++ [' ']))
    rw [List.cons_append, List.append_assoc] at hend
    exact .append ⟨'#', rfl, rfl⟩ hend

/-! ### Enumerations and structs -/

theorem opensBody_opening {style : Style} (hstyle : style = .knr ∨ style = .bsd) (keyword tag : String) :
    ∃ start, style.opening (keyword ++ " " ++ tag) = .ok start ∧
      OpensBody keyword.toList tag (start.map String.toList) := by
  rcases hstyle with rfl | rfl
  · exact ⟨_, rfl, ' ', .inl rfl, by simp⟩
  · exact ⟨_, rfl, '\n', .inr rfl, by simp⟩

theorem definitionLines_eq {style : Style} (hstyle : style = .knr ∨ style = .bsd) (keyword : String) {name : String}
    {typedef : Value} (h : ReadableTag name typedef) (suffix : Value) :
    ∃ tag start, Name.snake name = .ok tag ∧ IsName tag ∧ OpensBody keyword.toList tag (start.map String.toList) ∧
      ∀ ls, definitionLines style keyword name typedef suffix (.ok ls) =
        .ok (start ++ (ls.map indented ++ ["\x7d;", ""])) := by
  obtain ⟨tag, htag, hname⟩ := Name.isName_snake h.word h.spoken
  obtain ⟨start, hstart, hopens⟩ := opensBody_opening hstyle keyword tag
  refine ⟨tag, start, htag, hname, hopens, fun ls => ?_⟩
  have hopening : opening keyword name typedef = .ok (keyword ++ " " ++ tag) := by
    rw [opening, h.plain, htag]
    rfl
  have hending : ending name typedef suffix = .ok ";" := by
    rw [ending, h.plain]
    rfl
  rw [definitionLines, hopening, hending]
  show (do
    let start ← style.opening (keyword ++ " " ++ tag)
    return start ++ ls.map indented ++ ["\x7d;", ""]) = _
  rw [hstart, ← List.append_assoc]
  rfl

theorem carriage_not_mem_definition {keyword tag : String} (hk : '\r' ∉ keyword.toList) (ht : IsName tag)
    {start : List (List Char)} (hstart : OpensBody keyword.toList tag start) {ls : List String}
    (hls : ∀ l ∈ ls, BodyLine (indented l).toList) :
    '\r' ∉ unlines (start ++ (ls.map (String.toList ∘ indented) ++ ["\x7d;".toList, []])) := by
  obtain ⟨gap, hgap, hopen⟩ := hstart
  have hbody : '\r' ∉ unlines (ls.map (String.toList ∘ indented)) := by
    refine carriage_not_mem_unlines fun cs hcs => ?_
    obtain ⟨l, hl, rfl⟩ := List.mem_map.mp hcs
    exact (hls l hl).carriage
  have htag : '\r' ∉ tag.toList := not_mem_of_forall ht.2 rfl
  have hgap' : '\r' ≠ gap := by rcases hgap with rfl | rfl <;> decide
  simp only [unlines_append, hopen, List.mem_append, not_or]
  simp [hk, htag, hgap', hbody]

theorem readsBack_definition {style : Style} (hstyle : style = .knr ∨ style = .bsd) (keyword : String)
    (hk : '\r' ∉ keyword.toList) {name : String} {typedef : Value} (h : ReadableTag name typedef) (suffix : Value)
    {ls : List String} (hls : ∀ l ∈ ls, BodyLine (indented l).toList) {add : String → Definitions → Definitions}
    (hread : ∀ tag start d, OpensBody keyword.toList tag start → IsName tag →
      Reads Initializer.evaluate (start ++ (ls.map (String.toList ∘ indented) ++ ["\x7d;".toList, []])) d (add tag d)) :
    ∃ tag, Name.snake name = .ok tag ∧
      ∀ d, ReadsBack (definitionLines style keyword name typedef suffix (.ok ls)) d (add tag d) := by
  obtain ⟨tag, start, htag, hname, hopens, hlines⟩ := definitionLines_eq hstyle keyword h suffix
  refine ⟨tag, htag, fun d => ⟨_, hlines ls, ?_⟩⟩
  simp only [List.map_append, List.map_map, List.map_cons, List.map_nil, String.toList_empty]
  exact ⟨carriage_not_mem_definition hk hname hopens hls, hread tag _ d hopens hname⟩

theorem readsBack_enumeration {style : Style} (hstyle : style = .knr ∨ style = .bsd) {e : Enumeration}
    (h : ReadableEnumeration e) :
    ∃ g, enumerationGroup e = .ok g ∧ ∀ d, ReadsBack (enumerationLines style e) d (d.addEnumeration g) := by
  obtain ⟨n, hfirst, hn⟩ := h.first
  obtain ⟨ls, hls, hlines, next, hfold⟩ := valueLines_spec h.values hn
  obtain ⟨tag, htag, hreads⟩ := readsBack_definition hstyle "enum" (by decide) h.tag e.suffix hlines
    fun tag start d hopens hname => Reads.enumeration hopens hname (List.forall_mem_map.mpr hlines) hfold d
  refine ⟨⟨tag, ordinalEntries n e.values, none⟩, ?_, fun d => ?_⟩
  · rw [enumerationGroup, hfirst, htag]
    rfl
  · rw [enumerationLines, hfirst, hls]
    exact hreads d

theorem isName_declaredType {p : Primitive} (h : p ≠ .string) : IsName p.declaredType := by
  cases p with
  | string => exact absurd rfl h
  | _ => decide

theorem memberLines_spec {f : Field} (h : ReadableField f) (struct : String) :
    ∃ ls entry, memberLines struct f = .ok ls ∧ fieldEntry f = .ok entry ∧
      (∀ l ∈ ls, BodyLine (indented l).toList) ∧
      ∀ members, (ls.map (String.toList ∘ indented)).foldlM (fun s l => addField s (trim l)) members =
        .ok (members ++ [entry]) := by
  obtain ⟨p, htype, hp⟩ := h.type
  obtain ⟨ls, hls, hlines, hfold⟩ := commentedLines_spec (isName_declaredType hp) h.name h.comment struct
  refine ⟨ls, ⟨f.name, some p.declaredType, some (firstLine f.comment)⟩, ?_, ?_, hlines, hfold⟩
  · rw [memberLines, htype]
    show (do return (← commentedLines struct f.name f.comment remark (p.declaredType ++ " " ++ f.name ++ ";")) ++ []) = _
    rw [hls]
    simp
  · rw [fieldEntry, htype]
    rfl

theorem fieldLines_spec {fields : List Field} (h : ∀ f ∈ fields, ReadableField f) (struct : String) :
    ∃ lss entries, fields.mapM (memberLines struct) = .ok lss ∧ fields.mapM fieldEntry = .ok entries ∧
      (∀ l ∈ lss.flatten, BodyLine (indented l).toList) ∧
      ∀ members, (lss.flatten.map (String.toList ∘ indented)).foldlM (fun s l => addField s (trim l)) members =
        .ok (members ++ entries) := by
  induction fields with
  | nil => exact ⟨[], [], rfl, rfl, by simp, fun members => by rw [List.append_nil]; rfl⟩
  | cons f fields ih =>
    obtain ⟨ls, entry, hls, hentry, hline, hfold⟩ := memberLines_spec (h f List.mem_cons_self) struct
    obtain ⟨lss, entries, hlss, hentries, hlines, hfolds⟩ := ih fun g hg => h g (List.mem_cons_of_mem _ hg)
    refine ⟨ls :: lss, entry :: entries, mapM_cons_eq_ok hls hlss, mapM_cons_eq_ok hentry hentries, ?_, fun members => ?_⟩
    · intro l hl
      rw [List.flatten_cons] at hl
      rcases List.mem_append.mp hl with hl | hl
      · exact hline l hl
      · exact hlines l hl
    · rw [List.flatten_cons, List.map_append, List.foldlM_append, hfold]
      show List.foldlM _ (members ++ [entry]) _ = _
      rw [hfolds, List.append_assoc, List.singleton_append]

theorem readsBack_struct {style : Style} (hstyle : style = .knr ∨ style = .bsd) {s : Struct} (h : ReadableStruct s) :
    ∃ g, structGroup s = .ok g ∧ ∀ d, ReadsBack (structLines style s) d (d.addStruct g) := by
  obtain ⟨lss, entries, hlss, hentries, hlines, hfold⟩ := fieldLines_spec h.fields s.name
  obtain ⟨tag, htag, hreads⟩ := readsBack_definition hstyle "struct" (by decide) h.tag s.suffix hlines
    fun tag start d hopens hname => Reads.struct hopens hname (List.forall_mem_map.mpr hlines) (hfold []) d
  refine ⟨⟨tag, entries, none⟩, ?_, fun d => ?_⟩
  · rw [structGroup, htag, hentries]
    rfl
  · rw [structLines, hlss]
    exact hreads d

/-! ### Whole headers -/

theorem foldl_addConstant (es : List Entry) (d : Definitions) :
    es.foldl Definitions.addConstant d = ⟨d.constants ++ es, d.enumerations, d.structs⟩ := by
  induction es generalizing d with
  | nil => simp
  | cons e es ih => simp [ih, Definitions.addConstant]

theorem foldl_addEnumeration (gs : List Group) (d : Definitions) :
    gs.foldl Definitions.addEnumeration d = ⟨d.constants, d.enumerations ++ gs, d.structs⟩ := by
  induction gs generalizing d with
  | nil => simp
  | cons g gs ih => simp [ih, Definitions.addEnumeration]

theorem foldl_addStruct (gs : List Group) (d : Definitions) :
    gs.foldl Definitions.addStruct d = ⟨d.constants, d.enumerations, d.structs ++ gs⟩ := by
  induction gs generalizing d with
  | nil => simp
  | cons g gs ih => simp [ih, Definitions.addStruct]

/-- The lines of a header read back as what the module defines. -/
theorem readsBack_header {style : Style} (hstyle : style = .knr ∨ style = .bsd) {m : Module} (h : ReadableModule m) :
    ∃ d, definitionsOf m = .ok d ∧ ReadsBack (headerLines style m) ⟨[], [], []⟩ d := by
  obtain ⟨cs, hcs, hconstants⟩ := readsBack_each (fun c => .ok (constantEntry c)) Definitions.addConstant
    fun c hc => ⟨constantEntry c, rfl, readsBack_constant (h.constants c hc)⟩
  obtain ⟨es, hes, henumerations⟩ := readsBack_each enumerationGroup Definitions.addEnumeration
    fun e he => readsBack_enumeration hstyle (h.enumerations e he)
  obtain ⟨ss, hss, hstructs⟩ := readsBack_each structGroup Definitions.addStruct
    fun s hs => readsBack_struct hstyle (h.structs s hs)
  have hcs' : m.constants.map constantEntry = cs := Except.ok.inj ((List.mapM_pure ..).symm.trans hcs)
  refine ⟨⟨cs, es, ss⟩, by rw [definitionsOf, hcs', hes, hss]; rfl, ?_⟩
  obtain ⟨ls, hls, hcarriage, hreads⟩ := (hconstants ⟨[], [], []⟩).append ((henumerations _).append (hstructs _))
  refine ⟨ls, ?_, hcarriage, ?_⟩
  · rw [← hls, headerLines]
    simp only [bind_assoc, pure_bind]
  · simpa [foldl_addConstant, foldl_addEnumeration, foldl_addStruct] using hreads

/-- A header that was generated from a module reads back as exactly what the module defines. -/
theorem read_headerText {style : Style} (hstyle : style = .knr ∨ style = .bsd) {m : Module} (h : ReadableModule m) :
    ∃ text d, headerText style m = .ok text ∧ definitionsOf m = .ok d ∧
      read (.ofText Initializer.evaluate) (unifyLineEnds text.toList) ⟨[], [], []⟩ = some (.ok (), d) := by
  obtain ⟨d, hd, ls, hls, hcarriage, hreads⟩ := readsBack_header hstyle h
  refine ⟨linesText ls, d, ?_, hd, ?_⟩
  · rw [headerText_eq, hls]
    rfl
  · rw [toList_linesText, unifyLineEnds_of_not_mem hcarriage]
    exact hreads.read

/-- A module with a text to be escaped, a comment of two lines and ordinals that do not start at zero. -/
def reply : Module :=
  ⟨"reply", [⟨"LIMIT", .int 3⟩, ⟨"GREETING", .text "a \"b\"\n"⟩],
    [⟨"HTTPReply", [⟨"code", .primitive .integer, some "the code\n  as sent "⟩, ⟨"size", .primitive .uint64, none⟩],
      .bool false, .text "t"⟩],
    [⟨"ReplyCode", ["OK", "NOT_FOUND"], .int 200, .bool false, .text "e"⟩]⟩

theorem readableModule_reply : ReadableModule reply where
  constants := by
    simp only [reply, List.forall_mem_cons, List.not_mem_nil, false_imp_iff, implies_true, and_true]
    exact ⟨⟨by decide, Decimal.tooLong_eq_false 1 (by decide) (by decide)⟩, ⟨by decide, ⟨by decide, by decide⟩⟩⟩
  enumerations := by
    simp only [reply, List.forall_mem_cons, List.not_mem_nil, false_imp_iff, implies_true, and_true]
    refine ⟨⟨by decide, ⟨'R', by decide⟩, rfl⟩, by decide, 200, rfl, fun i hi => ?_⟩
    have hi : i < 2 := hi
    exact Decimal.tooLong_eq_false 3 (by decide) (by omega)
  structs := by
    simp only [reply, List.forall_mem_cons, List.not_mem_nil, false_imp_iff, implies_true, and_true]
    refine ⟨⟨by decide, ⟨'R', by decide⟩, rfl⟩, ?_⟩
    simp only [List.forall_mem_cons, List.not_mem_nil, false_imp_iff, implies_true, and_true]
    refine ⟨⟨by decide, ⟨.integer, rfl, by decide⟩, ?_⟩, ⟨by decide, ⟨.uint64, rfl, by decide⟩, by simp⟩⟩
    rintro text ⟨⟩
    exact ⟨⟨'t', by decide⟩, by decide, by decide, ⟨by decide, by decide⟩, by decide⟩

theorem read_headerText_reply :
    ReadableModule reply ∧ ∃ text, headerText .bsd reply = .ok text ∧
      read (.ofText Initializer.evaluate) (unifyLineEnds text.toList) ⟨[], [], []⟩ = some (.ok (), ⟨
        [⟨"LIMIT", some "3", some ""⟩, ⟨"GREETING", some "\"a \\\"b\\\"\\n\"", some ""⟩],
        [⟨"reply_code", [⟨"OK", some "200", some ""⟩, ⟨"NOT_FOUND", some "201", some ""⟩], none⟩],
        [⟨"http_reply", [⟨"code", some "int64_t", some "the code"⟩, ⟨"size", some "uint64_t", some ""⟩], none⟩]⟩) := by
  obtain ⟨text, d, htext, hd, hread⟩ := read_headerText (.inr rfl) readableModule_reply
  obtain rfl := Except.ok.inj (hd.symm.trans (rfl : definitionsOf reply = .ok _))
  exact ⟨readableModule_reply, text, htext, hread⟩

end CodeBridge.Header
