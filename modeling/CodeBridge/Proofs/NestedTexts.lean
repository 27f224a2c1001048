import CodeBridge.Proofs.FinishedTexts
import CodeBridge.Proofs.Nesting

/-! # Texts with nested brackets

Modules whose names are made of letters, digits, underscores and dots have C texts that are well nested outside of
string literals: their headers, and the headers and the code of their conversions and of their printers. String
constants may hold anything. -/

namespace CodeBridge

open Nesting

/-! ### Names -/

/-- A text of letters, digits, underscores and dots. -/
def Dotted (s : String) : Prop :=
  ∀ c ∈ s.toList, Text.isWord c = true ∨ c = '.'

instance : DecidablePred Dotted := fun s =>
  inferInstanceAs (Decidable (∀ c ∈ s.toList, Text.isWord c = true ∨ c = '.'))

theorem Dotted.plain {s : String} (h : Dotted s) : Plain s := by
  have hmarks : ∀ c ∈ marks, ¬(Text.isWord c = true ∨ c = '.') := by decide
  exact fun c hc hmem => hmarks c hmem (h c hc)

namespace Name

theorem kept_plain : Kept fun c => c ∉ marks where
  lower c hc d hd hmem := by
    have unmade : ∀ x ∈ marks, IsUnmade x := by decide
    exact (unmade d hmem).kept_ne.lower c (fun e => hc (e ▸ hmem)) d hd rfl
  underscore := by decide

end Name

theorem plain_snake {name tag : String} (hname : Plain name) (h : Name.snake name = .ok tag) : Plain tag :=
  Name.kept_plain.snake hname h

theorem plain_cName {keyword mark name c : String} {typedef : Value} (hkeyword : Plain keyword) (hmark : Plain mark)
    (hname : Plain name) (h : cName keyword mark name typedef = .ok c) : Plain c := by
  obtain ⟨tag, htag, h⟩ := exists_of_bind_eq_ok h
  have htag := plain_snake hname htag
  cases h
  split
  · exact plain_append.mpr ⟨htag, hmark⟩
  · exact plain_append.mpr ⟨hkeyword, htag⟩

theorem plain_structName {s : Struct} {c : String} (hname : Plain s.name) (h : s.cName = .ok c) : Plain c :=
  plain_cName (by decide) (by decide) hname h

theorem plain_enumerationName {e : Enumeration} {c : String} (hname : Plain e.name) (h : e.cName = .ok c) : Plain c :=
  plain_cName (by decide) (by decide) hname h

/-! ### Numbers -/

theorem IsNumeral.plain {s : String} (h : IsNumeral s) : Plain s := by
  have hmarks : ∀ c ∈ marks, isNumeral c ≠ true := by decide
  exact fun c hc hmem => hmarks c hmem (h.2 c hc)

/-- Numbers and flags are written without brackets and quotes. -/
theorem plain_text? {v : Value} {text : String} (h : v.text? = .ok text)
    (hv : (∃ n, v = .int n) ∨ (∃ b, v = .bool b) ∨ ∃ x, v = .float x) : Plain text := by
  have hshown : v.shown = text := by
    unfold Value.text? at h
    split at h
    · cases h
    · exact Except.ok.inj h
  subst hshown
  rcases hv with ⟨n, rfl⟩ | ⟨b, rfl⟩ | ⟨x, rfl⟩
  · exact (Decimal.isNumeral_intText n).plain
  · cases b <;> decide
  · exact (Decimal.isNumeral_floatText x).plain

theorem plain_ordinal {ordinal next : Value} {text : String} (htext : ordinal.text? = .ok text)
    (hnext : ordinal.next = .ok next) : Plain text := by
  refine plain_text? htext ?_
  cases ordinal with
  | int n => exact .inl ⟨n, rfl⟩
  | bool b => exact .inr (.inl ⟨b, rfl⟩)
  | float x => exact .inr (.inr ⟨x, rfl⟩)
  | _ => cases hnext

/-! ### Modules -/

namespace DataType

/-- A primitive, or a struct or an enumeration with a dotted name. -/
def Simple : DataType → Prop
  | .primitive _ => True
  | .struct s => Dotted s.name
  | .enumeration e => Dotted e.name
  | _ => False

/-- A simple type, or a list or an array of one. -/
def Flat : DataType → Prop
  | .list element bound => element.Simple ∧ ∀ constant, bound = .named constant → Dotted constant
  | .array element length => element.Simple ∧ Dotted length
  | t => t.Simple

theorem Simple.spelling {t : DataType} (ht : t.Simple) {spelling : Spelling} (h : t.spelling = .ok spelling) :
    ∃ text, spelling = .plain text ∧ Plain text := by
  cases t with
  | primitive p =>
    cases h
    exact ⟨_, rfl, by cases p <;> decide⟩
  | struct s =>
    obtain ⟨c, hc, h⟩ := exists_of_bind_eq_ok ((map_eq_pure_bind _ _).symm.trans h)
    cases h
    exact ⟨c, rfl, plain_structName (Dotted.plain ht) hc⟩
  | enumeration e =>
    obtain ⟨c, hc, h⟩ := exists_of_bind_eq_ok ((map_eq_pure_bind _ _).symm.trans h)
    cases h
    exact ⟨c, rfl, plain_enumerationName (Dotted.plain ht) hc⟩
  | _ => exact ht.elim

theorem Flat.balanced_declare {t : DataType} (ht : t.Flat) {spelling : Spelling} (h : t.spelling = .ok spelling)
    {name : String} (hname : Plain name) : Balanced (spelling.declare name) := by
  have hsimple : t.Simple → Balanced (spelling.declare name) := by
    intro hsimple
    obtain ⟨text, rfl, htext⟩ := hsimple.spelling h
    have hplain : Plain (text ++ " " ++ name ++ ";") := by simp +decide [htext, hname]
    exact hplain.balanced
  -- The length of a list or an array stands in brackets behind the name.
  have hbehind : ∀ {element : DataType} {inner : Spelling} {length : String}, element.Simple →
      element.spelling = .ok inner → Dotted length → spelling = .around inner.text ("[" ++ length ++ "]") →
      Balanced (spelling.declare name) := by
    rintro element inner length helement hinner hlength rfl
    obtain ⟨text, rfl, htext⟩ := helement.spelling hinner
    have hfront : Plain (text ++ " " ++ name) := by simp +decide [htext, hname]
    have hlength : Balanced ("[" ++ length ++ "]") :=
      hlength.plain.between ⟨.code, [']']⟩ (.chars rfl) (by decide) (.chars rfl)
    exact (hfront.balanced.append hlength).append (.chars rfl)
  cases t with
  | list element bound =>
    cases bound with
    | named constant =>
      obtain ⟨inner, hinner, h⟩ := exists_of_bind_eq_ok h
      exact hbehind ht.1 hinner (ht.2 constant rfl) (Except.ok.inj h).symm
    | unset => cases h
    | unbounded => cases h
  | array element length =>
    obtain ⟨inner, hinner, h⟩ := exists_of_bind_eq_ok h
    exact hbehind ht.1 hinner ht.2 (Except.ok.inj h).symm
  | _ => exact hsimple ht

theorem Simple.plain_name {t : DataType} (ht : t.Simple) {name : String} (h : t.name = .ok name) : Plain name := by
  cases t with
  | primitive p =>
    cases h
    cases p <;> decide
  | struct s =>
    cases h
    exact Dotted.plain ht
  | enumeration e =>
    cases h
    exact Dotted.plain ht
  | _ => exact ht.elim

theorem Simple.flat {t : DataType} (ht : t.Simple) : t.Flat := by
  cases t with
  | list element bound => exact ht.elim
  | array element length => exact ht.elim
  | _ => exact ht

end DataType

/-- A module with dotted names, flat types and no comments. What its string constants hold does not matter. -/
structure Module.Dotted (m : Module) : Prop where
  name : CodeBridge.Dotted m.name
  constants : ∀ c ∈ m.constants, CodeBridge.Dotted c.name ∧ (Constant.typeOf? c.value).isSome = true
  enumerations : ∀ e ∈ m.enumerations, CodeBridge.Dotted e.name ∧ CodeBridge.Dotted (suffixText e.suffix) ∧
    ∀ v ∈ e.values, CodeBridge.Dotted v
  structs : ∀ s ∈ m.structs, CodeBridge.Dotted s.name ∧ CodeBridge.Dotted (suffixText s.suffix) ∧
    ∀ f ∈ s.fields, CodeBridge.Dotted f.name ∧ f.type.Flat ∧ (f.comment = none ∨ f.comment = some "")

namespace Emit

/-! ### Headers -/

namespace Header

theorem balanced_literal {v : Value} {text : String} (hv : (Constant.typeOf? v).isSome = true)
    (h : literal v = .ok text) : Balanced text := by
  cases v with
  | text s =>
    cases h
    exact balanced_quote s
  | int n => exact (plain_text? h (.inl ⟨n, rfl⟩)).balanced
  | bool b => exact (plain_text? h (.inr (.inl ⟨b, rfl⟩))).balanced
  | float x => exact (plain_text? h (.inr (.inr ⟨x, rfl⟩))).balanced
  | _ => cases hv

theorem lines_constantLines {c : Constant} {ls : List String} (hname : Dotted c.name)
    (hvalue : (Constant.typeOf? c.value).isSome = true) (h : constantLines c = .ok ls) : Lines ls [] [] := by
  obtain ⟨text, htext, h⟩ := exists_of_bind_eq_ok h
  cases h
  have hhead : Plain ("#define " ++ c.name ++ " ") := by simp +decide [hname.plain]
  exact .cons (hhead.balanced.append (balanced_literal hvalue htext)) .blank

theorem plain_ordinalLines {values : List String} (hvalues : ∀ v ∈ values, Plain v) {pending : String} {ordinal : Value}
    {ls : List String} (hpending : Plain pending) (h : ordinalLines pending ordinal values = .ok ls) :
    ∀ l ∈ ls, Plain l := by
  induction values generalizing pending ordinal ls with
  | nil =>
    cases h
    simpa using hpending
  | cons value values ih =>
    obtain ⟨hvalue, hvalues⟩ := List.forall_mem_cons.mp hvalues
    obtain ⟨text, htext, h⟩ := exists_of_bind_eq_ok h
    obtain ⟨next, hnext, h⟩ := exists_of_bind_eq_ok h
    obtain ⟨rest, hrest, h⟩ := exists_of_bind_eq_ok h
    cases h
    have hline : Plain (value ++ " = " ++ text) := by simp +decide [hvalue, plain_ordinal htext hnext]
    exact List.forall_mem_cons.mpr ⟨by simp +decide [hpending], ih hvalues hline hrest⟩

theorem plain_valueLines {values : List String} (hvalues : ∀ v ∈ values, Plain v) {ordinal : Value} {ls : List String}
    (h : valueLines ordinal values = .ok ls) : ∀ l ∈ ls, Plain l := by
  cases values with
  | nil =>
    cases h
    decide
  | cons value values =>
    obtain ⟨hvalue, hvalues⟩ := List.forall_mem_cons.mp hvalues
    obtain ⟨text, htext, h⟩ := exists_of_bind_eq_ok h
    obtain ⟨next, hnext, h⟩ := exists_of_bind_eq_ok h
    exact plain_ordinalLines hvalues (by simp +decide [hvalue, plain_ordinal htext hnext]) h

theorem lines_memberLines {struct : String} {f : Field} {ls : List String} (hname : Dotted f.name) (htype : f.type.Flat)
    (hcomment : f.comment = none ∨ f.comment = some "") (h : memberLines struct f = .ok ls) : Lines ls [] [] := by
  have hname := hname.plain
  obtain ⟨spelling, hspelling, h⟩ := exists_of_bind_eq_ok h
  obtain ⟨first, hfirst, h⟩ := exists_of_bind_eq_ok h
  have hdeclare : Balanced (spelling.declare f.name) := htype.balanced_declare hspelling hname
  have hfirst : first = [spelling.declare f.name] := by
    rcases hcomment with hnone | hempty
    · rw [hnone] at hfirst
      exact (Except.ok.inj hfirst).symm
    · rw [hempty] at hfirst
      exact (Except.ok.inj hfirst).symm
  cases h
  rw [hfirst]
  refine .cons hdeclare ?_
  split
  · have hlength : Plain ("size_t " ++ f.name ++ "_length;") := by simp +decide [hname]
    exact .cons hlength.balanced .nil
  · exact .nil

section
variable {style : Style} (hstyle : style = .knr ∨ style = .bsd)
include hstyle

theorem lines_definitionLines {keyword name : String} {typedef suffix : Value} {body : Except Fault (List String)}
    {ls : List String} (hkeyword : Plain keyword) (hname : Dotted name) (hsuffix : Dotted (suffixText suffix))
    (hbody : ∀ inner, body = .ok inner → Lines inner [] [])
    (h : definitionLines style keyword name typedef suffix body = .ok ls) : Lines ls [] [] := by
  obtain ⟨head, start, close, inner, hhead, hstart, hclose, hinner, rfl⟩ := definitionLines_eq_ok h
  cases (Style.opening_eq hstyle head).symm.trans hstart
  have hplain : Plain head := by
    unfold opening at hhead
    split at hhead
    · cases hhead
      simp +decide [hkeyword]
    · obtain ⟨tag, htag, hhead⟩ := exists_of_bind_eq_ok hhead
      cases hhead
      simp +decide [hkeyword, plain_snake hname.plain htag]
  have hending : Plain close := by
    unfold ending at hclose
    split at hclose
    · obtain ⟨tag, htag, hclose⟩ := exists_of_bind_eq_ok hclose
      cases hclose
      simp +decide [hsuffix.plain, plain_snake hname.plain htag]
    · cases hclose
      decide
  have hblock := ((hbody inner hinner).blockWith hplain.balanced hending style).append .blank
  rw [List.append_assoc] at hblock
  exact hblock

theorem lines_headerLines {m : Module} (hm : m.Dotted) {ls : List String} (h : headerLines style m = .ok ls) :
    Lines ls [] [] := by
  obtain ⟨constants, enumerations, structs, hconstants, henumerations, hstructs, rfl⟩ := headerLines_eq_ok h
  refine .append (.flatten fun block hblock => ?_) (.append (.flatten fun block hblock => ?_)
    (.flatten fun block hblock => ?_))
  · obtain ⟨c, hc, hlines⟩ := exists_source_of_mem hconstants hblock
    obtain ⟨hname, hvalue⟩ := hm.constants c hc
    exact lines_constantLines hname hvalue hlines
  · obtain ⟨e, he, hlines⟩ := exists_source_of_mem henumerations hblock
    obtain ⟨hname, hsuffix, hvalues⟩ := hm.enumerations e he
    refine lines_definitionLines hstyle (by decide) hname hsuffix (fun inner hinner => ?_) hlines
    exact .of_balanced fun l hl => (plain_valueLines (fun v hv => (hvalues v hv).plain) hinner l hl).balanced
  · obtain ⟨s, hs, hlines⟩ := exists_source_of_mem hstructs hblock
    obtain ⟨hname, hsuffix, hfields⟩ := hm.structs s hs
    refine lines_definitionLines hstyle (by decide) hname hsuffix (fun inner hinner => ?_) hlines
    obtain ⟨members, hmembers, hinner⟩ := exists_of_bind_eq_ok hinner
    cases hinner
    refine .flatten fun member hmember => ?_
    obtain ⟨f, hf, hlines⟩ := exists_source_of_mem hmembers hmember
    obtain ⟨hname, htype, hcomment⟩ := hfields f hf
    exact lines_memberLines hname htype hcomment hlines

end

end Header

/-! ### Functions -/

/-- A function whose signature and body close all that they open. -/
structure Definition.Nested (d : Definition) : Prop where
  signature : Balanced d.function.signature
  body : Lines d.body [] []

theorem Definition.Nested.lines {d : Definition} (h : d.Nested) (style : Style) : Lines (d.lines style) [] [] := by
  have hblock := (h.body.block h.signature style).append .blank
  rw [List.append_assoc] at hblock
  exact hblock

theorem Definition.Nested.of_parts {type name parameters : String} {first last : List String} {fields : List Field}
    {blocks : List (List String)} (htype : Plain type) (hname : Plain name) (hparameters : Plain parameters)
    (hfirst : Lines first [] []) (hblocks : ∀ ls ∈ blocks, Lines ls [] []) (hlast : Lines last [] []) :
    Definition.Nested ⟨⟨type, name, parameters⟩, first, fields, blocks, last⟩ where
  signature := by
    have hfront : Plain (type ++ " " ++ name) := by simp +decide [htype, hname]
    have hopen : Passes (type ++ " " ++ name ++ "(") ⟨.code, []⟩ ⟨.code, [')']⟩ := hfront.balanced.append (.chars rfl)
    exact hparameters.between ⟨.code, [')']⟩ hopen (by decide) (.chars rfl)
  body := hfirst.append ((Lines.flatten hblocks).append hlast)

theorem Sourcing.bracketed_texts {style : Style} {r : Except Fault (List Definition)}
    (h : ∀ ds, r = .ok ds → ∀ d ∈ ds, d.Nested) {given : String × String} (hgiven : r.map (texts style) = .ok given) :
    Bracketed given.1 ∧ Bracketed given.2 := by
  cases r with
  | error fault => cases hgiven
  | ok ds =>
    cases hgiven
    have hall := h ds rfl
    refine ⟨.of_lines (.of_balanced fun l hl => ?_), .of_lines (.flatten fun ls hls => ?_)⟩
    · obtain ⟨d, hd, rfl⟩ := List.mem_map.mp hl
      exact (hall d hd).signature.append (.chars rfl)
    · obtain ⟨d, hd, rfl⟩ := List.mem_map.mp hls
      exact (hall d hd).lines style

/-! ### Printers -/

namespace Printers

theorem balanced_processLine {text : String} (h : Passes text ⟨.literal, [')']⟩ ⟨.literal, [')']⟩) :
    Balanced (processLine text) :=
  (Passes.append (.chars rfl) h).append (.chars rfl)

theorem balanced_indentationLine {depth : String} (h : Plain depth) : Balanced (indentationLine depth) :=
  h.between ⟨.code, [')']⟩ (.chars rfl) (by decide) (.chars rfl)

/-- What separates the printed fields and elements. -/
theorem balanced_separator : Balanced (processLine ",\\n") :=
  balanced_processLine (.chars rfl)

theorem lines_switchLines {e : Enumeration} (hname : Dotted e.name) (hvalues : ∀ v ∈ e.values, Dotted v) :
    Lines (switchLines e) [] [] := by
  have hcase : ∀ v ∈ e.values, Lines (caseLines v) [] [] := by
    intro v hv
    have hv := (hvalues v hv).plain
    have hlabel : Plain ("case " ++ v ++ ":") := by simp +decide [hv]
    have hprint : Balanced ("OutputHandler_process(out, \"%s\", \"" ++ v ++ "\");") :=
      hv.between ⟨.literal, [')']⟩ (.chars rfl) (by decide) (.chars rfl)
    exact .cons hlabel.balanced (Lines.indented (.cons hprint (.cons (.chars rfl) .nil)))
  have hunknown : Balanced ("OutputHandler_process(out, \"Unknown %s value: %d\", \"" ++ e.name ++ "\", value);") :=
    hname.plain.between ⟨.literal, [')']⟩ (.chars rfl) (by decide) (.chars rfl)
  refine .append (.flatten fun ls hls => ?_) (.cons (.chars rfl) (Lines.indented (.cons hunknown .nil)))
  obtain ⟨v, hv, rfl⟩ := List.mem_map.mp hls
  exact hcase v hv

/-- The printer of a type is called with the member of a field and further arguments. -/
theorem balanced_call {c field arguments : String} (hc : Plain c) (hfield : Plain field)
    (harguments : Passes arguments ⟨.code, [')']⟩ ⟨.code, []⟩) :
    Balanced (c ++ "_to_string(value." ++ field ++ arguments) := by
  have hopen : Passes (c ++ "_to_string(value.") ⟨.code, []⟩ ⟨.code, [')']⟩ := hc.balanced.append (.chars rfl)
  exact hfield.between ⟨.code, [')']⟩ hopen (by decide) harguments

theorem lines_elementLines {field : String} {type : DataType} {ls : List String} (hfield : Plain field)
    (htype : type.Simple) (h : elementLines field type = .ok ls) : Lines ls [] [] := by
  have hindentation : Balanced (indentationLine " + 2") := balanced_indentationLine (by decide)
  unfold elementLines at h
  split at h
  · obtain ⟨c, hc, h⟩ := exists_of_bind_eq_ok h
    have hc := plain_structName (Dotted.plain htype) hc
    cases h
    exact .cons hindentation (.cons (balanced_call hc hfield (.chars rfl)) (.cons balanced_separator .nil))
  · cases h
    exact .cons hindentation (.cons balanced_separator .nil)

theorem balanced_printfCode {t : DataType} {code : String} (h : t.printfCode = .ok code) : Balanced code := by
  unfold DataType.printfCode at h
  split at h <;> cases h <;> decide

theorem lines_valueLines {style : Style} {f : Field} {ls : List String} (hname : Plain f.name) (htype : f.type.Flat)
    (h : valueLines style f = .ok ls) : Lines ls [] [] := by
  unfold valueLines at h
  split at h
  case h_1 s hs =>
    rw [hs] at htype
    obtain ⟨c, hc, h⟩ := exists_of_bind_eq_ok h
    cases h
    exact .cons (balanced_call (plain_structName (Dotted.plain htype) hc) hname (.chars rfl)) .nil
  case h_2 e he =>
    rw [he] at htype
    obtain ⟨c, hc, h⟩ := exists_of_bind_eq_ok h
    cases h
    exact .cons (balanced_call (plain_enumerationName (Dotted.plain htype) hc) hname (.chars rfl)) .nil
  case h_3 type length harray =>
    rw [harray] at htype
    obtain ⟨inner, hinner, h⟩ := exists_of_bind_eq_ok h
    cases h
    have hloop : Balanced ("for (size_t index = 0; index < " ++ length ++ "; ++index)") :=
      htype.2.plain.between ⟨.code, [')']⟩ (.chars rfl) (by decide) (.chars rfl)
    have hblock := (lines_elementLines hname htype.1 hinner).block hloop style
    exact .cons (balanced_processLine (.chars rfl)) (hblock.append
      (.cons (balanced_indentationLine (by decide)) (.cons (balanced_processLine (.chars rfl)) .nil)))
  case h_4 =>
    obtain ⟨code, hcode, h⟩ := exists_of_bind_eq_ok h
    cases h
    have hcode : Passes ("OutputHandler_process(out, " ++ code ++ ", value.") ⟨.code, []⟩ ⟨.code, [')']⟩ :=
      (Passes.append (.chars rfl) ((balanced_printfCode hcode).passes [')'])).append (.chars rfl)
    exact .cons (hname.between ⟨.code, [')']⟩ hcode (by decide) (.chars rfl)) .nil
  case h_5 name castType isInteger hcustom =>
    rw [hcustom] at htype
    exact htype.elim
  case h_6 => cases h

theorem lines_fieldLines {style : Style} {f : Field} {ls : List String} (hname : Plain f.name) (htype : f.type.Flat)
    (h : fieldLines style f = .ok ls) : Lines ls [] [] := by
  obtain ⟨value, hvalue, h⟩ := exists_of_bind_eq_ok h
  cases h
  have hlabel : Balanced ("OutputHandler_process(out, \"%s: \", \"" ++ f.name ++ "\");") :=
    hname.between ⟨.literal, [')']⟩ (.chars rfl) (by decide) (.chars rfl)
  exact .cons (balanced_indentationLine (by decide)) (.cons hlabel
    ((lines_valueLines hname htype hvalue).append (.cons balanced_separator .nil)))

theorem nested_definitions {style : Style} {m : Module} (hm : m.Dotted) {ds : List Definition}
    (h : definitions style m = .ok ds) : ∀ d ∈ ds, d.Nested := by
  intro d hd
  rcases (mem_collect_iff h).mp hd with ⟨e, he, l, hl, hd⟩ | ⟨s, hs, l, hl, hd⟩
  · obtain ⟨hname, -, hvalues⟩ := hm.enumerations e he
    obtain ⟨c, hc, hl⟩ := exists_of_bind_eq_ok hl
    have hc := plain_enumerationName hname.plain hc
    cases hl
    cases List.mem_singleton.mp hd
    exact .of_parts (by decide) (by simp +decide [hc]) (by simp +decide [hc])
      ((lines_switchLines hname hvalues).block (.chars rfl) style) (by simp) .nil
  · obtain ⟨hname, -, hfields⟩ := hm.structs s hs
    obtain ⟨c, blocks, hc, hblocks, rfl⟩ := of_structDefinitions_eq_ok hl
    have hc := plain_structName hname.plain hc
    cases List.mem_singleton.mp hd
    have hfirst : Balanced (processLine (s.name ++ " \x7b\\n")) :=
      balanced_processLine ((hname.plain.inLiteral _).append (.chars rfl))
    have hlast : Lines [indentationLine "", processLine "\x7d"] [] [] :=
      .cons (balanced_indentationLine (by decide)) (.cons (balanced_processLine (.chars rfl)) .nil)
    refine .of_parts (by decide) (by simp +decide [hc]) (by simp +decide [hc]) (.cons hfirst .nil) (fun ls hls => ?_) hlast
    obtain ⟨f, hf, hlines⟩ := exists_source_of_mem hblocks hls
    exact lines_fieldLines (hfields f hf).1.plain (hfields f hf).2.1 hlines

end Printers

/-! ### Conversions -/

namespace Conversion

section
variable {f : Field} {struct : String} {m : Macro}

theorem balanced_cast {t : DataType} {name value : String} (ht : t.Flat) (hname : Plain name)
    (h : t.cast name = .ok value) : Balanced value := by
  cases t with
  | primitive p =>
    have hcast : ∀ p : Primitive, Balanced ("(" ++ p.castType ++ ") ") := by
      intro p
      cases p <;> decide
    cases p <;> cases h <;> first | exact hname.balanced | exact (hcast _).append hname.balanced
  | custom _ _ _ => exact ht.elim
  | _ => cases h

/-- A member of a struct that is being filled, or an element of it. -/
theorem balanced_assigned {target value : String} (htarget : Balanced target) (hvalue : Balanced value) :
    Balanced (target ++ " = " ++ value) :=
  (Passes.append htarget (.chars rfl)).append hvalue

theorem balanced_converted {target name : String} (htarget : Balanced target) (hname : Plain name) {call : String}
    (hcall : Balanced call) : Balanced (target ++ " = " ++ name ++ call) :=
  Passes.append (balanced_assigned htarget hname.balanced) hcall

theorem balanced_elementAssignment {target action : String} {element : DataType} (htarget : Balanced target)
    (helement : element.Simple) (h : elementAssignment target element = .ok action) : Balanced action := by
  unfold elementAssignment at h
  split at h
  case h_1 s =>
    cases h
    exact balanced_converted htarget (Dotted.plain helement) (.chars rfl)
  case h_2 e =>
    cases h
    exact balanced_converted htarget (Dotted.plain helement) (.chars rfl)
  case h_3 => cases h; exact htarget.append (.chars rfl)
  case h_4 => cases h; exact htarget.append (.chars rfl)
  case h_5 => cases h
  case h_6 => cases h
  case h_7 t =>
    split at h
    · obtain ⟨value, hvalue, h⟩ := exists_of_bind_eq_ok h
      cases h
      exact balanced_assigned htarget (balanced_cast helement.flat (by decide) hvalue)
    · obtain ⟨name, -, h⟩ := exists_of_bind_eq_ok h
      cases h

theorem balanced_quote {name : String} (h : Plain name) : Balanced (Access.quote name) :=
  h.between ⟨.literal, []⟩ (.chars rfl) (by decide) (.chars rfl)

theorem balanced_withAttribute {name : String} {action : Macro} (hname : Plain name) (haction : action.Balanced) :
    (Access.withAttribute (.text "python_struct") name action).Balanced := by
  simp +decide [Access.withAttribute, balanced_quote hname, haction]

theorem balanced_elements {name target action loop : String} {type element : DataType} {size : Except Fault Value}
    (hname : Plain name) (htarget : Balanced target) (hloop : Plain loop) (htype : type.element = .ok element)
    (helement : element.Simple) (haction : elementAssignment target element = .ok action)
    (hsize : ∀ v, size = .ok v → ∀ text, v.text? = .ok text → Balanced text)
    (h : (do
      let elements : Macro ← (do
        let element ← type.element
        let spelling ← element.spelling
        let size ← size
        return .call loop [.text "python_value", .value spelling.value, .value size, .text action])
      return Access.withAttribute (.text "python_struct") name elements) = Except.ok m) : m.Balanced := by
  obtain ⟨elements, helements, h⟩ := exists_of_bind_eq_ok h
  obtain ⟨element, helement', helements⟩ := exists_of_bind_eq_ok helements
  cases htype.symm.trans helement'
  obtain ⟨spelling, hspelling, helements⟩ := exists_of_bind_eq_ok helements
  obtain ⟨v, hv, helements⟩ := exists_of_bind_eq_ok helements
  obtain ⟨text, rfl, htext⟩ := helement.spelling hspelling
  cases helements
  cases h
  have htype : (Macro.value (Spelling.plain text).value).Balanced := Macro.balanced_text.mpr htext.balanced
  have hvalue : (Macro.value v).Balanced := hsize v hv
  have haction := balanced_elementAssignment htarget helement haction
  exact balanced_withAttribute hname (by simp +decide [hloop, htype, hvalue, haction])

theorem balanced_assignment (hname : Plain f.name) (htype : f.type.Flat) (h : assignment struct f = .ok m) :
    m.Balanced := by
  have htarget : Plain ("result." ++ f.name) := by simp +decide [hname]
  have hitem : Balanced ("result." ++ f.name ++ "[item_index]") := htarget.balanced.append (.chars rfl)
  have hcall : Balanced "_to_c(python_value)" := .chars rfl
  unfold assignment at h
  split at h
  case h_1 s hs =>
    cases h
    rw [hs] at htype
    have haction := balanced_converted htarget.balanced (Dotted.plain htype) hcall
    exact balanced_withAttribute hname (Macro.balanced_text.mpr haction)
  case h_2 e he =>
    cases h
    rw [he] at htype
    have haction := balanced_converted htarget.balanced (Dotted.plain htype) hcall
    exact balanced_withAttribute hname (Macro.balanced_text.mpr haction)
  case h_3 =>
    cases h
    have haction : Balanced ("result." ++ f.name ++ " = (float) " ++ f.name) :=
      (htarget.balanced.append (.chars rfl)).append hname.balanced
    exact balanced_withAttribute hname (by simp +decide [Access.float, hname.balanced, haction])
  case h_4 =>
    cases h
    have haction := balanced_assigned htarget.balanced hname.balanced
    exact balanced_withAttribute hname (by simp +decide [Access.float, hname.balanced, haction])
  case h_5 element bound hlist =>
    rw [hlist] at htype
    obtain ⟨action, haction, h⟩ := exists_of_bind_eq_ok h
    refine balanced_elements hname hitem (by decide) rfl htype.1 haction (fun v hv text htext => ?_) h
    cases bound <;> cases hv <;> cases htext
    · decide
    · exact (htype.2 _ rfl).plain.balanced
  case h_6 element length harray =>
    rw [harray] at htype
    obtain ⟨action, haction, h⟩ := exists_of_bind_eq_ok h
    refine balanced_elements hname hitem (by decide) rfl htype.1 haction ?_ h
    rintro _ ⟨⟩ _ ⟨⟩
    exact htype.2.plain.balanced
  case h_7 =>
    split at h
    · obtain ⟨value, hvalue, h⟩ := exists_of_bind_eq_ok h
      cases h
      have haction := balanced_assigned htarget.balanced (balanced_cast htype hname hvalue)
      exact balanced_withAttribute hname (by simp +decide [Access.int64, hname.balanced, haction])
    · obtain ⟨name, -, h⟩ := exists_of_bind_eq_ok h
      cases h

theorem balanced_attributeSetting (hname : Plain f.name) (htype : f.type.Flat) (h : attributeSetting struct f = .ok m) :
    m.Balanced := by
  have hset : ∀ value, Balanced value → (Access.setAttribute f.name value).Balanced := fun value hvalue => by
    simp +decide [Access.setAttribute, balanced_quote hname, hvalue]
  have hvalue := hset "value" (.chars rfl)
  have hpylist := hset "pylist" (.chars rfl)
  have hmember : Plain ("c_struct." ++ f.name) := by simp +decide [hname]
  have hthrough : ∀ macroName, Plain macroName →
      (Macro.call macroName [.text ("c_struct." ++ f.name), .text "value", Access.setAttribute f.name "value"]).Balanced :=
    fun macroName hplain => by simp +decide [hplain, hmember.balanced, hvalue]
  have hconverted : ∀ {label : String}, Plain label → Balanced (label ++ "_to_python(c_struct." ++ f.name ++ ")") := by
    intro label hlabel
    have hopen : Passes (label ++ "_to_python(c_struct.") ⟨.code, []⟩ ⟨.code, [')']⟩ := hlabel.balanced.append (.chars rfl)
    exact hname.between ⟨.code, [')']⟩ hopen (by decide) (.chars rfl)
  unfold attributeSetting at h
  split at h
  case h_1 s hs =>
    cases h
    rw [hs] at htype
    exact hset _ (hconverted (Dotted.plain htype))
  case h_2 e he =>
    cases h
    rw [he] at htype
    exact hset _ (hconverted (Dotted.plain htype))
  case h_3 => cases h; exact hthrough _ (by decide)
  case h_4 => cases h; exact hthrough _ (by decide)
  case h_5 => cases h; exact hthrough _ (by decide)
  case h_6 => cases h; exact hthrough _ (by decide)
  case h_7 element bound hlist =>
    rw [hlist] at htype
    obtain ⟨label, hlabel, h⟩ := exists_of_bind_eq_ok h
    cases h
    have helement : Plain (label ++ "_to_python") := by simp +decide [htype.1.plain_name hlabel]
    simp +decide [hmember.balanced, helement.balanced, hpylist]
  case h_8 element length harray =>
    rw [harray] at htype
    obtain ⟨label, hlabel, h⟩ := exists_of_bind_eq_ok h
    cases h
    have helement : Plain (label ++ "_to_python") := by simp +decide [htype.1.plain_name hlabel]
    simp +decide [hmember.balanced, helement.balanced, htype.2.plain.balanced, hpylist]
  case h_9 =>
    split at h
    · cases h
      exact hthrough _ (by decide)
    · obtain ⟨name, -, h⟩ := exists_of_bind_eq_ok h
      cases h

end

section
variable {package : String} {m : Module} {ds : List Definition}

theorem lines_loadLines {holder path name : String} (hholder : Plain holder) (hpath : Plain path) (hname : Plain name) :
    Lines (loadLines holder path name) [] [] := by
  have hcondition : Passes ("if (" ++ holder ++ " == NULL) \x7b") ⟨.code, []⟩ ⟨.code, ['\x7d']⟩ :=
    hholder.between ⟨.code, [')']⟩ (.chars rfl) (by decide) (.chars rfl)
  have hassigned : Plain ("    " ++ holder) := by simp +decide [hholder]
  have hopen : Passes ("    " ++ holder ++ " = load_class(\"") ⟨.code, []⟩ ⟨.literal, [')']⟩ :=
    hassigned.balanced.append (.chars rfl)
  have hload : Balanced ("    " ++ holder ++ " = load_class(\"" ++ path ++ "\", \"" ++ name ++ "\");") :=
    hname.between ⟨.literal, [')']⟩ (hpath.between ⟨.literal, [')']⟩ hopen (by decide) (.chars rfl)) (by decide) (.chars rfl)
  exact .cons hcondition (.cons (hload.passes ['\x7d']) (.cons (.chars rfl) .nil))

theorem lines_guarded {condition action : String} (hcondition : Balanced condition) (haction : Balanced action) :
    Lines [condition ++ " \x7b", "    " ++ action, "\x7d"] [] [] :=
  Lines.block (.cons haction .nil) hcondition .knr

theorem lines_enumerationToCLines {e : Enumeration} (hname : Dotted e.name) (hvalues : ∀ v ∈ e.values, Dotted v) :
    Lines (enumerationToCLines e) [] [] := by
  have hcase : ∀ v ∈ e.values, Lines ["    case " ++ v ++ ":", "        return " ++ v ++ ";"] [] [] := by
    intro v hv
    have hlabel : Plain ("    case " ++ v ++ ":") := by simp +decide [(hvalues v hv).plain]
    have hreturn : Plain ("        return " ++ v ++ ";") := by simp +decide [(hvalues v hv).plain]
    exact .cons hlabel.balanced (.cons hreturn.balanced .nil)
  have hcases : Lines (e.values.flatMap fun v => ["    case " ++ v ++ ":", "        return " ++ v ++ ";"]) [] [] := by
    refine .flatten fun ls hls => ?_
    obtain ⟨v, hv, rfl⟩ := List.mem_map.mp hls
    exact hcase v hv
  have hfail : Balanced ("        fail_with_message(\"Illegal ordinal value for enum " ++ e.name ++ " [%d]\", ordinal);") :=
    hname.plain.between ⟨.literal, [')']⟩ (.chars rfl) (by decide) (.chars rfl)
  -- The brace of the switch stands in the lines before the cases and is due up to the last line.
  refine .append (.cons (.chars rfl) (.cons (.chars rfl) (.cons (.chars rfl) (.cons (.chars rfl) (.cons (.chars rfl)
    (.cons (.chars rfl) (.cons (.chars rfl) (.cons (.chars rfl) (.cons (.chars rfl) (.cons (.chars rfl) .nil))))))))))
    ((hcases.under ['\x7d']).append ?_)
  exact .cons (.chars rfl) (.cons (hfail.passes ['\x7d']) (.cons (.chars rfl) .nil))

theorem lines_enumerationToPythonLines {path : String} {e : Enumeration} (hpath : Plain path) (hname : Plain e.name) :
    Lines (enumerationToPythonLines path e) [] [] := by
  have hfail : Balanced ("fail_with_message(\"Unable to convert ordinal value [%d] to enum " ++ e.name ++ ": \", value);") :=
    hname.between ⟨.literal, [')']⟩ (.chars rfl) (by decide) (.chars rfl)
  have hguarded := lines_guarded (show Balanced "if (result == NULL)" from .chars rfl) hfail
  exact .cons (.chars rfl) ((lines_loadLines (by decide) hpath hname).append
    (.cons (.chars rfl) (hguarded.append (.cons (.chars rfl) .nil))))

theorem lines_structToPythonStart {path : String} {s : Struct} (hpath : Plain path) (hname : Plain s.name) :
    Lines (structToPythonStart path s) [] [] := by
  have hfail : Balanced ("fail_with_message(\"Unable to instantiate struct " ++ s.name ++ "\");") :=
    hname.between ⟨.literal, [')']⟩ (.chars rfl) (by decide) (.chars rfl)
  have hguarded := lines_guarded (show Balanced "if (result == NULL)" from .chars rfl) hfail
  exact .cons (.chars rfl) ((lines_loadLines (by decide) hpath hname).append (.cons (.chars rfl) hguarded))

theorem lines_statements {s : Struct} {statement : String → Field → Except Fault Macro} {lss : List (List String)}
    (hall : ∀ f ∈ s.fields, ∀ call, statement s.name f = .ok call → call.Balanced)
    (h : s.fields.mapM (fun f => do (← statement s.name f).statementLines) = .ok lss) : ∀ ls ∈ lss, Lines ls [] [] := by
  intro ls hls
  obtain ⟨f, hf, hlines⟩ := exists_source_of_mem h hls
  obtain ⟨call, hcall, hlines⟩ := exists_of_bind_eq_ok hlines
  exact Macro.lines_statementLines (hall f hf call hcall) hlines

theorem nested_definitions (hm : m.Dotted) (hpackage : Dotted package) (h : definitions package m = .ok ds) :
    ∀ d ∈ ds, d.Nested := by
  have hpath : Plain (classPath package m) := by simp +decide [classPath, hpackage.plain, hm.name.plain]
  intro d hd
  rcases (mem_collect_iff h).mp hd with ⟨e, he, l, hl, hd⟩ | ⟨s, hs, l, hl, hd⟩
  · obtain ⟨hname, -, hvalues⟩ := hm.enumerations e he
    obtain ⟨c, hc, hl⟩ := exists_of_bind_eq_ok hl
    have hc := plain_enumerationName hname.plain hc
    cases hl
    simp only [List.mem_cons, List.not_mem_nil, or_false] at hd
    rcases hd with rfl | rfl
    · exact .of_parts hc (by simp +decide [hname.plain]) (by decide) (lines_enumerationToCLines hname hvalues) (by simp) .nil
    · exact .of_parts (by decide) (by simp +decide [hname.plain]) (by simp +decide [hc])
        (lines_enumerationToPythonLines hpath hname.plain) (by simp) .nil
  · obtain ⟨hname, -, hfields⟩ := hm.structs s hs
    obtain ⟨c, fs, ss, hc, hfs, hss, rfl⟩ := of_structDefinitions_eq_ok hl
    have hc := plain_structName hname.plain hc
    have hresult : Balanced (c ++ " result = \x7b0\x7d;") := hc.balanced.append (.chars rfl)
    simp only [List.mem_cons, List.not_mem_nil, or_false] at hd
    rcases hd with rfl | rfl
    · have hblocks := lines_statements
        (fun f hf _ => balanced_assignment (hfields f hf).1.plain (hfields f hf).2.1) hfs
      exact .of_parts hc (by simp +decide [hname.plain]) (by decide) (.cons hresult .nil) hblocks (by decide)
    · have hblocks := lines_statements
        (fun f hf _ => balanced_attributeSetting (hfields f hf).1.plain (hfields f hf).2.1) hss
      exact .of_parts (by decide) (by simp +decide [hname.plain]) (by simp +decide [hc])
        (lines_structToPythonStart hpath hname.plain) hblocks (by decide)

end

end Conversion

/-! ### All texts -/

/-- The C texts of a module with dotted names, flat types and no comments are well nested, whatever its string constants
hold. -/
theorem texts_bracketed {m : Module} (hm : m.Dotted) {style : Style} (hstyle : style = .knr ∨ style = .bsd)
    {package : String} (hpackage : Dotted package) :
    (∀ w, Header.run style m .braced = .ok () w → ∃ text, headerText style m = .ok text ∧ Bracketed text) ∧
    (∀ t, Conversion.run package m ⟨.braced, .braced⟩ = .ok () t → ∃ header code,
      conversionTexts package m = .ok (header, code) ∧ Bracketed header ∧ Bracketed code) ∧
    ∀ t, Printers.run style m ⟨.braced, .braced⟩ = .ok () t → ∃ header code,
      printerTexts style m = .ok (header, code) ∧ Bracketed header ∧ Bracketed code := by
  refine ⟨fun w hw => ?_, fun t ht => ?_, fun t ht => ?_⟩
  · obtain ⟨text, htext⟩ := (Header.gives_text style m).exists_of_ok hw
    refine ⟨text, htext, ?_⟩
    rw [headerText_eq] at htext
    obtain ⟨ls, hls, htext⟩ := exists_of_bind_eq_ok htext
    cases htext
    exact .of_lines (Header.lines_headerLines hstyle hm hls)
  · obtain ⟨⟨header, code⟩, htexts⟩ := (Conversion.gives_texts package m).exists_of_ok ht
    refine ⟨header, code, htexts, ?_⟩
    rw [conversionTexts_eq] at htexts
    exact Sourcing.bracketed_texts (fun ds hds => Conversion.nested_definitions hm hpackage hds) htexts
  · obtain ⟨⟨header, code⟩, htexts⟩ := (Printers.gives_texts hstyle m).exists_of_ok ht
    refine ⟨header, code, htexts, ?_⟩
    rw [printerTexts_eq hstyle] at htexts
    exact Sourcing.bracketed_texts (fun ds hds => Printers.nested_definitions hm hds) htexts

def state : Enumeration :=
  ⟨"State", ["IDLE", "BUSY"], .int 0, .bool true, .text "e"⟩

/-- A struct with a name beyond ASCII and with members of several sorts. -/
def machine : Struct :=
  ⟨"MaschineÄ", [⟨"id", .primitive .uint16, none⟩, ⟨"state", .enumeration state, some ""⟩,
    ⟨"log", .array (.enumeration state) "LOG_SIZE", none⟩], .bool false, .nothing⟩

/-- A module with a string constant of brackets, quotes and backslashes. -/
def workshop : Module :=
  ⟨"workshop", [⟨"MOTTO", .text "(\"[\\\x7b\n"⟩, ⟨"LOG_SIZE", .int 8⟩], [machine], [state]⟩

theorem workshop_texts_bracketed : workshop.Dotted ∧ (∃ header, headerText .bsd workshop = .ok header ∧ Bracketed header) ∧
    (∃ header code, conversionTexts "lib." workshop = .ok (header, code) ∧ Bracketed header ∧ Bracketed code) ∧
    ∃ header code, printerTexts .bsd workshop = .ok (header, code) ∧ Bracketed header ∧ Bracketed code := by
  have hm : workshop.Dotted := {
    name := by decide
    constants := by simp +decide
    enumerations := by decide
    structs := by simp +decide [workshop, machine, DataType.Flat, DataType.Simple, state] }
  obtain ⟨hheader, hconversion, hprinters⟩ := texts_bracketed hm (.inr rfl) (show Dotted "lib." by decide)
  obtain ⟨w, hw⟩ := of_outcome_eq_ok (show outcome (Header.run .bsd workshop) .braced = .ok () by decide +kernel)
  obtain ⟨t, ht⟩ := of_outcome_eq_ok
    (show outcome (Conversion.run "lib." workshop) ⟨.braced, .braced⟩ = .ok () by decide +kernel)
  obtain ⟨t', ht'⟩ := of_outcome_eq_ok
    (show outcome (Printers.run .bsd workshop) ⟨.braced, .braced⟩ = .ok () by decide +kernel)
  exact ⟨hm, hheader w hw, hconversion t ht, hprinters t' ht'⟩

end Emit

end CodeBridge
