import CodeBridge.Emit.Dataclasses
import CodeBridge.Proofs.ConversionFunctions
import CodeBridge.Proofs.HeaderContents
import CodeBridge.Proofs.PrinterFunctions

/-! # Enumerations in all texts

The values of an enumeration are counted from its first ordinal on. The header and the class assign the same number
to each value, and the functions that switch over the values have one case for each of them, in their order. -/

namespace CodeBridge.Emit

open Text Writing

/-! ### Assignments -/

/-- The values with their numbers, which are counted from `first` on. -/
def numbered (first : Int) (values : List String) : List (String × Int) :=
  values.mapIdx fun i value => (value, first + i)

/-- A value with the number that is assigned to it. -/
def assigned (p : String × Int) : String :=
  p.1 ++ " = " ++ Decimal.intText p.2

/-- Lines with a comma behind each of them but the last. -/
def separated : List String → List String
  | [] => []
  | [l] => [l]
  | l :: ls => (l ++ ",") :: separated ls

theorem numbered_cons (first : Int) (value : String) (values : List String) :
    numbered first (value :: values) = (value, first) :: numbered (first + 1) values := by
  have hshift : ∀ i : Nat, first + ((i : Int) + 1) = first + 1 + i := fun i => by omega
  simp [numbered, List.mapIdx_cons, hshift]

/-- The assignments to the values, which are refused if one of the numbers has too many digits. -/
def assignments (first : Int) : List String → Except Fault (List String)
  | [] => .ok []
  | value :: rest => do
    let text ← (Value.int first).text?
    return (value ++ " = " ++ text) :: (← assignments (first + 1) rest)

theorem assignments_of_writable {first : Int} {values : List String} (h : CodeBridge.Header.Writable first values.length) :
    assignments first values = .ok ((numbered first values).map assigned) := by
  induction values generalizing first with
  | nil => rfl
  | cons value values ih =>
    rw [assignments, CodeBridge.Header.text?_int h.head, ih h.tail, numbered_cons]
    rfl

theorem of_assignments_eq_ok {first : Int} {values ls : List String} (h : assignments first values = .ok ls) :
    CodeBridge.Header.Writable first values.length ∧ ls = (numbered first values).map assigned := by
  have hwritable : CodeBridge.Header.Writable first values.length := by
    induction values generalizing first ls with
    | nil => exact fun i hi => absurd hi (Nat.not_lt_zero i)
    | cons value values ih =>
      obtain ⟨text, htext, h⟩ := exists_of_bind_eq_ok h
      obtain ⟨rest, hrest, -⟩ := exists_of_bind_eq_ok h
      exact .cons (CodeBridge.Header.of_text?_int_eq_ok htext).1 (ih hrest)
  rw [assignments_of_writable hwritable] at h
  cases h
  exact ⟨hwritable, rfl⟩

/-! ### The header -/

theorem ordinalLines_eq (pending : String) (first : Int) (values : List String) :
    Header.ordinalLines pending (.int first) values = (do return separated (pending :: (← assignments first values))) := by
  induction values generalizing pending first with
  | nil => rfl
  | cons value values ih =>
    rw [Header.ordinalLines, assignments]
    cases (Value.int first).text? with
    | error fault => rfl
    | ok text =>
      show (do return (pending ++ ",") :: (← Header.ordinalLines (value ++ " = " ++ text) (.int (first + 1)) values)) = _
      rw [ih]
      cases assignments (first + 1) values with
      | error fault => rfl
      | ok ls => rfl

theorem valueLines_eq (first : Int) {values : List String} (hne : values ≠ []) :
    Header.valueLines (.int first) values = (do return separated (← assignments first values)) := by
  cases values with
  | nil => exact absurd rfl hne
  | cons value values =>
    rw [Header.valueLines, assignments]
    cases (Value.int first).text? with
    | error fault => rfl
    | ok text =>
      show Header.ordinalLines (value ++ " = " ++ text) (.int (first + 1)) values = _
      rw [ordinalLines_eq]
      cases assignments (first + 1) values with
      | error fault => rfl
      | ok ls => rfl

/-! ### The class -/

namespace Dataclasses

theorem yields_ordinals (b : Brackets) (first : Int) (values : List String) :
    YieldsFor b (ordinals (.int first) values) (assignments first values) := by
  induction values generalizing first with
  | nil => exact .pure
  | cons value values ih =>
    rw [ordinals, assignments]
    -- Whether there is a text is decided at a power of ten with thousands of digits, which must stay closed.
    generalize (Value.int first).text? = outcome
    refine .check fun text _ => ?_
    have hboth := (YieldsFor.line (value ++ " = " ++ text)).bind (ih (first + 1))
    generalize assignments (first + 1) values = rest at hboth ⊢
    cases rest with
    | error fault => exact hboth
    | ok ls => exact hboth

/-- The lines of the class of an enumeration. -/
def enumerationLines (name : String) (body : List String) : List String :=
  ["class " ++ name ++ "(Enum):"] ++ body.map indented ++ ["", ""]

theorem yields_enumeration {e : Enumeration} {first : Int} (hfirst : e.first = .int first) :
    YieldsFor ⟨"", ""⟩ (enumeration e) (do return enumerationLines e.name (← assignments first e.values)) := by
  have hopens := opensFor_write ("class " ++ e.name ++ "(Enum):") ""
  have hall := (YieldsFor.block hopens (yields_ordinals _ first e.values) "").bind (YieldsFor.line "")
  rw [bind_assoc] at hall
  unfold enumeration
  rw [hfirst]
  generalize assignments first e.values = body at hall ⊢
  cases body with
  | error fault => exact hall
  | ok ls =>
    show YieldsFor _ _ (.ok (["class " ++ e.name ++ "(Enum):"] ++ ls.map indented ++ (["" ++ ""] ++ [""])))
    rw [← List.append_assoc]
    exact hall

end Dataclasses

/-! ### Labels of a switch -/

/-- What a line of a switch is labelled with. -/
inductive Label where
  | value (name : String)
  | default
deriving DecidableEq

/-- The label in a line, wherever the line is indented to. -/
def label? (l : String) : Option Label :=
  if trim l.toList = "default:".toList then some .default
  else
    match CodeBridge.Header.behind? "case ".toList (trim l.toList) with
    | some rest => if rest.getLast? = some ':' then some (.value (String.ofList rest.dropLast)) else none
    | none => none

@[simp] theorem label?_indented (l : String) : label? (indented l) = label? l := by
  have htrim : trim (indented l).toList = trim l.toList := by
    rw [indented, String.toList_append]
    exact trim_blanks_append (by decide) _
  rw [label?, htrim, label?]

theorem label?_value (value : String) : label? ("case " ++ value ++ ":") = some (.value value) := by
  have hlist : ("case " ++ value ++ ":").toList = "case ".toList ++ (value.toList ++ [':']) := by simp
  have hsolid : Solid ("case ".toList ++ (value.toList ++ [':'])) :=
    .append ⟨'c', rfl, rfl⟩ ⟨':', by simp, rfl⟩
  rw [label?, hlist, hsolid.trim_eq, if_neg (by simp), CodeBridge.Header.behind?_append]
  simp

theorem label?_default : label? "default:" = some .default := by
  decide

/-- A line that ends with anything else than a colon has no label. -/
theorem label?_of_end (l tail : String) (h : (tail.toList.getLast?.any fun c => !isBlank c && c != ':') = true) :
    label? (l ++ tail) = none := by
  obtain ⟨c, hc, hplain⟩ := (Option.any_eq_true _ _).mp h
  obtain ⟨hblank, hcolon⟩ : isBlank c = false ∧ c ≠ ':' := by simpa using hplain
  have hlast : (trim (l ++ tail).toList).getLast? = some c := by
    refine getLast?_trim ?_ hblank
    rw [String.toList_append, List.getLast?_append, hc, Option.some_or]
  have hne : (trim (l ++ tail).toList).getLast? ≠ some ':' := by
    rw [hlast]
    exact fun e => hcolon (Option.some.inj e)
  rw [label?, if_neg fun e => hne (by rw [e]; rfl)]
  split
  · next rest hrest =>
    rw [CodeBridge.Header.behind?_eq_some_iff.mp hrest, List.getLast?_append] at hne
    rw [if_neg fun e => hne (by rw [e, Option.some_or])]
  · rfl

theorem filterMap_label?_block {style : Style} {head : String} (hhead : label? head = none) (ls : List String) :
    (style.heading head ++ ls.map indented ++ ["\x7d"]).filterMap label? = ls.filterMap label? := by
  have hstart : (style.heading head).filterMap label? = [] := by
    have hbrace : label? (head ++ " \x7b") = none := label?_of_end head _ (by decide)
    cases style with
    | knr => simp [Style.heading, hbrace]
    | unknown given => simp [Style.heading, hbrace]
    | bsd => simp [Style.heading, hhead, show label? "\x7b" = none by decide]
  have hclose : label? "\x7d" = none := by decide
  rw [List.filterMap_append, List.filterMap_append, hstart, List.filterMap_map]
  simp [hclose]

/-- The labels in a definition are those in its body. -/
theorem filterMap_label?_lines (style : Style) (d : Definition) :
    (d.lines style).filterMap label? = d.body.filterMap label? := by
  have hsignature : label? d.function.signature = none := label?_of_end _ ")" (by decide)
  have hlines : d.lines style = style.heading d.function.signature ++ d.body.map indented ++ ["\x7d"] ++ [""] := by
    simp [Definition.lines]
  rw [hlines, List.filterMap_append, filterMap_label?_block hsignature]
  simp [show label? "" = none by decide]

/-- The cases of a switch, each of which ends with a line without a label, and the default case behind them. -/
theorem labels_cases {cases : String → List String} (hcase : ∀ v, (cases v).filterMap label? = [.value v])
    {last : List String} (hlast : last.filterMap label? = [.default]) (values : List String) :
    (values.flatMap cases ++ last).filterMap label? = values.map .value ++ [.default] := by
  rw [List.filterMap_append, hlast]
  congr 1
  induction values with
  | nil => rfl
  | cons v values ih => rw [List.flatMap_cons, List.filterMap_append, hcase, ih, List.map_cons, List.singleton_append]

theorem labels_enumerationToC (e : Enumeration) :
    (Conversion.enumerationToCLines e).filterMap label? = e.values.map .value ++ [.default] := by
  have hstart : ["int ordinal;", "with_attribute(", "    python_enum,", "    \"value\",", "    python_value,",
      "    with_pylong_as_int64(", "        python_value,", "        value,", "        ordinal = (int) value));",
      "switch (ordinal) \x7b"].filterMap label? = [] := by decide
  have hmessage : label? ("        fail_with_message(\"Illegal ordinal value for enum " ++ e.name ++ " [%d]\", ordinal);") = none :=
    label?_of_end _ _ (by decide)
  rw [Conversion.enumerationToCLines, List.filterMap_append, hstart, List.nil_append]
  refine labels_cases (fun v => ?_) ?_ e.values
  · have hvalue : label? ("    case " ++ v ++ ":") = some (.value v) := by
      rw [← label?_value v, ← label?_indented ("case " ++ v ++ ":")]
      simp [indented, ← String.append_assoc]
    have hreturn : label? ("        return " ++ v ++ ";") = none := label?_of_end _ _ (by decide)
    simp [hvalue, hreturn]
  · simp [hmessage, show label? "    default:" = some .default by decide, show label? "\x7d" = none by decide]

theorem labels_printer (style : Style) (e : Enumeration) :
    (Printers.blockLines style "switch (value)" (Printers.switchLines e)).filterMap label? =
      e.values.map .value ++ [.default] := by
  rw [Printers.blockLines, filterMap_label?_block (by decide), Printers.switchLines]
  refine labels_cases (fun v => ?_) ?_ e.values
  · have hprint : label? ("OutputHandler_process(out, \"%s\", \"" ++ v ++ "\");") = none := label?_of_end _ _ (by decide)
    simp [Printers.caseLines, label?_value, hprint, show label? "break;" = none by decide]
  · have hprint : label? ("OutputHandler_process(out, \"Unknown %s value: %d\", \"" ++ e.name ++ "\", value);") = none :=
      label?_of_end _ _ (by decide)
    simp [label?_default, hprint]

/-! ### What is accepted -/

theorem exists_snake_iff {name : String} : (∃ tag, Name.snake name = .ok tag) ↔ name ≠ "" := by
  constructor
  · rintro ⟨tag, htag⟩ rfl
    cases htag
  · intro h
    obtain ⟨c, -, htag⟩ := Name.snake_eq h
    exact ⟨_, htag⟩

theorem exists_cName_iff {keyword mark name : String} {typedef : Value} :
    (∃ c, cName keyword mark name typedef = .ok c) ↔ name ≠ "" := by
  constructor
  · rintro ⟨c, hc⟩
    obtain ⟨tag, htag, -⟩ := exists_of_bind_eq_ok hc
    exact exists_snake_iff.mp ⟨tag, htag⟩
  · exact fun h => exists_cName h keyword mark typedef

/-- A definition needs a name, for its tag or for its type. -/
theorem Header.exists_definitionLines_iff {style : Style} (hstyle : style = .knr ∨ style = .bsd) {keyword name : String}
    {typedef suffix : Value} {body : Except Fault (List String)} :
    (∃ ls, definitionLines style keyword name typedef suffix body = .ok ls) ↔ name ≠ "" ∧ ∃ lines, body = .ok lines := by
  constructor
  · rintro ⟨ls, h⟩
    obtain ⟨head, start, close, lines, hhead, -, hclose, hlines, -⟩ := definitionLines_eq_ok h
    refine ⟨exists_snake_iff.mp ?_, lines, hlines⟩
    unfold opening at hhead
    split at hhead
    · next htypedef =>
      rw [ending, if_pos htypedef] at hclose
      obtain ⟨tag, htag, -⟩ := exists_of_bind_eq_ok hclose
      exact ⟨tag, htag⟩
    · obtain ⟨tag, htag, -⟩ := exists_of_bind_eq_ok hhead
      exact ⟨tag, htag⟩
  · rintro ⟨hname, lines, rfl⟩
    obtain ⟨tag, htag⟩ := exists_snake_iff.mpr hname
    have hstart : ∀ head, style.opening head = .ok (style.heading head) := Style.opening_eq hstyle
    unfold definitionLines opening ending
    split
    · rw [htag]
      exact ⟨_, by simp only [hstart]; rfl⟩
    · rw [htag]
      exact ⟨_, by simp only [hstart]; rfl⟩

/-- From every writer that is ready, `x` succeeds exactly if it is accepted, and then adds lines of which `P` holds. -/
def Writes (b : Brackets) (x : Writing Unit) (accepted : Prop) (P : List String → Prop) : Prop :=
  ∀ w : Writer, w.ReadyFor b →
    ((∃ w', x w = .ok () w') ↔ accepted) ∧ ∀ w', x w = .ok () w' → ∃ ls, w' = w.addLines ls ∧ P ls

theorem Writes.of_yields {b : Brackets} {x : Writing Unit} {r : Except Fault (List String)} (h : YieldsFor b x r)
    {accepted : Prop} (haccepted : (∃ ls, r = .ok ls) ↔ accepted) {P : List String → Prop} (hP : ∀ ls, r = .ok ls → P ls) :
    Writes b x accepted P := by
  intro w hw
  cases r with
  | error fault =>
    obtain ⟨v, hv⟩ := h w hw
    rw [← haccepted]
    simp [hv]
  | ok ls =>
    have hx := h w hw
    refine ⟨⟨fun _ => haccepted.mp ⟨ls, rfl⟩, fun _ => ⟨_, hx⟩⟩, fun w' hw' => ⟨ls, ?_, hP ls rfl⟩⟩
    rw [hx] at hw'
    cases hw'
    rfl

/-- The same for the code that is written beside a header. -/
def WritesCode (x : Sourcing Unit) (accepted : Prop) (P : List String → Prop) : Prop :=
  ∀ t : Sources, t.header.Ready → t.code.Ready →
    ((∃ t', x t = .ok () t') ↔ accepted) ∧ ∀ t', x t = .ok () t' → ∃ ls, t'.code = t.code.addLines ls ∧ P ls

/-- A function that is written if there is a name has the labels of its body. -/
theorem WritesCode.of_definition {style : Style} {x : Sourcing Unit} {c : Except Fault String} {d : String → Definition}
    (h : Sourcing.Defines style x (do return [d (← c)])) {accepted : Prop} (haccepted : (∃ a, c = .ok a) ↔ accepted)
    {labels : List Label} (hlabels : ∀ a, (d a).body.filterMap label? = labels) :
    WritesCode x accepted fun ls => ls.filterMap label? = labels := by
  intro t hheader hcode
  cases c with
  | error fault =>
    obtain ⟨t', ht'⟩ := h t hheader hcode
    rw [← haccepted]
    simp [ht']
  | ok a =>
    have hx : x t = .ok () ⟨_, _⟩ := h t hheader hcode
    refine ⟨⟨fun _ => haccepted.mp ⟨a, rfl⟩, fun _ => ⟨_, hx⟩⟩, fun t' ht' => ⟨(d a).lines style, ?_, ?_⟩⟩
    · rw [hx] at ht'
      cases ht'
      rw [List.flatMap_singleton]
    · exact (filterMap_label?_lines style (d a)).trans (hlabels a)

/-! ### All generators -/

section
variable {e : Enumeration} {first : Int}

theorem writes_header {style : Style} (hstyle : style = .knr ∨ style = .bsd) (hfirst : e.first = .int first)
    (hne : e.values ≠ []) :
    Writes ⟨"\x7b", "\x7d"⟩ (Header.enumeration style e) (e.name ≠ "" ∧ CodeBridge.Header.Writable first e.values.length)
      fun ls => Header.definitionLines style "enum" e.name e.typedef e.suffix
        (.ok (separated ((numbered first e.values).map assigned))) = .ok ls := by
  have hlines : Header.valueLines e.first e.values = (do return separated (← assignments first e.values)) := by
    rw [hfirst, valueLines_eq first hne]
  refine .of_yields (yields_iff.mp (Header.yields_enumeration style e)) ?_ fun ls hls => ?_
  · rw [Header.enumerationLines, Header.exists_definitionLines_iff hstyle, hlines]
    refine and_congr_right fun _ => ⟨?_, fun h => ⟨_, by rw [assignments_of_writable h]; rfl⟩⟩
    rintro ⟨lines, h⟩
    obtain ⟨body, hbody, -⟩ := exists_of_bind_eq_ok h
    exact (of_assignments_eq_ok hbody).1
  · rw [Header.enumerationLines, hlines] at hls
    obtain ⟨head, start, close, lines, hhead, hstart, hclose, h, rfl⟩ := Header.definitionLines_eq_ok hls
    obtain ⟨body, hbody, h⟩ := exists_of_bind_eq_ok h
    rw [hbody, (of_assignments_eq_ok hbody).2] at hls
    exact hls

theorem writes_class (hfirst : e.first = .int first) :
    Writes ⟨"", ""⟩ (Dataclasses.enumeration e) (CodeBridge.Header.Writable first e.values.length)
      fun ls => ls = Dataclasses.enumerationLines e.name ((numbered first e.values).map assigned) := by
  refine .of_yields (Dataclasses.yields_enumeration hfirst) ⟨?_, fun h => ⟨_, by rw [assignments_of_writable h]; rfl⟩⟩ ?_
  · rintro ⟨ls, h⟩
    obtain ⟨body, hbody, -⟩ := exists_of_bind_eq_ok h
    exact (of_assignments_eq_ok hbody).1
  · intro ls h
    obtain ⟨body, hbody, h⟩ := exists_of_bind_eq_ok h
    rw [(of_assignments_eq_ok hbody).2] at h
    exact (Except.ok.inj h).symm

theorem writes_conversion (e : Enumeration) :
    WritesCode (Conversion.enumerationToC e) (e.name ≠ "")
      fun ls => ls.filterMap label? = e.values.map .value ++ [.default] :=
  .of_definition (Conversion.defines_enumerationToC e) exists_cName_iff fun c => by
    simpa [Definition.body] using labels_enumerationToC e

theorem writes_printer {style : Style} (hstyle : style = .knr ∨ style = .bsd) (e : Enumeration) :
    WritesCode (Printers.enumeration style e) (e.name ≠ "")
      fun ls => ls.filterMap label? = e.values.map .value ++ [.default] :=
  .of_definition (Printers.defines_enumeration hstyle e) exists_cName_iff fun c => by
    simpa [Definition.body] using labels_printer style e

end

/-- All generators agree on an enumeration: the header and the class assign the numbers from the first ordinal on to its
values, and either switch has a case for each value and then the default case. A name is needed for all but the class,
and numbers that can be written for the header and the class. -/
theorem generators_agree_on_values {name : String} {values : List String} {first : Int} {typedef : Value} {mark : String}
    {e : Enumeration} (he : Enumeration.make name values (.int first) typedef (.text mark) = .ok e) {style : Style}
    (hstyle : style = .knr ∨ style = .bsd) :
    Writes ⟨"\x7b", "\x7d"⟩ (Header.enumeration style e) (name ≠ "" ∧ CodeBridge.Header.Writable first values.length)
        (fun ls => Header.definitionLines style "enum" name typedef (.text mark)
          (.ok (separated ((numbered first values).map assigned))) = .ok ls) ∧
      Writes ⟨"", ""⟩ (Dataclasses.enumeration e) (CodeBridge.Header.Writable first values.length)
        (fun ls => ls = Dataclasses.enumerationLines name ((numbered first values).map assigned)) ∧
      WritesCode (Conversion.enumerationToC e) (name ≠ "")
        (fun ls => ls.filterMap label? = values.map .value ++ [.default]) ∧
      WritesCode (Printers.enumeration style e) (name ≠ "")
        (fun ls => ls.filterMap label? = values.map .value ++ [.default]) := by
  unfold Enumeration.make at he
  split at he
  · cases he
  · next hvalues =>
    have hne : values ≠ [] := by simpa using hvalues
    cases he
    exact ⟨writes_header hstyle rfl hne, writes_class rfl, writes_conversion _, writes_printer hstyle _⟩

def sign : Enumeration :=
  ⟨"Sign", ["NEGATIVE", "ZERO", "POSITIVE"], .int (-1), .bool true, .text "e"⟩

theorem generators_agree_on_sign :
    Enumeration.make "Sign" ["NEGATIVE", "ZERO", "POSITIVE"] (.int (-1)) (.bool true) (.text "e") = .ok sign ∧
      Header.enumeration .bsd sign Writer.braced = .ok () (Writer.braced.addLines
        ["typedef enum", "\x7b", "    NEGATIVE = -1,", "    ZERO = 0,", "    POSITIVE = 1", "\x7d sign_e;", ""]) ∧
      Dataclasses.enumeration sign Writer.bare = .ok () (Writer.bare.addLines
        ["class Sign(Enum):", "    NEGATIVE = -1", "    ZERO = 0", "    POSITIVE = 1", "", ""]) ∧
      (∃ t ls, Conversion.enumerationToC sign {} = .ok () t ∧ t.code = Writer.braced.addLines ls ∧
        ls.filterMap label? = [.value "NEGATIVE", .value "ZERO", .value "POSITIVE", .default]) ∧
      ∃ t ls, Printers.enumeration .bsd sign {} = .ok () t ∧ t.code = Writer.braced.addLines ls ∧
        ls.filterMap label? = [.value "NEGATIVE", .value "ZERO", .value "POSITIVE", .default] := by
  have hmake : Enumeration.make "Sign" ["NEGATIVE", "ZERO", "POSITIVE"] (.int (-1)) (.bool true) (.text "e") = .ok sign := rfl
  have hstyle : Style.bsd = .knr ∨ Style.bsd = .bsd := .inr rfl
  obtain ⟨hheader, hclass, hconversion, hprinter⟩ := generators_agree_on_values hmake hstyle
  have hwritable : CodeBridge.Header.Writable (-1) 3 := fun i hi => Decimal.tooLong_eq_false 1 (by decide) (by omega)
  have hbraced : Writer.braced.Ready := Writer.braced_ready
  obtain ⟨w, hw⟩ := (hheader Writer.braced (Writer.ready_iff.mp hbraced)).1.mpr ⟨by decide, hwritable⟩
  obtain ⟨ls, rfl, hls⟩ := (hheader Writer.braced (Writer.ready_iff.mp hbraced)).2 w hw
  obtain ⟨v, hv⟩ := (hclass Writer.bare ⟨rfl, by decide, rfl⟩).1.mpr hwritable
  obtain ⟨_, rfl, rfl⟩ := (hclass Writer.bare ⟨rfl, by decide, rfl⟩).2 v hv
  obtain ⟨t, ht⟩ := (hconversion {} hbraced hbraced).1.mpr (by decide)
  obtain ⟨u, hu⟩ := (hprinter {} hbraced hbraced).1.mpr (by decide)
  obtain ⟨converted, hcode, hcases⟩ := (hconversion {} hbraced hbraced).2 t ht
  obtain ⟨printed, hcode', hcases'⟩ := (hprinter {} hbraced hbraced).2 u hu
  have hnumbers : Header.definitionLines .bsd "enum" "Sign" (.bool true) (.text "e")
      (.ok (separated ((numbered (-1) ["NEGATIVE", "ZERO", "POSITIVE"]).map assigned))) = .ok
        ["typedef enum", "\x7b", "    NEGATIVE = -1,", "    ZERO = 0,", "    POSITIVE = 1", "\x7d sign_e;", ""] := by
    decide +kernel
  rw [hnumbers] at hls
  cases hls
  exact ⟨hmake, hw, hv, ⟨t, converted, ht, hcode, hcases⟩, ⟨u, printed, hu, hcode', hcases'⟩⟩

/-- Neither numbers with too many digits nor a missing name are accepted. -/
theorem enumerations_refused :
    (¬∃ w, Header.enumeration .knr ⟨"Edge", ["LAST", "BEYOND"], .int (10 ^ Decimal.digitLimit - 1), .bool false, .text "e"⟩
        Writer.braced = .ok () w) ∧
      ¬∃ w, Header.enumeration .knr ⟨"", ["A", "B"], .int 0, .bool false, .text "e"⟩ Writer.braced = .ok () w := by
  have hready : Writer.braced.ReadyFor ⟨"\x7b", "\x7d"⟩ := Writer.ready_iff.mp Writer.braced_ready
  refine ⟨fun h => ?_, fun h => ?_⟩
  · have hshort := (((writes_header (.inl rfl) rfl (by simp)) Writer.braced hready).1.mp h).2 1 (by decide)
    -- Stated for every exponent, so that the power at the limit is never computed.
    have hpower : ∀ k : Nat, ((10 : Int) ^ k - 1 + ((1 : Nat) : Int)).natAbs = 10 ^ k := fun k => by
      rw [Int.natCast_one, sub_add_cancel, Int.natAbs_pow]
      rfl
    rw [Decimal.tooLong_eq_false_iff, hpower] at hshort
    exact Nat.lt_irrefl _ hshort
  · exact (((writes_header (.inl rfl) rfl (by simp)) Writer.braced hready).1.mp h).1 rfl

end CodeBridge.Emit
