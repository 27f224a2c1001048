import CodeBridge.Proofs.HeaderLines
import CodeBridge.Proofs.Tags

/-! # Names of types

The type that a definition in the header defines, compared with the name by which other generated code refers
to it. Both are the keyword and the tag when the definition is no `typedef`. A `typedef` is defined under the
suffix of the schema but referred to under a fixed one, so that the two agree only for that suffix. -/

namespace CodeBridge.Emit

open Writing

namespace Header

/-! ### What a definition defines -/

/-- The lines of a definition define this type: a `typedef` names it behind its closing brace, any other
definition before its opening brace. -/
inductive Defines (style : Style) (keyword : String) : List String → String → Prop where
  | typedef {start : List String} (h : style.opening ("typedef " ++ keyword) = .ok start) (body : List String)
      (type : String) : Defines style keyword (start ++ body ++ ["\x7d " ++ type ++ ";", ""]) type
  | tagged {start : List String} (tag : String) (h : style.opening (keyword ++ " " ++ tag) = .ok start)
      (body : List String) : Defines style keyword (start ++ body ++ ["\x7d;", ""]) (keyword ++ " " ++ tag)

/-- The type that is defined for a tag. -/
def definedType (keyword tag : String) (typedef suffix : Value) : String :=
  if typedef.truthy then tag ++ suffixText suffix else keyword ++ " " ++ tag

theorem opening_inj {style : Style} {a b : String} {s t x y : List String} (ha : style.opening a = .ok s)
    (hb : style.opening b = .ok t) (h : s ++ x = t ++ y) : a = b := by
  cases style with
  | unknown given => cases ha
  | knr =>
    cases ha
    cases hb
    have hline := (List.cons.inj h).1
    exact (String.append_left_inj _).mp hline
  | bsd =>
    cases ha
    cases hb
    exact (List.cons.inj h).1

theorem defines_typedef_iff {style : Style} {keyword : String} {start : List String}
    (hstart : style.opening ("typedef " ++ keyword) = .ok start) (members : List String) (defined type : String) :
    Defines style keyword (start ++ members ++ ["\x7d " ++ defined ++ ";", ""]) type ↔ type = defined := by
  constructor
  · intro hdefines
    generalize hls : start ++ members ++ ["\x7d " ++ defined ++ ";", ""] = ls at hdefines
    -- The closing line alone tells the two kinds of definition apart.
    cases hdefines with
    | typedef _ body =>
      have hline := (List.cons.inj (List.append_inj_right' hls rfl)).1
      exact ((String.append_right_inj _).mp ((String.append_left_inj _).mp hline)).symm
    | tagged tag _ body =>
      have hline := congrArg String.toList (List.cons.inj (List.append_inj_right' hls rfl)).1
      simp at hline
  · rintro rfl
    exact .typedef hstart members type

theorem defines_tagged_iff {style : Style} {keyword tag : String} {start : List String}
    (hstart : style.opening (keyword ++ " " ++ tag) = .ok start) (members : List String) (type : String) :
    Defines style keyword (start ++ members ++ ["\x7d;", ""]) type ↔ type = keyword ++ " " ++ tag := by
  constructor
  · intro hdefines
    generalize hls : start ++ members ++ ["\x7d;", ""] = ls at hdefines
    cases hdefines with
    | typedef _ body =>
      have hline := congrArg String.toList (List.cons.inj (List.append_inj_right' hls rfl)).1
      simp at hline
    | tagged tag' hstart' body =>
      rw [List.append_assoc, List.append_assoc] at hls
      exact (opening_inj hstart hstart' hls).symm
  · rintro rfl
    exact .tagged tag hstart members

/-- A definition defines the type of its tag and no other. -/
theorem defines_iff {style : Style} {keyword name tag : String} {typedef suffix : Value}
    {body : Except Fault (List String)} {ls : List String} (htag : Name.snake name = .ok tag)
    (h : definitionLines style keyword name typedef suffix body = .ok ls) (type : String) :
    Defines style keyword ls type ↔ type = definedType keyword tag typedef suffix := by
  obtain ⟨head, start, close, lines, hhead, hstart, hclose, -, rfl⟩ := definitionLines_eq_ok h
  rw [opening, htag] at hhead
  rw [ending, htag] at hclose
  unfold definedType
  split at hhead
  · next ht =>
    rw [if_pos ht] at hclose
    cases hhead
    cases hclose
    have hend : "\x7d" ++ (" " ++ tag ++ suffixText suffix ++ ";") = "\x7d " ++ (tag ++ suffixText suffix) ++ ";" := by
      rw [← String.toList_inj]
      simp
    rw [if_pos ht, hend]
    exact defines_typedef_iff hstart _ _ type
  · next ht =>
    rw [if_neg ht] at hclose
    cases hhead
    cases hclose
    rw [if_neg ht]
    exact defines_tagged_iff hstart _ type

end Header

/-! ### How a type is referred to -/

theorem suffixText_eq_iff {p mark : String} (hmark : mark ≠ "") : suffixText (.text p) = "_" ++ mark ↔ p = mark := by
  by_cases hp : p = ""
  · have hempty : suffixText (.text p) = "" := by rw [hp]; rfl
    rw [hempty, hp]
    constructor
    · intro h
      have hlist := congrArg String.toList h
      simp at hlist
    · exact fun h => absurd h.symm hmark
  · have htext : suffixText (.text p) = "_" ++ p := by
      have htruthy : (Value.text p).truthy = true := by simpa [Value.truthy] using hp
      rw [suffixText, if_pos htruthy]
      rfl
    rw [htext]
    exact String.append_right_inj _

/-- A reference under a fixed mark meets the type that is defined, unless a `typedef` has another suffix. -/
theorem reference_eq_definedType_iff (keyword mark tag suffix : String) (hmark : mark ≠ "") (typedef : Value) :
    (if typedef.truthy then tag ++ ("_" ++ mark) else keyword ++ " " ++ tag) =
      Header.definedType keyword tag typedef (.text suffix) ↔ (typedef.truthy = true → suffix = mark) := by
  unfold Header.definedType
  by_cases ht : typedef.truthy = true
  · rw [if_pos ht, if_pos ht, String.append_right_inj, eq_comm, suffixText_eq_iff hmark]
    simp [ht]
  · rw [if_neg ht, if_neg ht]
    simp [ht]

/-! ### Printers -/

theorem Printers.header_of_declaration {name : Except Fault String} {signature : String → String}
    {code : String → Writing Unit} {t t' : Sources}
    (h : (do
      let name ← Sourcing.check name
      Sourcing.inHeader (line (signature name ++ ";"))
      Sourcing.inCode (code name) : Sourcing Unit) t = .ok () t') {referenced : String} (hname : name = .ok referenced) :
    t'.header = t.header.putLine (signature referenced ++ ";") := by
  subst hname
  exact (Sourcing.of_inCode (t := ⟨t.header.putLine (signature referenced ++ ";"), t.code⟩) h).2

/-! ### References and definitions -/

/-- What was written after `w` defines this type and no other. -/
def Declares (style : Style) (keyword : String) (w w' : Writer) (type : String) : Prop :=
  ∃ ls, w' = w.addLines ls ∧ ∀ t, Header.Defines style keyword ls t ↔ t = type

theorem cName_eq_declared_iff {style : Style} (keyword mark : String) (hmark : mark ≠ "") {name suffix : String}
    {typedef : Value} (hname : name ≠ "") {x : Writing Unit} {body : Except Fault (List String)}
    (hx : Yields x (Header.definitionLines style keyword name typedef (.text suffix) body)) :
    ∃ referenced defined, cName (keyword ++ " ") ("_" ++ mark) name typedef = .ok referenced ∧
      (∀ w w' : Writer, w.Ready → x w = .ok () w' → Declares style keyword w w' defined) ∧
      (referenced = defined ↔ (typedef.truthy = true → suffix = mark)) := by
  obtain ⟨c, -, htag⟩ := Name.snake_eq hname
  generalize String.ofList _ = tag at htag
  refine ⟨_, Header.definedType keyword tag typedef (.text suffix), by rw [cName, htag]; rfl, ?_,
    reference_eq_definedType_iff keyword mark tag suffix hmark typedef⟩
  intro w w' hw h
  obtain ⟨ls, hls, rfl⟩ := hx.of_ok hw h
  exact ⟨ls, rfl, Header.defines_iff htag hls⟩

/-- Generated code refers to a struct or an enumeration by the type that the header defines for it, unless it is
a `typedef` with a suffix other than `t` for structs and `e` for enumerations. -/
theorem spelling_eq_defined_iff (style : Style) (suffix : String) :
    (∀ s : Struct, s.name ≠ "" → s.suffix = .text suffix →
      ∃ referenced defined, (DataType.struct s).spelling = .ok (.plain referenced) ∧
        (∀ t t' : Sources, Printers.struct style s t = .ok () t' → t'.header = t.header.putLine
          ("void " ++ referenced ++ "_to_string(" ++ referenced ++
            " value, struct OutputHandler *out, size_t indentation)" ++ ";")) ∧
        (∀ w w' : Writer, w.Ready → Header.struct style s w = .ok () w' → Declares style "struct" w w' defined) ∧
        (referenced = defined ↔ (s.typedef.truthy = true → suffix = "t"))) ∧
    (∀ e : Enumeration, e.name ≠ "" → e.suffix = .text suffix →
      ∃ referenced defined, (DataType.enumeration e).spelling = .ok (.plain referenced) ∧
        (∀ t t' : Sources, Printers.enumeration style e t = .ok () t' → t'.header = t.header.putLine
          ("void " ++ referenced ++ "_to_string(" ++ referenced ++ " value, struct OutputHandler *out)" ++ ";")) ∧
        (∀ w w' : Writer, w.Ready → Header.enumeration style e w = .ok () w' → Declares style "enum" w w' defined) ∧
        (referenced = defined ↔ (e.typedef.truthy = true → suffix = "e"))) := by
  constructor
  · intro s hname hsuffix
    have hyields := Header.yields_struct style s
    rw [Header.structLines, hsuffix] at hyields
    obtain ⟨referenced, defined, hreferenced, hdefined, hiff⟩ :=
      cName_eq_declared_iff "struct" "t" (by decide) hname hyields
    have hspelling : (DataType.struct s).spelling = Spelling.plain <$> .ok referenced := congrArg _ hreferenced
    exact ⟨referenced, defined, hspelling, fun t t' h => Printers.header_of_declaration h hreferenced, hdefined, hiff⟩
  · intro e hname hsuffix
    have hyields := Header.yields_enumeration style e
    rw [Header.enumerationLines, hsuffix] at hyields
    obtain ⟨referenced, defined, hreferenced, hdefined, hiff⟩ :=
      cName_eq_declared_iff "enum" "e" (by decide) hname hyields
    have hspelling : (DataType.enumeration e).spelling = Spelling.plain <$> .ok referenced := congrArg _ hreferenced
    exact ⟨referenced, defined, hspelling, fun t t' h => Printers.header_of_declaration h hreferenced, hdefined, hiff⟩

/-- A struct that the header defines by a `typedef` with this suffix. -/
def point (suffix : String) : Struct :=
  ⟨"Point", [⟨"x", .primitive .int32, none⟩], .bool true, .text suffix⟩

theorem spelling_eq_defined_point :
    (point "t").name ≠ "" ∧ (point "t").suffix = .text "t" ∧ Writer.braced.Ready ∧
      (DataType.struct (point "t")).spelling = .ok (.plain "point_t") ∧
      ∃ w, Header.struct .knr (point "t") Writer.braced = .ok () w ∧ Declares .knr "struct" Writer.braced w "point_t" := by
  obtain ⟨referenced, defined, hspelling, -, hdeclares, hiff⟩ :=
    (spelling_eq_defined_iff .knr "t").1 (point "t") (by decide) rfl
  have hspelling' : (DataType.struct (point "t")).spelling = .ok (.plain "point_t") := rfl
  cases hspelling'.symm.trans hspelling
  cases hiff.mpr fun _ => rfl
  exact ⟨by decide, rfl, Writer.braced_ready, rfl, _, rfl, hdeclares _ _ Writer.braced_ready rfl⟩

/-- With another suffix the header defines one type and generated code names another. -/
theorem spelling_ne_defined_point :
    (DataType.struct (point "x")).spelling = .ok (.plain "point_t") ∧
      headerText .knr ⟨"shapes", [], [point "x"], []⟩ =
        .ok "typedef struct \x7b\n    int32_t x;\n\x7d point_x;\n\n" :=
  ⟨rfl, rfl⟩

end CodeBridge.Emit
