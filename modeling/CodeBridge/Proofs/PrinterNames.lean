import CodeBridge.Proofs.FinishedTexts

/-! # Names of printers

The function that prints a type is named after the type as C spells it. For a `typedef` this is one word, which starts
with the first letter or digit of the name; without one it is a keyword and a tag. So a header declares a function
under a legal name, and a field calls it under a legal name, exactly when the type has a `typedef` and no digit comes
before the first letter of its name. -/

namespace CodeBridge

open Text Name

/-! ### Identifiers -/

def startsWithDigit (cs : List Char) : Bool :=
  cs.head?.any Char.isDigit

/-- A name that does not start with a digit. -/
def IsIdentifier (s : String) : Prop :=
  IsName s ∧ startsWithDigit s.toList = false

instance : DecidablePred IsIdentifier := fun s =>
  inferInstanceAs (Decidable (IsName s ∧ startsWithDigit s.toList = false))

/-- An identifier that is not made of underscores and digits alone. -/
def Lettered (s : String) : Prop :=
  IsIdentifier s ∧ ∃ c ∈ s.toList, c.isAlpha = true

instance : DecidablePred Lettered := fun s =>
  inferInstanceAs (Decidable (IsIdentifier s ∧ ∃ c ∈ s.toList, c.isAlpha = true))

/-- Underscores apart, the name starts with a letter. -/
def Voiced (name : String) : Prop :=
  startsWithDigit (unscored name.toList) = false

theorem startsWithDigit_append {a b : List Char} (h : a ≠ []) : startsWithDigit (a ++ b) = startsWithDigit a := by
  cases a with
  | nil => exact absurd rfl h
  | cons c a => rfl

theorem startsWithDigit_lowered {cs : List Char} (h : ∀ c ∈ cs, c.toNat < 128) :
    startsWithDigit (lowered cs) = startsWithDigit cs := by
  cases cs with
  | nil => rfl
  | cons c cs =>
    have all : ∀ n : Fin 128, lower (Char.ofNat n) ≠ [] ∧
        startsWithDigit (lower (Char.ofNat n)) = (Char.ofNat n).isDigit := by decide
    obtain ⟨hne, hdigit⟩ := of_ascii (p := fun c => lower c ≠ [] ∧ startsWithDigit (lower c) = c.isDigit) all
      (h c List.mem_cons_self)
    rw [lowered, List.flatMap_cons, startsWithDigit_append hne, hdigit]
    rfl

section
variable {keyword mark name c : String} {typedef : Value}

theorem Lettered.exists_tag (hname : Lettered name) : ∃ tag, snake name = .ok tag ∧ IsName tag := by
  obtain ⟨⟨hchars, -⟩, a, ha, halpha⟩ := hname
  refine isName_snake hchars ⟨a, ha, ?_⟩
  rintro rfl
  exact absurd halpha (by decide)

/-- The spelling of a type starts with something that can be seen and has no parenthesis. -/
theorem callable_cName (hkeyword : '(' ∉ keyword.toList) (hfirst : ∃ a ∈ keyword.toList.head?, isBlank a = false)
    (hmark : IsName mark) (hname : Lettered name) (h : cName keyword mark name typedef = .ok c) :
    '(' ∉ c.toList ∧ ∃ a ∈ c.toList.head?, isBlank a = false := by
  obtain ⟨tag, htag, hchars⟩ := hname.exists_tag
  have hparen : ∀ {s : String}, IsName s → '(' ∉ s.toList := fun hs => not_mem_of_forall hs.2 (by decide)
  rw [cName, htag] at h
  cases h
  split
  · have hall := hchars.append hmark
    obtain ⟨a, as, hcons⟩ := List.exists_cons_of_ne_nil hall.1
    exact ⟨hparen hall, a, by rw [hcons]; rfl, isBlank_of_isName (hall.2 a (by simp [hcons]))⟩
  · rw [String.toList_append]
    exact ⟨by simp [hkeyword, hparen hchars], first_append hfirst _⟩

theorem isIdentifier_printer_iff (hkeyword : ' ' ∈ keyword.toList) (hmark : IsName mark) (hname : Lettered name)
    (h : cName keyword mark name typedef = .ok c) :
    IsIdentifier (c ++ "_to_string") ↔ typedef.truthy = true ∧ Voiced name := by
  obtain ⟨tag, htag, hchars⟩ := hname.exists_tag
  have hascii : ∀ a ∈ name.toList, a.toNat < 128 := fun a ha => toNat_lt_of_isName (hname.1.1.2 a ha)
  have hdigit : startsWithDigit tag.toList = startsWithDigit (unscored name.toList) := by
    have hunscored : ∀ a ∈ unscored name.toList, a.toNat < 128 := fun a ha => hascii a (List.mem_of_mem_filter ha)
    rw [← startsWithDigit_lowered hunscored, startsWithDigit, startsWithDigit, head?_snake hascii htag]
  rw [cName, htag] at h
  cases h
  by_cases htypedef : typedef.truthy = true
  · have hall : IsName (tag ++ mark ++ "_to_string") := (hchars.append hmark).append (by decide)
    simp only [htypedef, if_true, true_and, IsIdentifier, hall, Voiced, ← hdigit]
    rw [String.append_assoc, String.toList_append, startsWithDigit_append hchars.1]
  · -- The blank behind the keyword is part of no name.
    have hblank : ¬IsIdentifier (keyword ++ tag ++ "_to_string") := fun hall =>
      absurd (hall.1.2 ' ' (by simp [hkeyword])) (by decide)
    simp [htypedef, hblank]

end

/-- The struct or enumeration whose printer is called for a field: of an array, only structs are printed. -/
def DataType.called? : DataType → Option DataType
  | .array (.struct s) _ => some (.struct s)
  | .array _ _ => none
  | t => t.item?

/-- The names that printers are made from are identifiers with a letter. -/
structure Module.Lettered (m : Module) : Prop where
  items : ∀ t ∈ m.items, CodeBridge.Lettered t.label
  fields : ∀ s ∈ m.structs, ∀ f ∈ s.fields, ∀ t, f.type.called? = some t → CodeBridge.Lettered t.label

namespace Emit.Printers

open Sourcing

/-- What the printer of a type needs for a legal name. -/
def LegallyNamed : DataType → Prop
  | .struct s => s.typedef.truthy = true ∧ Voiced s.name
  | .enumeration e => e.typedef.truthy = true ∧ Voiced e.name
  | _ => False

/-! ### Lines with calls -/

/-- What stands before the first parenthesis of a line. -/
def callee (l : String) : String :=
  String.ofList ((trimLeft l.toList).takeWhile (· != '('))

/-- The printers that are called in these lines. -/
def callees (ls : List String) : List String :=
  (ls.map callee).filter fun name => "_to_string".toList.isSuffixOf name.toList

theorem callees_append (a b : List String) : callees (a ++ b) = callees a ++ callees b := by
  simp [callees]

theorem callees_cons (l : String) (ls : List String) : callees (l :: ls) = callees [l] ++ callees ls :=
  callees_append [l] ls

theorem callees_indented (ls : List String) : callees (ls.map indented) = callees ls := by
  have hcallee : ∀ l, callee (indented l) = callee l := fun l => by
    have htrim : trimLeft ("    ".toList ++ l.toList) = trimLeft l.toList :=
      trimLeft_blanks_append (by decide) _
    rw [callee, indented, String.toList_append, htrim, callee]
  simp [callees, Function.comp_def, hcallee]

theorem callee_eq {l name rest : String} (hl : l = name ++ ("(" ++ rest))
    (hfirst : ∃ c ∈ name.toList.head?, isBlank c = false) (hname : '(' ∉ name.toList) : callee l = name := by
  rw [callee, hl, String.toList_append, trimLeft_of_first (first_append hfirst _)]
  have hbehind : ∀ c ∈ ("(" ++ rest).toList.head?, (c != '(') = false := by simp
  rw [takeWhile_append_of_head (bne_of_not_mem hname) hbehind, String.ofList_toList]

theorem callees_call {l name rest : String} (hl : l = name ++ ("(" ++ rest))
    (hfirst : ∃ c ∈ name.toList.head?, isBlank c = false) (hname : '(' ∉ name.toList)
    (hprinter : "_to_string".toList <:+ name.toList) : callees [l] = [name] := by
  simpa [callees, callee_eq hl hfirst hname] using hprinter

theorem callees_other {l name rest : String} (hl : l = name ++ ("(" ++ rest))
    (hfirst : ∃ c ∈ name.toList.head?, isBlank c = false) (hname : '(' ∉ name.toList)
    (hprinter : ¬"_to_string".toList <:+ name.toList) : callees [l] = [] := by
  simpa [callees, callee_eq hl hfirst hname] using hprinter

theorem callees_process {l rest : String} (hl : l = "OutputHandler_process" ++ ("(" ++ rest)) : callees [l] = [] :=
  callees_other hl ⟨'O', by simp, by decide⟩ (by simp) (by decide)

theorem callees_processLine (text : String) : callees [processLine text] = [] := by
  have hl : processLine text = "OutputHandler_process" ++ ("(" ++ ("out, \"" ++ text ++ "\");")) := by
    unfold processLine
    simp [← String.toList_inj]
  exact callees_process hl

theorem callees_indentationLine (depth : String) : callees [indentationLine depth] = [] := by
  have hl : indentationLine depth = "OutputHandler_indent" ++ ("(" ++ ("out, indentation" ++ depth ++ ");")) := by
    unfold indentationLine
    simp [← String.toList_inj]
  exact callees_other hl ⟨'O', by simp, by decide⟩ (by simp) (by decide)

/-- Beside its label and its comma a field has the calls of its value. -/
theorem callees_labelled (f : Field) (value : List String) : callees (labelled f value) = callees value := by
  have hlabel : callees ["OutputHandler_process(out, \"%s: \", \"" ++ f.name ++ "\");"] = [] := by
    have hl : "OutputHandler_process(out, \"%s: \", \"" ++ f.name ++ "\");" =
        "OutputHandler_process" ++ ("(" ++ ("out, \"%s: \", \"" ++ f.name ++ "\");")) := by
      simp [← String.toList_inj]
    exact callees_process hl
  simp only [labelled, callees_append, callees_indentationLine, callees_processLine, hlabel, List.nil_append,
    List.append_nil]

/-- Around the calls of its elements an array has no other. -/
theorem callees_arrayLines (style : Style) (length : String) (inner : List String) :
    callees (arrayLines style length inner) = callees inner := by
  have hhead : ∀ more, callees ["for (size_t index = 0; index < " ++ length ++ "; ++index)" ++ more] = [] := fun more => by
    have hl : "for (size_t index = 0; index < " ++ length ++ "; ++index)" ++ more =
        "for " ++ ("(" ++ ("size_t index = 0; index < " ++ length ++ "; ++index)" ++ more)) := by
      simp [← String.toList_inj]
    exact callees_other hl ⟨'f', by simp, by decide⟩ (by simp) (by decide)
  have hheading : callees (style.heading ("for (size_t index = 0; index < " ++ length ++ "; ++index)")) = [] := by
    unfold Style.heading
    split
    · have hend := hhead ""
      rw [String.append_empty] at hend
      rw [callees_cons, hend]
      decide
    · exact hhead " \x7b"
  have hclosing : callees ["\x7d"] = [] := by decide
  simp only [arrayLines, blockLines, callees_append, callees_indented, callees_indentationLine, callees_processLine,
    hheading, hclosing, List.nil_append, List.append_nil]

/-- A spelling that can stand before a parenthesis. -/
def Callable (c : String) : Prop :=
  '(' ∉ c.toList ∧ ∃ a ∈ c.toList.head?, isBlank a = false

theorem callable_struct {s : Struct} {c : String} (hname : Lettered s.name) (hc : s.cName = .ok c) : Callable c :=
  callable_cName (by decide) ⟨'s', rfl, by decide⟩ (by decide) hname hc

theorem callable_enumeration {e : Enumeration} {c : String} (hname : Lettered e.name) (hc : e.cName = .ok c) :
    Callable c :=
  callable_cName (by decide) ⟨'e', rfl, by decide⟩ (by decide) hname hc

theorem callees_printer {c rest l : String} (hc : Callable c) (hl : l = c ++ "_to_string" ++ ("(" ++ rest)) :
    callees [l] = [c ++ "_to_string"] := by
  refine callees_call hl ?_ ?_ ?_
  · rw [String.toList_append]
    exact first_append hc.2 _
  · simp [hc.1]
  · simp

section
variable {style : Style} {f : Field} {ls : List String}

theorem callees_elementLines {type : DataType} {length : String}
    (hcalled : ∀ t, (DataType.array type length).called? = some t → Lettered t.label)
    (h : elementLines f.name type = .ok ls) :
    callees ls = (DataType.array type length).called?.toList.flatMap names := by
  unfold elementLines at h
  split at h
  · next s =>
    obtain ⟨c, hc, h⟩ := exists_of_bind_eq_ok h
    cases h
    have hl : c ++ "_to_string(value." ++ f.name ++ "[index], out, indentation + 2);" =
        c ++ "_to_string" ++ ("(" ++ ("value." ++ f.name ++ "[index], out, indentation + 2);")) := by
      simp [← String.toList_inj]
    rw [callees_cons, callees_cons _ [_], callees_indentationLine, callees_processLine,
      callees_printer (callable_struct (hcalled _ rfl) hc) hl]
    simp [DataType.called?, names_struct hc]
  · next hother =>
    cases h
    have hnone : (DataType.array type length).called? = none := by
      cases type with
      | struct s => exact absurd rfl (hother s)
      | _ => rfl
    rw [callees_cons, callees_indentationLine, callees_processLine, hnone]
    rfl

/-- The block of a field calls the printer of the type that it holds, and no other. -/
theorem callees_fieldLines (hcalled : ∀ t, f.type.called? = some t → Lettered t.label)
    (h : fieldLines style f = .ok ls) : callees ls = f.type.called?.toList.flatMap names := by
  obtain ⟨value, hvalue, h⟩ := exists_of_bind_eq_ok h
  cases h
  rw [callees_labelled]
  unfold valueLines at hvalue
  split at hvalue
  case h_1 s hs =>
    rw [hs] at hcalled ⊢
    obtain ⟨c, hc, hvalue⟩ := exists_of_bind_eq_ok hvalue
    cases hvalue
    have hl : c ++ "_to_string(value." ++ f.name ++ ", out, indentation + 1);" =
        c ++ "_to_string" ++ ("(" ++ ("value." ++ f.name ++ ", out, indentation + 1);")) := by
      simp [← String.toList_inj]
    rw [callees_printer (callable_struct (hcalled _ rfl) hc) hl]
    simp [DataType.called?, DataType.item?, names_struct hc]
  case h_2 e he =>
    rw [he] at hcalled ⊢
    obtain ⟨c, hc, hvalue⟩ := exists_of_bind_eq_ok hvalue
    cases hvalue
    have hl : c ++ "_to_string(value." ++ f.name ++ ", out);" =
        c ++ "_to_string" ++ ("(" ++ ("value." ++ f.name ++ ", out);")) := by
      simp [← String.toList_inj]
    rw [callees_printer (callable_enumeration (hcalled _ rfl) hc) hl]
    simp [DataType.called?, DataType.item?, names_enumeration hc]
  case h_3 type length harray =>
    rw [harray] at hcalled ⊢
    obtain ⟨inner, hinner, hvalue⟩ := exists_of_bind_eq_ok hvalue
    cases hvalue
    rw [callees_arrayLines, callees_elementLines hcalled hinner]
  case h_4 p hp =>
    obtain ⟨code, hcode, hvalue⟩ := exists_of_bind_eq_ok hvalue
    cases hvalue
    have hl : "OutputHandler_process(out, " ++ code ++ ", value." ++ f.name ++ ");" =
        "OutputHandler_process" ++ ("(" ++ ("out, " ++ code ++ ", value." ++ f.name ++ ");")) := by
      simp [← String.toList_inj]
    rw [callees_process hl, hp]
    rfl
  case h_5 hcustom =>
    obtain ⟨code, hcode, hvalue⟩ := exists_of_bind_eq_ok hvalue
    cases hvalue
    have hl : "OutputHandler_process(out, " ++ code ++ ", value." ++ f.name ++ ");" =
        "OutputHandler_process" ++ ("(" ++ ("out, " ++ code ++ ", value." ++ f.name ++ ");")) := by
      simp [← String.toList_inj]
    rw [callees_process hl, hcustom]
    rfl
  case h_6 => cases hvalue

end

/-! ### Prototypes -/

/-- The declaration of a function without a result under a legal name. -/
def Prototype (l : String) : Prop :=
  ∃ name parameters, IsIdentifier name ∧ l = "void " ++ name ++ "(" ++ parameters ++ ");"

theorem prototype_declaration_iff {d : Definition} (htype : d.function.type = "void")
    (hname : '(' ∉ d.function.name.toList) : Prototype d.declaration ↔ IsIdentifier d.function.name := by
  have hdeclaration : d.declaration = "void " ++ d.function.name ++ "(" ++ d.function.parameters ++ ");" := by
    rw [Definition.declaration, Function.signature, htype]
    simp [← String.toList_inj]
  constructor
  · rintro ⟨name, parameters, hidentifier, e⟩
    have hsplit : ∀ s rest : String, ("void " ++ s ++ "(" ++ rest ++ ");").toList =
        "void ".toList ++ (s.toList ++ '(' :: (rest.toList ++ ");".toList)) := by simp
    have hcut : ∀ {s : String} {rest : List Char}, '(' ∉ s.toList →
        (s.toList ++ '(' :: rest).takeWhile (· != '(') = s.toList :=
      fun hs => takeWhile_append_of_head (bne_of_not_mem hs) (by simp)
    have hchars := congrArg String.toList (hdeclaration.symm.trans e)
    rw [hsplit, hsplit, List.append_cancel_left_eq] at hchars
    have hnames := congrArg (List.takeWhile (· != '(')) hchars
    rw [hcut hname, hcut (not_mem_of_forall hidentifier.1.2 (by decide)), String.toList_inj] at hnames
    exact hnames ▸ hidentifier
  · intro hidentifier
    exact ⟨_, _, hidentifier, hdeclaration⟩

/-- The printer of a type is called by its name alone, and this is legal exactly when the type is legally named. -/
structure Legality (t : DataType) (d : Definition) : Prop where
  name : names t = [d.function.name]
  prototype : Prototype d.declaration ↔ LegallyNamed t
  calls : ∀ s, t = .struct s → List.Forall₂ (fun f ls => callees ls = f.type.called?.toList.flatMap names ∧
    ∀ held, f.type.called? = some held → ∀ name ∈ callees ls, (IsIdentifier name ↔ LegallyNamed held))
    s.fields d.blocks

theorem item?_of_called?_eq_some {t held : DataType} (h : t.called? = some held) : held.item? = some held := by
  have hitem : ∀ {u : DataType}, u.item? = some held → held.item? = some held := fun {u} hu => by
    cases u with
    | struct s => cases hu; rfl
    | enumeration e => cases hu; rfl
    | _ => cases hu
  unfold DataType.called? at h
  split at h
  · cases h
    rfl
  · cases h
  · exact hitem h

/-- A printer has a legal name exactly when its type is legally named. -/
theorem isIdentifier_name_iff {t : DataType} (hitem : t.item? = some t) (ht : Lettered t.label) {name : String}
    (hname : name ∈ names t) : IsIdentifier name ↔ LegallyNamed t := by
  have hne : t.label ≠ "" := fun e => ht.1.1.1 (by rw [e]; rfl)
  cases t with
  | struct s =>
    obtain ⟨c, hc⟩ : ∃ c, s.cName = .ok c := exists_cName hne _ _ _
    rw [names_struct hc, List.mem_singleton] at hname
    exact hname ▸ isIdentifier_printer_iff (by decide) (by decide) ht hc
  | enumeration e =>
    obtain ⟨c, hc⟩ : ∃ c, e.cName = .ok c := exists_cName hne _ _ _
    rw [names_enumeration hc, List.mem_singleton] at hname
    exact hname ▸ isIdentifier_printer_iff (by decide) (by decide) ht hc
  | _ => cases hitem

section
variable {style : Style} {d : Definition}

/-- A definition has a legal prototype exactly when its type is legally named. -/
theorem prototype_iff_legallyNamed {t : DataType} {c : String} (hitem : t.item? = some t) (ht : Lettered t.label)
    (hc : Callable c) (htype : d.function.type = "void") (hname : d.function.name = c ++ "_to_string")
    (hnames : names t = [d.function.name]) : Prototype d.declaration ↔ LegallyNamed t := by
  have hparen : '(' ∉ d.function.name.toList := by simp [hname, hc.1]
  rw [prototype_declaration_iff htype hparen]
  exact isIdentifier_name_iff hitem ht (hnames ▸ List.mem_singleton_self _)

theorem legality_enumeration {e : Enumeration} {l : List Definition} (he : Lettered e.name)
    (h : enumerationDefinitions style e = .ok l) : ∃ d, l = [d] ∧ Legality (.enumeration e) d := by
  obtain ⟨c, hc, h⟩ := exists_of_bind_eq_ok h
  cases h
  refine ⟨_, rfl, names_enumeration hc, ?_, fun s hs => nomatch hs⟩
  exact prototype_iff_legallyNamed rfl he (callable_enumeration he hc) rfl rfl (names_enumeration hc)

theorem legality_struct {s : Struct} {l : List Definition} (hs : Lettered s.name)
    (hfields : ∀ f ∈ s.fields, ∀ t, f.type.called? = some t → Lettered t.label)
    (h : structDefinitions style s = .ok l) : ∃ d, l = [d] ∧ Legality (.struct s) d := by
  obtain ⟨c, blocks, hc, hblocks, rfl⟩ := of_structDefinitions_eq_ok h
  refine ⟨_, rfl, names_struct hc, ?_, ?_⟩
  · exact prototype_iff_legallyNamed rfl hs (callable_struct hs hc) rfl rfl (names_struct hc)
  · rintro _ ⟨⟩
    refine forall₂_of_mapM_of_forall hblocks fun f hf ls hls => ?_
    have hcallees := callees_fieldLines (hfields f hf) hls
    refine ⟨hcallees, fun held hheld name hname => ?_⟩
    rw [hcallees, hheld] at hname
    exact isIdentifier_name_iff (item?_of_called?_eq_some hheld) (hfields f hf held hheld) (by simpa using hname)

end

theorem forall₂_flatten_of_single {α β : Type} {R : α → β → Prop} {xs : List α} {ls : List (List β)}
    (h : List.Forall₂ (fun x l => ∃ y, l = [y] ∧ R x y) xs ls) : List.Forall₂ R xs ls.flatten := by
  induction h with
  | nil => exact .nil
  | cons hfirst _ ih =>
    obtain ⟨y, rfl, hy⟩ := hfirst
    exact .cons hy ih

/-- Each item has its printer, in the order of the items. -/
theorem legality_definitions {style : Style} {m : Module} {ds : List Definition} (hm : m.Lettered)
    (h : definitions style m = .ok ds) : List.Forall₂ Legality m.items ds := by
  obtain ⟨es, hes, h⟩ := exists_of_bind_eq_ok h
  obtain ⟨ss, hss, h⟩ := exists_of_bind_eq_ok h
  cases h
  refine List.rel_append ?_ ?_
  · rw [List.forall₂_map_left_iff]
    refine forall₂_flatten_of_single (forall₂_of_mapM_of_forall hes fun e he l hl => ?_)
    exact legality_enumeration (hm.items _ (List.mem_append_left _ (List.mem_map_of_mem he))) hl
  · rw [List.forall₂_map_left_iff]
    refine forall₂_flatten_of_single (forall₂_of_mapM_of_forall hss fun s hs l hl => ?_)
    exact legality_struct (hm.items _ (List.mem_append_right _ (List.mem_map_of_mem hs))) (hm.fields s hs) hl

/-! ### Finished texts -/

/-- The action never ends without a fault. -/
def Fails (x : Sourcing Unit) : Prop :=
  ∀ t, ∃ fault t', x t = .error fault t'

theorem Fails.before {x y : Sourcing Unit} (h : Fails x) : Fails (x >>= fun _ => y) := fun t => by
  obtain ⟨fault, t', ht⟩ := h t
  exact ⟨fault, t', bind_error ht _⟩

theorem Fails.behind {α : Type} {x : Sourcing α} {y : α → Sourcing Unit} (h : ∀ a, Fails (y a)) :
    Fails (x >>= y) := fun t => by
  cases hx : x t with
  | error fault t' => exact ⟨fault, t', bind_error hx _⟩
  | ok a t' =>
    rw [bind_ok hx]
    exact h a t'

theorem Fails.each {α : Type} {items : List α} {f : α → Sourcing Unit} (h : ∀ a, Fails (f a)) (hne : items ≠ []) :
    Fails (Sourcing.each items f) := by
  cases items with
  | nil => exact absurd rfl hne
  | cons a items => exact (h a).before

/-- Without a style the body of no function can be opened. -/
theorem fails_of_items {given : String} {m : Module} (h : m.items ≠ []) : Fails (run (.unknown given) m) := by
  have henumeration : ∀ e, Fails (enumeration (.unknown given) e) := fun e =>
    .behind fun _ => .behind fun _ t => ⟨.unknownStyle given, t, rfl⟩
  have hstruct : ∀ s, Fails (struct (.unknown given) s) := fun s =>
    .behind fun _ => .behind fun _ t => ⟨.unknownStyle given, t, rfl⟩
  by_cases hes : m.enumerations = []
  · have hss : m.structs ≠ [] := fun hss => h (by simp [Module.items, hes, hss])
    exact .behind fun _ => .each hstruct hss
  · exact (Fails.each henumeration hes).before

/-- The texts of a module, if there are any, are those of its definitions. -/
theorem of_printerTexts_eq_ok {style : Style} {m : Module} {texts : String × String}
    (h : printerTexts style m = .ok texts) : ∃ ds, definitions style m = .ok ds ∧ texts = Sourcing.texts style ds := by
  have hknown : (style = .knr ∨ style = .bsd) → ∃ ds, definitions style m = .ok ds ∧ texts = Sourcing.texts style ds := by
    intro hstyle
    rw [printerTexts_eq hstyle] at h
    cases hds : definitions style m with
    | error fault =>
      rw [hds] at h
      cases h
    | ok ds =>
      rw [hds] at h
      cases h
      exact ⟨ds, rfl, rfl⟩
  cases style with
  | knr => exact hknown (.inl rfl)
  | bsd => exact hknown (.inr rfl)
  | unknown given =>
    have hitems : m.items = [] := by
      by_contra hne
      have hfails : Fails (run (.unknown given) m) := fails_of_items hne
      obtain ⟨fault, t, ht⟩ := hfails ⟨.braced, .braced⟩
      rw [printerTexts, outcome, seqRight_eq_bind, bind_error ht] at h
      cases h
    obtain ⟨hes, hss⟩ : m.enumerations = [] ∧ m.structs = [] := by simpa [Module.items] using hitems
    refine ⟨[], by rw [definitions, collect, hes, hss]; rfl, ?_⟩
    rw [printerTexts, run, hes, hss] at h
    cases h
    rfl

/-- The header declares the printer of each item under a legal name, and the code calls it under that name for each
field that holds the item, exactly when the item is legally named. -/
theorem printers_legal_iff {style : Style} {m : Module} {header code : String} (hm : m.Lettered)
    (h : printerTexts style m = .ok (header, code)) :
    ∃ ds : List Definition, header = linesText (ds.map Definition.declaration) ∧
      code = linesText (ds.flatMap (Definition.lines style)) ∧ List.Forall₂ Legality m.items ds := by
  obtain ⟨ds, hds, e⟩ := of_printerTexts_eq_ok h
  cases e
  exact ⟨ds, rfl, rfl, legality_definitions hm hds⟩

def signal : Enumeration :=
  ⟨"Signal", ["STOP", "GO"], .int 0, .bool true, .text "e"⟩

def lamp : Struct :=
  ⟨"TrafficLamp", [⟨"signal", .enumeration signal, none⟩], .bool true, .text "t"⟩

/-- A module of `typedef`s. -/
def crossing : Module :=
  ⟨"crossing", [], [lamp, ⟨"_Crossing2", [⟨"first", .struct lamp, none⟩, ⟨"others", .array (.struct lamp) "LAMPS", none⟩,
    ⟨"count", .primitive .int32, none⟩], .bool true, .text "t"⟩], [signal]⟩

theorem printers_legal_crossing :
    crossing.Lettered ∧ ∃ header code, printerTexts .bsd crossing = .ok (header, code) ∧
      ∃ ds : List Definition, header = linesText (ds.map Definition.declaration) ∧
        List.Forall₂ Legality crossing.items ds ∧ ∀ d ∈ ds, Prototype d.declaration := by
  have hm : crossing.Lettered := ⟨by decide, by decide⟩
  obtain ⟨ds, hds⟩ : ∃ ds, definitions .bsd crossing = .ok ds := ⟨_, rfl⟩
  have htexts : printerTexts .bsd crossing = .ok (Sourcing.texts .bsd ds) := by
    rw [printerTexts_eq (.inr rfl), hds]
    rfl
  obtain ⟨ds', hheader, -, hlegality⟩ := printers_legal_iff hm htexts
  refine ⟨hm, _, _, htexts, ds', hheader, hlegality, ?_⟩
  have hvoiced : Voiced "Signal" ∧ Voiced "TrafficLamp" ∧ Voiced "_Crossing2" := ⟨rfl, rfl, rfl⟩
  rcases hlegality with _ | ⟨hsignal, _ | ⟨hlamp, _ | ⟨hcrossing, ⟨⟩⟩⟩⟩
  simp only [List.forall_mem_cons, List.not_mem_nil, false_imp_iff, implies_true, and_true]
  exact ⟨hsignal.prototype.mpr ⟨rfl, hvoiced.1⟩, hlamp.prototype.mpr ⟨rfl, hvoiced.2.1⟩,
    hcrossing.prototype.mpr ⟨rfl, hvoiced.2.2⟩⟩

/-- A struct without a `typedef`, and one whose name has a digit before its first letter. -/
def misnamed : Module :=
  ⟨"misnamed", [], [⟨"Point", [⟨"x", .primitive .int32, none⟩], .bool false, .text "t"⟩,
    ⟨"_2d", [⟨"y", .primitive .int32, none⟩], .bool true, .text "t"⟩], []⟩

/-- Their printers are declared under a keyword and a word, and under a word that starts with a digit. -/
theorem prototypes_illegal_misnamed :
    misnamed.Lettered ∧
      (printerTexts .knr misnamed).map Prod.fst = .ok (linesText
        ["void struct point_to_string(struct point value, struct OutputHandler *out, size_t indentation);",
          "void 2d_t_to_string(2d_t value, struct OutputHandler *out, size_t indentation);"]) ∧
      ¬Prototype "void struct point_to_string(struct point value, struct OutputHandler *out, size_t indentation);" ∧
      ¬Prototype "void 2d_t_to_string(2d_t value, struct OutputHandler *out, size_t indentation);" := by
  have hillegal : ∀ name parameters : String, '(' ∉ name.toList → ¬IsIdentifier name →
      ¬Prototype (Definition.declaration ⟨⟨"void", name, parameters⟩, [], [], [], []⟩) :=
    fun name parameters hname hidentifier h => hidentifier ((prototype_declaration_iff rfl hname).mp h)
  refine ⟨⟨by decide, by decide⟩, by decide +kernel, ?_, ?_⟩
  · exact hillegal "struct point_to_string" "struct point value, struct OutputHandler *out, size_t indentation"
      (by decide) (by decide)
  · exact hillegal "2d_t_to_string" "2d_t value, struct OutputHandler *out, size_t indentation" (by decide) (by decide)

end Emit.Printers

end CodeBridge
