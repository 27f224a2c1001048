import CodeBridge.Emit.Texts
import CodeBridge.Proofs.HeaderContents
import CodeBridge.Proofs.Levels
import CodeBridge.Proofs.Tags

/-! # When the generators succeed

Each generator refuses some ordinals, comments and types. What it asks of an item decides alone whether the item is
written, whatever was written before it. All that can be refused is refused inside a block, so that a failure leaves
the level raised. -/

namespace CodeBridge

/-- A struct or an enumeration with a name, to which a `typedef` adds a text. -/
structure Named (name : String) (suffix : Value) : Prop where
  name : name ≠ ""
  suffix : ∃ mark, suffix = .text mark

/-- A module whose items are named and whose constants can be written. -/
structure Module.Orderly (m : Module) : Prop where
  enumerations : ∀ e ∈ m.enumerations, Named e.name e.suffix
  structs : ∀ s ∈ m.structs, Named s.name s.suffix
  typed : ∀ c ∈ m.constants, ∃ p, Constant.typeOf? c.value = some p
  short : ∀ c ∈ m.constants, ∀ n, c.value = .int n → Decimal.tooLong n = false

theorem exists_cName {name : String} (h : name ≠ "") (keyword mark : String) (typedef : Value) :
    ∃ c, cName keyword mark name typedef = .ok c := by
  obtain ⟨_, -, htag⟩ := Name.snake_eq h
  rw [cName, htag]
  exact ⟨_, rfl⟩

theorem spelling_struct {s : Struct} {c : String} (hc : s.cName = .ok c) :
    (DataType.struct s).spelling = .ok (.plain c) := by
  rw [DataType.spelling, hc]
  rfl

theorem spelling_enumeration {e : Enumeration} {c : String} (hc : e.cName = .ok c) :
    (DataType.enumeration e).spelling = .ok (.plain c) := by
  rw [DataType.spelling, hc]
  rfl

/-- Ordinals can be written and counted on for each of these values. -/
def Counted (ordinal : Value) : List String → Prop
  | [] => True
  | _ :: rest => ∃ text, ordinal.text? = .ok text ∧ ∃ next, ordinal.next = .ok next ∧ Counted next rest

namespace Emit

open Writing

variable {rise : Int}

/-! ### Comments -/

/-- A comment is left out, is empty or has a line that says something. -/
def Speaks (comment : Option String) : Prop :=
  ∀ text, comment = some text → text ≠ "" → ∃ l ∈ splitLines text.toList, ∃ c ∈ l, Text.isBlank c = false

theorem commentLines_eq_nil_iff {text : String} :
    commentLines text = [] ↔ ¬∃ l ∈ splitLines text.toList, ∃ c ∈ l, Text.isBlank c = false := by
  constructor
  · rintro hnil ⟨l, hl, c, hc, hb⟩
    have htrim : Text.trim l ≠ [] := fun e => by
      rw [Text.blank_of_trim_eq_nil e c hc] at hb
      cases hb
    exact List.ne_nil_of_mem (mem_commentLines.mpr ⟨l, hl, htrim, rfl⟩) hnil
  · intro hblank
    refine List.eq_nil_iff_forall_not_mem.mpr fun remark hremark => ?_
    obtain ⟨l, hl, hne, -⟩ := mem_commentLines.mp hremark
    obtain ⟨c, hc, hb⟩ := (Text.solid_trim hne).first
    exact hblank ⟨l, hl, c, (Text.trim_isInfix l).subset (List.mem_of_mem_head? hc), hb⟩

theorem settles_comment (struct field : String) (c : Option String) (present : String → String) :
    Settles Writer.gauge 0 (comment struct field c present) (Speaks c) := by
  cases c with
  | none => exact (settles_line "").congr (by simp [Speaks])
  | some text =>
    by_cases htext : text = ""
    · subst htext
      exact (settles_line "").congr (by simp [Speaks])
    · have hspeaks : Speaks (some text) ↔ commentLines text ≠ [] := by
        simp only [Speaks, Option.some.injEq, ne_eq, commentLines_eq_nil_iff, not_not]
        exact ⟨fun h => h text rfl htext, fun h t ht _ => ht ▸ h⟩
      simp only [comment, beq_iff_eq, if_neg htext]
      refine Settles.congr ?_ hspeaks.symm
      cases commentLines text with
      | nil => exact (Settles.throw _).congr (by simp)
      | cons l ls =>
        exact (settles_each fun l _ => settles_line (present l)).congr (by simp)

/-! ### The header -/

namespace Header

theorem settles_definition {style : Style} (hstyle : style = .knr ∨ style = .bsd) {body : Writing Unit} {P : Prop}
    (hbody : Settles Writer.gauge 0 body P) (keyword : String) {name : String} (hname : name ≠ "")
    (typedef suffix : Value) :
    Settles Writer.gauge 1 (do
      style.before (← check (opening keyword name typedef))
      block body (← check (ending name typedef suffix))
      line "") P := by
  obtain ⟨_, -, htag⟩ := Name.snake_eq hname
  obtain ⟨head, hhead⟩ : ∃ head, opening keyword name typedef = .ok head := by
    unfold opening
    rw [htag]
    split
    · exact ⟨_, rfl⟩
    · exact ⟨_, rfl⟩
  obtain ⟨close, hclose⟩ : ∃ close, ending name typedef suffix = .ok close := by
    unfold ending
    rw [htag]
    split
    · exact ⟨_, rfl⟩
    · exact ⟨_, rfl⟩
  rw [hhead, hclose]
  exact (settles_before hstyle head).after fun _ => (settles_block hbody close).before fun _ => settles_line ""

theorem exists_literal {v : Value} (htyped : ∃ p, Constant.typeOf? v = some p)
    (hshort : ∀ n, v = .int n → Decimal.tooLong n = false) : ∃ text, literal v = .ok text := by
  obtain ⟨p, hp⟩ := htyped
  cases v with
  | text s => exact ⟨_, rfl⟩
  | int n => exact ⟨_, Header.text?_int (hshort n rfl)⟩
  | bool b => exact ⟨_, rfl⟩
  | float x => exact ⟨_, rfl⟩
  | _ => cases hp

theorem settles_constant {c : Constant} (h : ∃ text, literal c.value = .ok text) :
    Settles Writer.gauge rise (constant c) True := by
  obtain ⟨text, htext⟩ := h
  unfold constant
  rw [htext]
  exact (settles_line _).after fun _ => settles_line ""

theorem settles_ordinals (first : Bool) (ordinal : Value) (values : List String) :
    Settles Writer.gauge 0 (ordinals first ordinal values) (Counted ordinal values) := by
  induction values generalizing first ordinal with
  | nil => exact .pure ()
  | cons value rest ih =>
    have hvalue : Settles Writer.gauge 0 (do
        write (value ++ " = " ++ (← check ordinal.text?))
        ordinals false (← check ordinal.next) rest) (Counted ordinal (value :: rest)) :=
      settles_check fun text _ => (settles_write _).after fun _ => settles_check fun next _ => ih false next
    cases first with
    | true => exact hvalue
    | false => exact (settles_line ",").after fun _ => hvalue

theorem settles_enumeration {style : Style} (hstyle : style = .knr ∨ style = .bsd) {e : Enumeration} (he : e.name ≠ "") :
    Settles Writer.gauge 1 (enumeration style e) (Counted e.first e.values) :=
  settles_definition hstyle ((settles_ordinals true e.first e.values).before fun _ => settles_line "") "enum" he
    e.typedef e.suffix

/-- The header can declare a member for the field. -/
def Declarable (f : Field) : Prop :=
  (∃ spelling, f.type.spelling = .ok spelling) ∧ Speaks f.comment

theorem settles_member (struct : String) (f : Field) : Settles Writer.gauge 0 (member struct f) (Declarable f) := by
  have hlength : Settles Writer.gauge 0 (if isList f.type then line ("size_t " ++ f.name ++ "_length;") else pure ())
      True := by
    split
    · exact settles_line _
    · exact .pure ()
  refine Settles.congr (settles_check (P := fun _ => Speaks f.comment) fun spelling _ => (settles_write _).after fun _ =>
    (settles_comment struct f.name f.comment _).before fun _ => hlength) ?_
  simp [Declarable]

theorem settles_struct {style : Style} (hstyle : style = .knr ∨ style = .bsd) {s : Struct} (hs : s.name ≠ "") :
    Settles Writer.gauge 1 (struct style s) (∀ f ∈ s.fields, Declarable f) :=
  settles_definition hstyle (settles_each fun f _ => settles_member s.name f) "struct" hs s.typedef s.suffix

/-- The header of a module is written if its ordinals can be counted and its fields declared. -/
theorem settles_run {style : Style} (hstyle : style = .knr ∨ style = .bsd) {m : Module} (hm : m.Orderly) :
    Settles Writer.gauge 1 (run style m)
      ((∀ e ∈ m.enumerations, Counted e.first e.values) ∧ ∀ s ∈ m.structs, ∀ f ∈ s.fields, Declarable f) := by
  have hdefines : Settles Writer.gauge 1 (each m.constants constant) True :=
    (settles_each (P := fun _ => True) fun c hc => settles_constant (exists_literal (hm.typed c hc) (hm.short c hc))).congr (by simp)
  exact hdefines.after fun _ => (settles_each fun e he => settles_enumeration hstyle (hm.enumerations e he).name).bind
    fun _ => settles_each fun s hs => settles_struct hstyle (hm.structs s hs).name

end Header

/-! ### Classes -/

namespace Dataclasses

/-- A type has a hint whatever classes are complete, if it has one for some of them. -/
theorem exists_typeHint {t : DataType} (written others : List String) (h : ∃ hint, t.typeHint written = .ok hint) :
    ∃ hint, t.typeHint others = .ok hint := by
  fun_induction DataType.typeHint written t with
  | case5 => exact ⟨"int", by rw [DataType.typeHint] <;> assumption⟩
  | case7 =>
    obtain ⟨_, h⟩ := h
    cases h
  | case8 element bound ih =>
    obtain ⟨_, h⟩ := h
    obtain ⟨inner, hinner, -⟩ := exists_of_bind_eq_ok h
    obtain ⟨hint, hhint⟩ := ih ⟨inner, hinner⟩
    exact ⟨_, by rw [DataType.typeHint, hhint]; rfl⟩
  | case9 name element second extra ih =>
    obtain ⟨_, h⟩ := h
    obtain ⟨inner, hinner, -⟩ := exists_of_bind_eq_ok h
    obtain ⟨hint, hhint⟩ := ih ⟨inner, hinner⟩
    exact ⟨_, by rw [DataType.typeHint, hhint]; rfl⟩
  | case10 =>
    obtain ⟨_, h⟩ := h
    cases h
  | case11 name key value ihkey ihvalue =>
    obtain ⟨_, h⟩ := h
    obtain ⟨keyHint, hkey, h⟩ := exists_of_bind_eq_ok h
    obtain ⟨valueHint, hvalue, -⟩ := exists_of_bind_eq_ok h
    obtain ⟨hint, hhint⟩ := ihkey ⟨keyHint, hkey⟩
    obtain ⟨hint', hhint'⟩ := ihvalue ⟨valueHint, hvalue⟩
    exact ⟨_, by rw [DataType.typeHint, hhint, hhint']; rfl⟩
  | case12 =>
    obtain ⟨_, h⟩ := h
    cases h
  | _ => exact ⟨_, rfl⟩

/-- A class can have an attribute for the field. -/
def Hinted (f : Field) : Prop :=
  (∃ hint, f.type.typeHint [] = .ok hint) ∧ Speaks f.comment

theorem settles_ordinals (ordinal : Value) (values : List String) :
    Settles Writer.gauge 0 (ordinals ordinal values) (Counted ordinal values) := by
  induction values generalizing ordinal with
  | nil => exact .pure ()
  | cons value rest ih =>
    exact settles_check fun text _ => (settles_line _).after fun _ => settles_check fun next _ => ih next

theorem settles_enumeration (e : Enumeration) :
    Settles Writer.gauge 1 (enumeration e) (Counted e.first e.values) :=
  (settles_write _).after fun _ => (settles_block (settles_ordinals e.first e.values) "").before fun _ => settles_line ""

theorem settles_member (written : List String) (struct : String) (f : Field) :
    Settles Writer.gauge 0 (member written struct f) (Hinted f) := by
  have hmember : Settles Writer.gauge 0 (member written struct f)
      (∃ hint, f.type.typeHint written = .ok hint ∧ Speaks f.comment) :=
    settles_check fun hint _ => (settles_write _).after fun _ => settles_comment struct f.name f.comment _
  refine hmember.congr ⟨?_, ?_⟩
  · rintro ⟨hint, hhint, hspeaks⟩
    exact ⟨exists_typeHint written [] ⟨hint, hhint⟩, hspeaks⟩
  · rintro ⟨hhint, hspeaks⟩
    obtain ⟨hint, hhint⟩ := exists_typeHint [] written hhint
    exact ⟨hint, hhint, hspeaks⟩

theorem settles_struct (written : List String) (s : Struct) :
    Settles Writer.gauge 1 (struct written s) (∀ f ∈ s.fields, Hinted f) :=
  (settles_line _).after fun _ => (settles_write _).after fun _ =>
    (settles_block (settles_each fun f _ => settles_member written s.name f) "").before fun _ => settles_line ""

/-- The classes of a module are written if its ordinals can be counted and its fields have hints. -/
theorem settles_run (m : Module) : Settles State.gauge 1 (run m)
    ((∀ e ∈ m.enumerations, Counted e.first e.values) ∧ ∀ s ∈ m.structs, ∀ f ∈ s.fields, Hinted f) := by
  have henumerations : Settles State.gauge 1 (runEnumerations m.enumerations)
      (∀ e ∈ m.enumerations, Counted e.first e.values) :=
    .sequence runEnumerations rfl (fun e rest => (bind_assoc (writing fun _ => enumeration e) ..).symm)
      fun e _ => (settles_writing fun _ => settles_enumeration e).before fun _ => settles_complete e.name
  have hstructs : Settles State.gauge 1 (runStructs m.structs) (∀ s ∈ m.structs, ∀ f ∈ s.fields, Hinted f) :=
    .sequence runStructs rfl (fun s rest => (bind_assoc (writing fun written => struct written s) ..).symm)
      fun s _ => (settles_writing fun written => settles_struct written s).before fun _ => settles_complete s.name
  exact henumerations.bind fun _ => hstructs

end Dataclasses

/-! ### Conversions -/

theorem Sourcing.settles_function {name : Except Fault String} {c : String} (hname : name = .ok c)
    {declaration : String → String} {code : String → Writing Unit} {P : Prop} (h : Settles Writer.gauge 1 (code c) P) :
    Settles Sources.gauge 1 (do
      let name ← Sourcing.check name
      Sourcing.inHeader (line (declaration name))
      Sourcing.inCode (code name)) P := by
  subst hname
  exact (settles_inHeader_line (declaration c)).after fun _ => settles_inCode h

namespace Conversion

open Macro Sourcing

/-- All conversions are a signature and a block. -/
theorem settles_definition {body : Writing Unit} {P : Prop} (h : Settles Writer.gauge 0 body P) (signature : String) :
    Settles Writer.gauge 1 (do
      write (signature ++ " ")
      block body
      line "") P :=
  (settles_write _).after fun _ => (settles_block h "").before fun _ => settles_line ""

theorem settles_loadClass (holder path name : String) : Settles Writer.gauge 0 (loadClass holder path name) True :=
  ((settles_write _).after fun _ => settles_block (settles_line _) "").weaken

/-! #### Legible calls -/

theorem legible_withAttribute {owner m : Macro} (name : String) (howner : owner.Legible) (hm : m.Legible) :
    (Access.withAttribute owner name m).Legible := by
  simp [Access.withAttribute, howner, hm]

theorem legible_setAttribute (name value : String) : (Access.setAttribute name value).Legible := by
  simp [Access.setAttribute]

theorem legible_int64Attribute (owner name action : String) :
    (Access.int64Attribute (.text owner) name (.text action)).Legible :=
  legible_withAttribute name (legible_text owner) (by simp [Access.int64])

theorem legible_floatAttribute (owner name action : String) :
    (Access.floatAttribute (.text owner) name (.text action)).Legible :=
  legible_withAttribute name (legible_text owner) (by simp [Access.float])

theorem legible_spelling (s : Spelling) : (Macro.value s.value).Legible := by
  cases s with
  | plain text => rfl
  | around before behind => rfl

theorem legible_elements {owner name action loop : String} {m : Macro} {type : DataType} {size : Except Fault Value}
    (hsize : ∀ v, size = .ok v → v.holdsLongInteger = false)
    (h : (do
      let elements : Macro ← (do
        let element ← type.element
        let spelling ← element.spelling
        let size ← size
        return .call loop [.text "python_value", .value spelling.value, .value size, .text action])
      return Access.withAttribute (.text owner) name elements) = Except.ok m) : m.Legible := by
  obtain ⟨elements, helements, h⟩ := exists_of_bind_eq_ok h
  obtain ⟨element, -, helements⟩ := exists_of_bind_eq_ok helements
  obtain ⟨spelling, -, helements⟩ := exists_of_bind_eq_ok helements
  obtain ⟨v, hv, helements⟩ := exists_of_bind_eq_ok helements
  cases helements
  cases h
  have hvalue : (Macro.value v).Legible := hsize v hv
  exact legible_withAttribute name (legible_text owner) (by simp [legible_spelling, hvalue])

theorem legible_assignment {struct : String} {f : Field} {m : Macro} (h : assignment struct f = .ok m) : m.Legible := by
  unfold assignment at h
  split at h
  case h_1 => cases h; exact legible_withAttribute _ (legible_text _) (legible_text _)
  case h_2 => cases h; exact legible_withAttribute _ (legible_text _) (legible_text _)
  case h_3 => cases h; exact legible_floatAttribute _ _ _
  case h_4 => cases h; exact legible_floatAttribute _ _ _
  case h_5 element bound _ =>
    obtain ⟨action, -, h⟩ := exists_of_bind_eq_ok h
    refine legible_elements (fun v hv => ?_) h
    cases bound <;> cases hv <;> rfl
  case h_6 element length _ =>
    obtain ⟨action, -, h⟩ := exists_of_bind_eq_ok h
    refine legible_elements (fun v hv => ?_) h
    cases (show Except.ok (Value.text length) = .ok v from hv)
    rfl
  case h_7 t =>
    split at h
    · obtain ⟨value, -, h⟩ := exists_of_bind_eq_ok h
      cases h
      exact legible_int64Attribute _ _ _
    · obtain ⟨name, -, h⟩ := exists_of_bind_eq_ok h
      cases h

theorem legible_attributeSetting {struct : String} {f : Field} {m : Macro} (h : attributeSetting struct f = .ok m) :
    m.Legible := by
  -- Beside the setting of the attribute, such a call has texts as arguments.
  have hcall : ∀ (name value : String) (arguments : List Macro), (∀ a ∈ arguments, a.Legible) →
      (Macro.call name (arguments ++ [Access.setAttribute f.name value])).Legible := fun _ _ _ harguments => by
    simpa [or_imp, forall_and, legible_setAttribute] using harguments
  unfold attributeSetting at h
  split at h
  case h_1 => cases h; exact legible_setAttribute _ _
  case h_2 => cases h; exact legible_setAttribute _ _
  case h_3 => cases h; exact hcall _ _ [_, _] (by simp)
  case h_4 => cases h; exact hcall _ _ [_, _] (by simp)
  case h_5 => cases h; exact hcall _ _ [_, _] (by simp)
  case h_6 => cases h; exact hcall _ _ [_, _] (by simp)
  case h_7 =>
    obtain ⟨name, -, h⟩ := exists_of_bind_eq_ok h
    cases h
    exact hcall _ _ [_, _] (by simp)
  case h_8 =>
    obtain ⟨name, -, h⟩ := exists_of_bind_eq_ok h
    cases h
    exact hcall _ _ [_, _, _] (by simp)
  case h_9 t =>
    split at h
    · cases h
      exact hcall _ _ [_, _] (by simp)
    · obtain ⟨name, -, h⟩ := exists_of_bind_eq_ok h
      cases h

/-! #### Functions -/

theorem settles_enumerationToC {e : Enumeration} (he : e.name ≠ "") : Settles Sources.gauge 1 (enumerationToC e) True := by
  obtain ⟨c, hc⟩ := exists_cName he "enum " "_e" e.typedef
  have hordinal : Settles Writer.gauge 0
      (Access.int64Attribute (.text "python_enum") "value" (.text "ordinal = (int) value")).writeStatement True :=
    (settles_statement _).congr (iff_true_intro (legible_int64Attribute _ _ _))
  have hcases : Settles Writer.gauge 0 (Writing.each e.values valueCase) True :=
    (Writing.settles_each (P := fun _ => True) fun v _ => (settles_line _).after fun _ => settles_line _).congr (by simp)
  refine settles_function hc (settles_definition ?_ _)
  exact (settles_line _).after fun _ => hordinal.after fun _ => (settles_line _).after fun _ => hcases.after fun _ =>
    (settles_line _).after fun _ => (settles_line _).after fun _ => settles_line _

theorem settles_enumerationToPython (path : String) {e : Enumeration} (he : e.name ≠ "") :
    Settles Sources.gauge 1 (enumerationToPython path e) True := by
  obtain ⟨c, hc⟩ := exists_cName he "enum " "_e" e.typedef
  refine settles_function hc (settles_definition ?_ _)
  exact (settles_line _).after fun _ => (settles_loadClass _ _ _).after fun _ => (settles_line _).after fun _ =>
    (settles_write _).after fun _ => (settles_block (settles_line _) "").weaken.after fun _ => settles_line _

/-- The statements of the fields are written if there is one for each of them. -/
theorem settles_statements {fields : List Field} {statement : Field → Except Fault Macro}
    (hlegible : ∀ f m, statement f = .ok m → m.Legible) :
    Settles Writer.gauge 0 (Writing.each fields fun f => do (← Writing.check (statement f)).writeStatement)
      (∀ f ∈ fields, ∃ m, statement f = .ok m) := by
  refine Writing.settles_each fun f _ => ?_
  refine (settles_check (P := fun _ => True) fun m hm => ?_).congr (by simp)
  exact (settles_statement m).congr (iff_true_intro (hlegible f m hm))

theorem settles_structToC {s : Struct} (hs : s.name ≠ "") :
    Settles Sources.gauge 1 (structToC s) (∀ f ∈ s.fields, ∃ m, assignment s.name f = .ok m) := by
  obtain ⟨c, hc⟩ := exists_cName hs "struct " "_t" s.typedef
  refine settles_function hc (settles_definition ?_ _)
  unfold structToCBody
  rw [show s.cName = .ok c from hc]
  exact (settles_line _).after fun _ => (settles_statements fun _ _ => legible_assignment).before fun _ => settles_line _

theorem settles_structToPython (path : String) {s : Struct} (hs : s.name ≠ "") :
    Settles Sources.gauge 1 (structToPython path s) (∀ f ∈ s.fields, ∃ m, attributeSetting s.name f = .ok m) := by
  obtain ⟨c, hc⟩ := exists_cName hs "struct " "_t" s.typedef
  refine settles_function hc (settles_definition ?_ _)
  exact (settles_line _).after fun _ => (settles_loadClass _ _ _).after fun _ => (settles_line _).after fun _ =>
    (settles_write _).after fun _ => (settles_block (settles_line _) "").weaken.after fun _ =>
      (settles_statements fun _ _ => legible_attributeSetting).before fun _ => settles_line _

/-- A field can be converted in both directions. -/
def Convertible (struct : String) (f : Field) : Prop :=
  (∃ m, assignment struct f = .ok m) ∧ ∃ m, attributeSetting struct f = .ok m

/-- The conversions of a module are written if its fields can be converted. -/
theorem settles_run (package : String) {m : Module} (hm : m.Orderly) :
    Settles Sources.gauge 1 (run package m) (∀ s ∈ m.structs, ∀ f ∈ s.fields, Convertible s.name f) := by
  have henums : Settles Sources.gauge 1 (Sourcing.each m.enumerations fun e => do
      enumerationToC e
      enumerationToPython (classPath package m) e) True :=
    (Sourcing.settles_each (P := fun _ => True) fun e he => (settles_enumerationToC (hm.enumerations e he).name).after
      fun _ => settles_enumerationToPython _ (hm.enumerations e he).name).congr (by simp)
  refine henums.after fun _ => Sourcing.settles_each fun s hs => ?_
  have hname := (hm.structs s hs).name
  refine ((settles_structToC hname).bind fun _ => settles_structToPython _ hname).congr ?_
  simp only [Convertible, forall_and]

end Conversion

/-! ### Printers -/

namespace Printers

open Sourcing

/-- A value of the type can be printed. Of the elements of an array only structs are printed. -/
def Printable : DataType → Prop
  | .struct s => ∃ c, s.cName = .ok c
  | .enumeration e => ∃ c, e.cName = .ok c
  | .array (.struct s) _ => ∃ c, s.cName = .ok c
  | .array _ _ => True
  | .primitive p => ∃ code, (DataType.primitive p).printfCode = .ok code
  | .custom name castType isInteger => ∃ code, (DataType.custom name castType isInteger).printfCode = .ok code
  | _ => False

theorem settles_switchBody (e : Enumeration) : Settles Writer.gauge 0 (switchBody e) True := by
  have hcase : ∀ v, Settles Writer.gauge 0 (valueCase v) True := fun v => by
    have hlines : Settles Writer.gauge 0
        (line ("OutputHandler_process(out, \"%s\", \"" ++ v ++ "\");") >>= fun _ => line "break;") True :=
      (settles_line _).after fun _ => settles_line _
    have hdeeper := settles_deeper hlines
    rw [bind_assoc] at hdeeper
    exact (settles_line _).after fun _ => hdeeper
  have hcases : Settles Writer.gauge 0 (Writing.each e.values valueCase) True :=
    (Writing.settles_each (P := fun _ => True) fun v _ => hcase v).congr (by simp)
  exact hcases.after fun _ => (settles_line _).after fun _ => settles_deeper (settles_line _)

theorem settles_enumeration {style : Style} (hstyle : style = .knr ∨ style = .bsd) {e : Enumeration} (he : e.name ≠ "") :
    Settles Sources.gauge 1 (enumeration style e) True := by
  obtain ⟨c, hc⟩ := exists_cName he "enum " "_e" e.typedef
  have hswitch := (settles_block (settles_switchBody e) "").weaken
  refine settles_function hc ?_
  exact (settles_before hstyle _).after fun _ =>
    (settles_block ((settles_before hstyle _).after fun _ => hswitch) "").before fun _ => settles_line ""

theorem settles_element (field : String) (type : DataType) (length : String) :
    Settles Writer.gauge 0 (element field type) (Printable (.array type length)) := by
  refine (settles_line _).after fun _ => ?_
  cases type with
  | struct s =>
    refine (settles_check (P := fun _ => True) fun c _ => ?_).congr (by simp [Printable])
    exact (settles_line _).after fun _ => settles_line _
  | _ => exact settles_line _

theorem settles_fieldValue {style : Style} (hstyle : style = .knr ∨ style = .bsd) (f : Field) :
    Settles Writer.gauge 0 (fieldValue style f) (Printable f.type) := by
  obtain ⟨name, type, comment⟩ := f
  cases type with
  | struct s => exact (settles_check (P := fun _ => True) fun c _ => settles_line _).congr (by simp [Printable])
  | enumeration e => exact (settles_check (P := fun _ => True) fun c _ => settles_line _).congr (by simp [Printable])
  | primitive p => exact (settles_check (P := fun _ => True) fun c _ => settles_line _).congr (by simp [Printable])
  | custom label castType isInteger =>
    exact (settles_check (P := fun _ => True) fun c _ => settles_line _).congr (by simp [Printable])
  | array type length =>
    have hloop := (settles_block (settles_element name type length) "").weaken
    exact (settles_line _).after fun _ => (settles_before hstyle _).after fun _ =>
      hloop.before fun _ => (settles_line _).after fun _ => settles_line _
  | _ => exact Settles.throw _

theorem settles_struct {style : Style} (hstyle : style = .knr ∨ style = .bsd) {s : Struct} (hs : s.name ≠ "") :
    Settles Sources.gauge 1 (struct style s) (∀ f ∈ s.fields, Printable f.type) := by
  obtain ⟨c, hc⟩ := exists_cName hs "struct " "_t" s.typedef
  have hfield : ∀ f, Settles Writer.gauge 0 (field style f) (Printable f.type) := fun f =>
    (settles_line _).after fun _ => (settles_line _).after fun _ => (settles_fieldValue hstyle f).before fun _ => settles_line _
  refine settles_function hc ?_
  refine (settles_before hstyle _).after fun _ => (settles_block ?_ "").before fun _ => settles_line ""
  exact (settles_line _).after fun _ => (Writing.settles_each fun f _ => hfield f).before fun _ =>
    (settles_line _).after fun _ => settles_line _

/-- The printers of a module are written if its fields can be printed. -/
theorem settles_run {style : Style} (hstyle : style = .knr ∨ style = .bsd) {m : Module} (hm : m.Orderly) :
    Settles Sources.gauge 1 (run style m) (∀ s ∈ m.structs, ∀ f ∈ s.fields, Printable f.type) := by
  have henums : Settles Sources.gauge 1 (Sourcing.each m.enumerations (enumeration style)) True :=
    (Sourcing.settles_each (P := fun _ => True) fun e he => settles_enumeration hstyle (hm.enumerations e he).name).congr
      (by simp)
  exact henums.after fun _ => Sourcing.settles_each fun s hs => settles_struct hstyle (hm.structs s hs).name

end Printers

end Emit
end CodeBridge
