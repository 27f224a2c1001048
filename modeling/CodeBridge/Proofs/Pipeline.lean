import CodeBridge.Proofs.Sessions
import CodeBridge.Proofs.Templates

/-! # Modules that can be written

Each generator has its own list of types that it takes. All files of a module are written if the types of its fields
are on all of these lists and its comments say something. -/

namespace CodeBridge

open Emit

/-! ### Types -/

/-- The types that fields are declared with: primitives, named structs and enumerations, and what is built from them. -/
inductive Built : DataType → Prop where
  | primitive (p : Primitive) : Built (.primitive p)
  | struct (s : Struct) (h : s.name ≠ "") : Built (.struct s)
  | enumeration (e : Enumeration) (h : e.name ≠ "") : Built (.enumeration e)
  | list {element : DataType} (h : Built element) (maximum : String) : Built (.list element (.named maximum))
  | array {element : DataType} (h : Built element) (length : String) : Built (.array element length)
  | set (name : String) {element : DataType} (h : Built element) (extra : List DataType) : Built (.set name element extra)

/-- What the elements of an array can be. -/
def ElementType : DataType → Prop
  | .struct _ => True
  | .enumeration _ => True
  | .primitive p => p.isInteger = true ∨ p = .float ∨ p = .double
  | _ => False

/-- What a field can be. A whole number of no fixed size can only be an element. -/
def FieldType : DataType → Prop
  | .struct _ => True
  | .enumeration _ => True
  | .primitive p => p ∈ [.int8, .uint8, .int16, .uint16, .int32, .uint32, .int64, .uint64] ∨ p = .float ∨ p = .double
  | .array element _ => ElementType element
  | _ => False

namespace Emit

theorem exists_spelling_of_elementType {t : DataType} (h : Built t) (ht : ElementType t) :
    ∃ spelling, t.spelling = .ok spelling := by
  cases h with
  | primitive p => exact ⟨_, rfl⟩
  | struct s hs =>
    obtain ⟨c, hc⟩ := exists_cName hs "struct " "_t" s.typedef
    exact ⟨.plain c, spelling_struct hc⟩
  | enumeration e he =>
    obtain ⟨c, hc⟩ := exists_cName he "enum " "_e" e.typedef
    exact ⟨.plain c, spelling_enumeration hc⟩
  | list | array | set => cases ht

theorem Conversion.exists_elementAssignment_iff (target : String) {t : DataType} (h : Built t) :
    (∃ action, elementAssignment target t = .ok action) ↔ ElementType t := by
  cases h with
  | primitive p => cases p <;> simp [elementAssignment, ElementType, DataType.isInteger, Primitive.isInteger,
      DataType.cast, DataType.name, bind, Except.bind, pure, Except.pure, throw, throwThe, MonadExceptOf.throw]
  | struct s hs => simp [elementAssignment, ElementType]
  | enumeration e he => simp [elementAssignment, ElementType]
  | list => simp [elementAssignment, ElementType]
  | array => simp [elementAssignment, ElementType]
  | set => simp [elementAssignment, ElementType, DataType.isInteger, DataType.name, bind, Except.bind, throw, throwThe,
      MonadExceptOf.throw]

/-- A field that every generator takes. -/
structure Taken (struct : String) (f : Field) : Prop where
  declarable : Header.Declarable f
  hinted : Dataclasses.Hinted f
  convertible : Conversion.Convertible struct f
  printable : Printers.Printable f.type

theorem taken_primitive_iff {struct name : String} {p : Primitive} {comment : Option String} :
    Taken struct ⟨name, .primitive p, comment⟩ ↔ FieldType (.primitive p) ∧ Speaks comment := by
  have hspelling : ∃ spelling, (DataType.primitive p).spelling = .ok spelling := ⟨_, rfl⟩
  have hhint : ∃ hint, (DataType.primitive p).typeHint [] = .ok hint := by cases p <;> exact ⟨_, rfl⟩
  -- The printers take the fewest primitives, and what they take can be converted.
  have hprintable : Printers.Printable (.primitive p) ↔ FieldType (.primitive p) := by
    cases p <;> simp [Printers.Printable, FieldType, DataType.printfCode]
  have hconvertible : FieldType (.primitive p) → Conversion.Convertible struct ⟨name, .primitive p, comment⟩ := by
    intro h
    cases p <;> first | exact ⟨⟨_, rfl⟩, _, rfl⟩ | simp [FieldType] at h
  constructor
  · intro h
    exact ⟨hprintable.mp h.printable, h.declarable.2⟩
  · rintro ⟨hp, hspeaks⟩
    exact ⟨⟨hspelling, hspeaks⟩, ⟨hhint, hspeaks⟩, hconvertible hp, hprintable.mpr hp⟩

theorem taken_array_iff {struct name length : String} {element : DataType} (h : Built element) {comment : Option String} :
    Taken struct ⟨name, .array element length, comment⟩ ↔ ElementType element ∧ Speaks comment := by
  constructor
  · intro h'
    obtain ⟨m, hm⟩ := h'.convertible.1
    obtain ⟨action, haction, -⟩ := exists_of_bind_eq_ok hm
    exact ⟨(Conversion.exists_elementAssignment_iff _ h).mp ⟨action, haction⟩, h'.declarable.2⟩
  · rintro ⟨helement, hspeaks⟩
    obtain ⟨spelling, hspelling⟩ := exists_spelling_of_elementType h helement
    have hassignment : ∃ m, Conversion.assignment struct ⟨name, .array element length, comment⟩ = .ok m := by
      obtain ⟨action, haction⟩ :=
        (Conversion.exists_elementAssignment_iff ("result." ++ name ++ "[item_index]") h).mpr helement
      exact ⟨_, by
        simp only [Conversion.assignment, haction, Access.arrayAttributeElements, Access.arrayElements, DataType.element,
          DataType.length, bind, Except.bind, hspelling]
        rfl⟩
    have hsetting : ∃ m, Conversion.attributeSetting struct ⟨name, .array element length, comment⟩ = .ok m := by
      obtain ⟨label, hlabel⟩ : ∃ label, element.name = .ok label := by cases h <;> exact ⟨_, rfl⟩
      exact ⟨_, by simp only [Conversion.attributeSetting, hlabel, bind, Except.bind]; rfl⟩
    have hprintable : Printers.Printable (.array element length) := by
      cases h with
      | struct s hs => exact exists_cName hs "struct " "_t" s.typedef
      | _ => trivial
    exact ⟨⟨⟨_, by rw [DataType.spelling, hspelling]; rfl⟩, hspeaks⟩, ⟨⟨_, rfl⟩, hspeaks⟩, ⟨hassignment, hsetting⟩,
      hprintable⟩

/-- What all generators take together. -/
theorem taken_iff {struct : String} {f : Field} (h : Built f.type) :
    Taken struct f ↔ FieldType f.type ∧ Speaks f.comment := by
  obtain ⟨name, type, comment⟩ := f
  cases h with
  | primitive p => exact taken_primitive_iff
  | struct s hs =>
    obtain ⟨c, hc⟩ := exists_cName hs "struct " "_t" s.typedef
    refine ⟨fun h => ⟨trivial, h.declarable.2⟩, fun ⟨_, hspeaks⟩ => ?_⟩
    exact ⟨⟨⟨.plain c, spelling_struct hc⟩, hspeaks⟩, ⟨⟨_, rfl⟩, hspeaks⟩, ⟨⟨_, rfl⟩, _, rfl⟩, c, hc⟩
  | enumeration e he =>
    obtain ⟨c, hc⟩ := exists_cName he "enum " "_e" e.typedef
    refine ⟨fun h => ⟨trivial, h.declarable.2⟩, fun ⟨_, hspeaks⟩ => ?_⟩
    exact ⟨⟨⟨.plain c, spelling_enumeration hc⟩, hspeaks⟩, ⟨⟨_, rfl⟩, hspeaks⟩, ⟨⟨_, rfl⟩, _, rfl⟩, c, hc⟩
  | list => exact ⟨fun h => h.printable.elim, fun h => h.1.elim⟩
  | array h length => exact taken_array_iff h
  | set => exact ⟨fun h => h.printable.elim, fun h => h.1.elim⟩

end Emit

/-! ### Modules -/

namespace Template

/-- A module whose fields have types of the known kinds, and whose ordinals are numbers that can be written. -/
structure Ordinary (m : Module) : Prop extends m.Orderly where
  ordinals : ∀ e ∈ m.enumerations, ∃ n, e.first = .int n ∧ Header.Writable n e.values.length
  types : ∀ s ∈ m.structs, ∀ f ∈ s.fields, Built f.type

theorem counted_of_writable {n : Int} {values : List String} (h : Header.Writable n values.length) :
    Counted (.int n) values := by
  induction values generalizing n with
  | nil => trivial
  | cons value values ih => exact ⟨_, Header.text?_int h.head, .int (n + 1), rfl, ih h.tail⟩

variable {m : Module}

theorem Ordinary.counted (h : Ordinary m) : ∀ e ∈ m.enumerations, Counted e.first e.values := by
  intro e he
  obtain ⟨n, hn, hwritable⟩ := h.ordinals e he
  rw [hn]
  exact counted_of_writable hwritable

/-- The four generators succeed on a module if each of them takes all of its fields. -/
theorem generated_iff {style : Style} (hstyle : style = .knr ∨ style = .bsd) (hm : Ordinary m) (package : String) :
    (∀ t ∈ targets m package style, ∃ code, t.code = .ok code) ↔
      ∀ s ∈ m.structs, ∀ f ∈ s.fields, Taken s.name f := by
  have hclasses : (∃ text, classesText m = .ok text) ↔ ∀ s ∈ m.structs, ∀ f ∈ s.fields, Dataclasses.Hinted f :=
    ((Dataclasses.guarded m).outcome_iff (r := .run) (Dataclasses.settles_run m)).trans (and_iff_right hm.counted)
  have hheader : (∃ text, headerText style m = .ok text) ↔ ∀ s ∈ m.structs, ∀ f ∈ s.fields, Header.Declarable f :=
    ((Header.guarded hstyle hm.toOrderly).outcome_iff (r := .run) (Header.settles_run hstyle hm.toOrderly)).trans
      (and_iff_right hm.counted)
  have hconversions : (∃ texts, conversionTexts package m = .ok texts) ↔
      ∀ s ∈ m.structs, ∀ f ∈ s.fields, Conversion.Convertible s.name f :=
    (Conversion.guarded package hm.toOrderly).outcome_iff (r := .run) (Conversion.settles_run package hm.toOrderly)
  have hprinters : (∃ texts, printerTexts .bsd m = .ok texts) ↔
      ∀ s ∈ m.structs, ∀ f ∈ s.fields, Printers.Printable f.type :=
    (Printers.guarded (.inr rfl) hm.toOrderly).outcome_iff (r := .run) (Printers.settles_run (.inr rfl) hm.toOrderly)
  -- Both texts of a pair are there if the pair is.
  have hmap : ∀ {α β : Type} (e : Except Fault α) (g : α → β), (∃ b, g <$> e = .ok b) ↔ ∃ a, e = .ok a := by
    intro α β e g
    cases e <;> simp [Functor.map, Except.map]
  simp only [targets, List.forall_mem_cons, List.not_mem_nil, false_imp_iff, implies_true, and_true, hmap, hclasses,
    hheader, hconversions, hprinters]
  constructor
  · rintro ⟨hhinted, hdeclarable, hconvertible, -, hprintable, -⟩ s hs f hf
    exact ⟨hdeclarable s hs f hf, hhinted s hs f hf, hconvertible s hs f hf, hprintable s hs f hf⟩
  · intro h
    exact ⟨fun s hs f hf => (h s hs f hf).hinted, fun s hs f hf => (h s hs f hf).declarable,
      fun s hs f hf => (h s hs f hf).convertible, fun s hs f hf => (h s hs f hf).convertible,
      fun s hs f hf => (h s hs f hf).printable, fun s hs f hf => (h s hs f hf).printable⟩

/-- All files of a module are written if every field has a type that a field can have and a comment that says
something, and not otherwise. -/
theorem writeModule_succeeds_iff {style : Style} (hstyle : style = .knr ∨ style = .bsd) (hm : Ordinary m)
    {directory package : String} {d : Desk} (hopen : ∀ t ∈ targets m package style, t.Openable directory d.folder)
    (htemplates : ∀ t ∈ targets m package style, ∃ text, d.folder.read (t.template directory) = .ok text) :
    (∃ d', writeModule m directory package style d = .ok () d') ↔
      ∀ s ∈ m.structs, ∀ f ∈ s.fields, FieldType f.type ∧ Speaks f.comment := by
  rw [writeModule_eq_ok_iff hopen htemplates, generated_iff hstyle hm package]
  exact forall₂_congr fun s hs => forall₂_congr fun f hf => taken_iff (hm.types s hs f hf)

/-- Counts of some type, with a comment. -/
def tally (type : DataType) : Module :=
  ⟨"tally", [⟨"SIZE", .int 4⟩], [⟨"Tally", [⟨"counts", type, some "\n of each day"⟩], .bool false, .text "t"⟩],
    [⟨"Day", ["MON", "TUE"], .int 1, .bool true, .text "e"⟩]⟩

theorem tally_ordinary {type : DataType} (h : Built type) : Ordinary (tally type) where
  enumerations := by simpa [tally] using ⟨by decide, _, rfl⟩
  structs := by simpa [tally] using ⟨by decide, _, rfl⟩
  typed := by simp [tally, Constant.typeOf?]
  short := by
    rintro c hc n hn
    cases List.mem_singleton.mp hc
    cases hn
    exact Decimal.tooLong_eq_false 1 (by decide) (by decide)
  ordinals := by
    intro e he
    cases List.mem_singleton.mp he
    refine ⟨1, rfl, fun i hi => ?_⟩
    have hi : i < 2 := hi
    exact Decimal.tooLong_eq_false 1 (by decide) (by omega)
  types := by simpa [tally] using h

theorem tally_names (type : DataType) : (targets (tally type) "" .knr).map Target.name =
    ["python_tally_protocol.py", "tally_protocol.h", "tally_conversion.h", "tally_conversion.c", "tally_to_string.h",
      "tally_to_string.c"] := by
  simp [targets, Target.name, tally]

/-- A desk away from the directory with all templates of the module. -/
def stocked : Desk where
  folder :=
    { nodes := [(["srv", "tally", "python_tally_protocol.py.template"], .file "@_code;"),
        (["srv", "tally", "tally_protocol.h.template"], .file "@_code;"),
        (["srv", "tally", "tally_conversion.h.template"], .file "@_code;"),
        (["srv", "tally", "tally_conversion.c.template"], .file "@_code;"),
        (["srv", "tally", "tally_to_string.h.template"], .file "@_code;"),
        (["srv", "tally", "tally_to_string.c.template"], .file "@_code;"), (["home"], .directory)],
      here := ["home"] }

theorem tally_openable (type : DataType) :
    ∀ t ∈ targets (tally type) "" .knr, t.Openable "/srv/tally" stocked.folder := by
  have hfree : ∀ name ∈ (targets (tally type) "" .knr).map Target.name,
      (Folder.parts (Folder.join "/srv/tally" name)).getLast? ≠ some "" ∧
        stocked.folder.locate (Folder.join "/srv/tally" name) = .ok ["srv", "tally", name] ∧
        stocked.folder.isDirectory ["srv", "tally", name] = false := by
    rw [tally_names]
    decide +kernel
  intro t ht
  obtain ⟨hslash, hplace, hdirectory⟩ := hfree _ (List.mem_map_of_mem ht)
  exact Target.openable_of_locate hslash hplace hdirectory

theorem tally_stocked (type : DataType) :
    ∀ t ∈ targets (tally type) "" .knr, ∃ text, stocked.folder.read (t.template "/srv/tally") = .ok text := by
  have hread : ∀ name ∈ (targets (tally type) "" .knr).map Target.name,
      stocked.folder.read (Folder.join "/srv/tally" (name ++ ".template")) = .ok "@_code;" := by
    rw [tally_names]
    decide +kernel
  exact fun t ht => ⟨_, hread _ (List.mem_map_of_mem ht)⟩

/-- Whole numbers of no fixed size can be the elements of an array, and not a field. -/
theorem writeModule_succeeds_tally :
    (∃ d', writeModule (tally (.array (.primitive .integer) "SIZE")) "/srv/tally" "" .knr stocked = .ok () d') ∧
      ¬∃ d', writeModule (tally (.primitive .integer)) "/srv/tally" "" .knr stocked = .ok () d' := by
  constructor
  · have harray : Built (.array (.primitive .integer) "SIZE") := .array (.primitive .integer) "SIZE"
    refine (writeModule_succeeds_iff (.inl rfl) (tally_ordinary harray) (tally_openable _) (tally_stocked _)).mpr ?_
    simp only [tally, List.mem_singleton, forall_eq, FieldType, ElementType, Speaks]
    refine ⟨.inl rfl, ?_⟩
    rintro text ⟨⟩ -
    exact ⟨" of each day".toList, by decide, 'o', by decide, by decide⟩
  · rw [writeModule_succeeds_iff (.inl rfl) (tally_ordinary (.primitive .integer)) (tally_openable _) (tally_stocked _)]
    simp [tally, FieldType]

end Template

end CodeBridge
