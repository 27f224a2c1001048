import CodeBridge.Proofs.ForwardReferences

/-! # Type hints that follow their types

A type hint should show how its type is made: lists and arrays of elements as `list[..]`, sets as `set[..]`, and the
names of structs and enumerations, alone in quotes as long as their classes are not written. The hint does so where
nothing but lists stands around a primitive, a struct or an enumeration. A set has no hint. An array is taken for a class
that has the name of the array. -/

namespace CodeBridge

/-- What is left of a type without all the lists, arrays and sets around it. -/
def DataType.origin : DataType → DataType
  | .list element _ => element.origin
  | .array element _ => element.origin
  | .set _ element _ => element.origin
  | t => t

/-- What is left of a type without the lists around it. -/
def DataType.underLists : DataType → DataType
  | .list element _ => element.underLists
  | t => t

namespace Emit.Dataclasses

/-! ### Types by their constructors -/

/-- The types that the constructors of a schema make of primitives, structs and enumerations. -/
inductive Constructed : DataType → Prop where
  | primitive (p : Primitive) : Constructed (.primitive p)
  | struct (s : Struct) : Constructed (.struct s)
  | enumeration (e : Enumeration) : Constructed (.enumeration e)
  | list {element t : DataType} (h : Constructed element) {maximum : Option Constant}
      (ht : DataType.listOf element maximum = .ok t) : Constructed t
  | array {element t : DataType} (h : Constructed element) {length : Option Constant}
      (ht : DataType.arrayOf element length = .ok t) : Constructed t
  | set {element t : DataType} (h : Constructed element) {name : String}
      (ht : DataType.setOf name element [] = .ok t) : Constructed t

section
variable {element t : DataType}

theorem of_listOf_eq_ok {maximum : Option Constant} (h : DataType.listOf element maximum = .ok t) :
    ∃ bound, t = .list element bound := by
  obtain ⟨_, -, h⟩ := exists_of_bind_eq_ok h
  cases maximum with
  | none =>
    cases h
    exact ⟨.unset, rfl⟩
  | some c =>
    obtain ⟨name, -, h⟩ := exists_of_bind_eq_ok h
    cases h
    exact ⟨.named name, rfl⟩

theorem of_arrayOf_eq_ok {length : Option Constant} (h : DataType.arrayOf element length = .ok t) :
    ∃ name, t = .array element name := by
  obtain ⟨_, -, h⟩ := exists_of_bind_eq_ok h
  cases length with
  | none => cases h
  | some c =>
    obtain ⟨name, -, h⟩ := exists_of_bind_eq_ok h
    cases h
    exact ⟨name, rfl⟩

theorem of_setOf_eq_ok {name : String} {extra : List DataType} (h : DataType.setOf name element extra = .ok t) :
    t = .set name element extra := by
  obtain ⟨_, -, h⟩ := exists_of_bind_eq_ok h
  exact (Except.ok.inj h).symm

end

/-! ### The hint that a type should have -/

/-- What Python calls a primitive. -/
def builtinName : Primitive → String
  | .boolean => "bool"
  | .float => "float"
  | .double => "float"
  | .string => "str"
  | _ => "int"

/-- The hint follows how the type is made. A class is quoted unless it is `written`. -/
inductive Mirrors (written : List String) : DataType → Hint → Prop where
  | primitive (p : Primitive) : Mirrors written (.primitive p) (.builtin (builtinName p))
  | struct (s : Struct) : Mirrors written (.struct s) (.reference s.name (!written.contains s.name))
  | enumeration (e : Enumeration) : Mirrors written (.enumeration e) (.reference e.name (!written.contains e.name))
  | list {element : DataType} {a : Hint} (h : Mirrors written element a) (bound : Bound) :
      Mirrors written (.list element bound) (.list a)
  | array {element : DataType} {a : Hint} (h : Mirrors written element a) (length : String) :
      Mirrors written (.array element length) (.list a)
  | set {element : DataType} {a : Hint} (h : Mirrors written element a) (name : String) :
      Mirrors written (.set name element []) (.set a)

variable {written : List String} {t : DataType} {a b : Hint}

theorem Mirrors.unique (ha : Mirrors written t a) (hb : Mirrors written t b) : a = b := by
  induction ha generalizing b with
  | primitive p => cases hb; rfl
  | struct s => cases hb; rfl
  | enumeration e => cases hb; rfl
  | list _ _ ih =>
    cases hb with
    | list h => rw [ih h]
  | array _ _ ih =>
    cases hb with
    | array h => rw [ih h]
  | set _ _ ih =>
    cases hb with
    | set h => rw [ih h]

theorem Constructed.exists_mirror (ht : Constructed t) : ∃ a, Mirrors written t a := by
  induction ht with
  | primitive p => exact ⟨_, .primitive p⟩
  | struct s => exact ⟨_, .struct s⟩
  | enumeration e => exact ⟨_, .enumeration e⟩
  | list _ ht ih =>
    obtain ⟨a, ha⟩ := ih
    obtain ⟨bound, rfl⟩ := of_listOf_eq_ok ht
    exact ⟨.list a, .list ha bound⟩
  | array _ ht ih =>
    obtain ⟨a, ha⟩ := ih
    obtain ⟨length, rfl⟩ := of_arrayOf_eq_ok ht
    exact ⟨.list a, .array ha length⟩
  | set _ ht ih =>
    obtain ⟨a, ha⟩ := ih
    cases of_setOf_eq_ok ht
    exact ⟨.set a, .set ha _⟩

/-- A hint that follows its type refers to nothing but the struct or the enumeration that the type is made of. -/
theorem Mirrors.reference_of_mem (h : Mirrors written t a) {reference : String × Bool} (hmem : reference ∈ a.references) :
    ∃ item, t.origin.item? = some item ∧ reference.1 = item.label := by
  induction h with
  | primitive p => cases hmem
  | struct s =>
    cases List.mem_singleton.mp hmem
    exact ⟨.struct s, rfl, rfl⟩
  | enumeration e =>
    cases List.mem_singleton.mp hmem
    exact ⟨.enumeration e, rfl, rfl⟩
  | list _ _ ih => exact ih hmem
  | array _ _ ih => exact ih hmem
  | set _ _ ih => exact ih hmem

/-! ### The hint that a type has -/

/-- The types whose hints follow them. The hint of an array does by chance only: when there is a class with the name of
the array, and the elements are called in that name as their own hint calls them. -/
inductive Followed (written : List String) : DataType → Prop where
  | primitive (p : Primitive) : Followed written (.primitive p)
  | struct (s : Struct) : Followed written (.struct s)
  | enumeration (e : Enumeration) : Followed written (.enumeration e)
  | list {element : DataType} (h : Followed written element) (bound : Bound) : Followed written (.list element bound)
  | array {element : DataType} {a : Hint} (h : Mirrors written element a) (hlabel : element.label = a.text)
      {length : String} (hwritten : (DataType.array element length).label ∈ written) :
      Followed written (.array element length)

theorem typeHint_list (element : DataType) (bound : Bound) :
    (DataType.list element bound).typeHint written = (element.typeHint written).map fun hint => "list[" ++ hint ++ "]" := by
  rw [DataType.typeHint]
  cases element.typeHint written <;> rfl

/-- An array is hinted at by its name, in quotes unless a class of that name is written. -/
theorem typeHint_array (element : DataType) (length : String) :
    (DataType.array element length).typeHint written = .ok (Hint.reference (DataType.array element length).label
      (!written.contains (DataType.array element length).label)).text :=
  congrArg Except.ok (classReference_eq written _)

theorem list_text_inj {x y : String} : "list[" ++ x ++ "]" = "list[" ++ y ++ "]" ↔ x = y := by
  rw [String.append_left_inj, String.append_right_inj]

/-- A name in quotes is no list. -/
theorem quoted_ne_list (name inner : String) : (Hint.reference name true).text ≠ "list[" ++ inner ++ "]" := by
  intro h
  have hfirst := congrArg (List.head? ∘ String.toList) h
  simp [Hint.text] at hfirst

theorem array_text_eq_iff (element : DataType) (length : String) (a : Hint) :
    (Hint.reference (DataType.array element length).label (!written.contains (DataType.array element length).label)).text =
      (Hint.list a).text ↔ (DataType.array element length).label ∈ written ∧ element.label = a.text := by
  by_cases hmem : (DataType.array element length).label ∈ written
  · have hname : (Hint.reference (DataType.array element length).label
        (!written.contains (DataType.array element length).label)).text = "list[" ++ element.label ++ "]" := by
      rw [List.contains_iff_mem.mpr hmem]
      rfl
    rw [hname, Hint.text, list_text_inj, and_iff_right hmem]
  · have hcontains : written.contains (DataType.array element length).label = false := by simpa using hmem
    rw [hcontains]
    exact iff_of_false (quoted_ne_list _ _) fun h => hmem h.1

theorem Mirrors.typeHint_eq_iff (h : Mirrors written t a) : t.typeHint written = .ok a.text ↔ Followed written t := by
  induction h with
  | primitive p => exact iff_of_true (by cases p <;> rfl) (.primitive p)
  | struct s => exact iff_of_true (congrArg Except.ok (classReference_eq written s.name)) (.struct s)
  | enumeration e => exact iff_of_true (congrArg Except.ok (classReference_eq written e.name)) (.enumeration e)
  | @list element a h bound ih =>
    have hfollowed : Followed written (.list element bound) ↔ Followed written element := by
      constructor
      · intro hf
        cases hf with
        | list hf => exact hf
      · exact fun hf => .list hf bound
    rw [typeHint_list, hfollowed, ← ih]
    cases element.typeHint written with
    | error fault => simp [Except.map]
    | ok hint => simp only [Except.map, Except.ok.injEq, Hint.text, list_text_inj]
  | @array element a h length ih =>
    -- The hint of the elements is not asked for. Their name stands in the name of the array.
    rw [typeHint_array, Except.ok.injEq, array_text_eq_iff]
    constructor
    · rintro ⟨hwritten, hlabel⟩
      exact .array h hlabel hwritten
    · intro hf
      cases hf with
      | array h' hlabel hwritten => exact ⟨hwritten, by rw [hlabel, h'.unique h]⟩
  | set h name ih =>
    refine iff_of_false (fun e => ?_) fun hf => ?_
    · cases e
    · cases hf

/-- A hint is given out unless a set is met behind the lists. -/
theorem Constructed.exists_typeHint_iff (ht : Constructed t) :
    (∃ hint, t.typeHint written = .ok hint) ↔ ∀ name element extra, t.underLists ≠ .set name element extra := by
  induction ht with
  | primitive p => exact iff_of_true ⟨builtinName p, by cases p <;> rfl⟩ fun _ _ _ e => nomatch e
  | struct s => exact iff_of_true ⟨_, rfl⟩ fun _ _ _ e => nomatch e
  | enumeration e => exact iff_of_true ⟨_, rfl⟩ fun _ _ _ e => nomatch e
  | @list element _ _ _ ht ih =>
    obtain ⟨bound, rfl⟩ := of_listOf_eq_ok ht
    rw [DataType.underLists, ← ih, typeHint_list]
    cases element.typeHint written <;> simp [Except.map]
  | array _ ht =>
    obtain ⟨length, rfl⟩ := of_arrayOf_eq_ok ht
    exact iff_of_true ⟨_, typeHint_array _ length⟩ fun _ _ _ e => nomatch e
  | @set element _ _ name ht =>
    cases of_setOf_eq_ok ht
    refine iff_of_false (fun ⟨_, e⟩ => ?_) fun h => h name element [] rfl
    cases e

/-- Every type has one hint that follows it, which refers to nothing but the struct or the enumeration that the type is
made of. The hint that is given out is this one exactly for the types that are `Followed`, and none is given out exactly
for a set with nothing but lists around it. -/
theorem typeHint_mirrors_iff (written : List String) {t : DataType} (ht : Constructed t) :
    ∃ a, Mirrors written t a ∧ (∀ b, Mirrors written t b → b = a) ∧
      (∀ reference ∈ a.references, ∃ item, t.origin.item? = some item ∧ reference.1 = item.label) ∧
      (t.typeHint written = .ok a.text ↔ Followed written t) ∧
      ((∃ hint, t.typeHint written = .ok hint) ↔ ∀ name element extra, t.underLists ≠ .set name element extra) := by
  obtain ⟨a, ha⟩ : ∃ a, Mirrors written t a := ht.exists_mirror
  exact ⟨a, ha, fun b hb => hb.unique ha, fun reference hmem => ha.reference_of_mem hmem, ha.typeHint_eq_iff,
    ht.exists_typeHint_iff⟩

/-- The hues of all pixels. -/
def picture : DataType :=
  .list (.list (.enumeration hue) (.named "WIDTH")) .unset

theorem constructed_picture : Constructed picture := by
  have hrow : DataType.listOf (.enumeration hue) (some ⟨"WIDTH", .int 640⟩) =
      .ok (.list (.enumeration hue) (.named "WIDTH")) := rfl
  have hrows : DataType.listOf (.list (.enumeration hue) (.named "WIDTH")) none = .ok picture := rfl
  exact .list (.list (.enumeration hue) hrow) hrows

theorem picture_hint_mirrors :
    Constructed picture ∧ Followed [] picture ∧ picture.typeHint [] = .ok "list[list['Hue']]" := by
  obtain ⟨a, -, hunique, -, hiff, -⟩ := typeHint_mirrors_iff [] constructed_picture
  have hfollowed : Followed [] picture := .list (.list (.enumeration hue) _) _
  have hmirror : Mirrors [] picture (.list (.list (.reference "Hue" true))) := .list (.list (.enumeration hue) _) _
  have hhint := hiff.mpr hfollowed
  rw [← hunique _ hmirror] at hhint
  exact ⟨constructed_picture, hfollowed, hhint⟩

/-- The hint of an array is its name in quotes, and a set has none. -/
theorem array_and_set_not_mirrored :
    DataType.arrayOf (.primitive .int32) (some ⟨"COUNT", .int 8⟩) = .ok (.array (.primitive .int32) "COUNT") ∧
      (DataType.array (.primitive .int32) "COUNT").typeHint [] = .ok "'list[Int32]'" ∧
      Mirrors [] (.array (.primitive .int32) "COUNT") (.list (.builtin "int")) ∧
      (Hint.list (.builtin "int")).text = "list[int]" ∧
      DataType.setOf "Marks" (.primitive .int32) [] = .ok (.set "Marks" (.primitive .int32) []) ∧
      (DataType.set "Marks" (.primitive .int32) []).typeHint [] = .error .outOfRange ∧
      Mirrors [] (.set "Marks" (.primitive .int32) []) (.set (.builtin "int")) :=
  ⟨rfl, rfl, .array (.primitive .int32) _, rfl, rfl, rfl, .set (.primitive .int32) _⟩

end Emit.Dataclasses

end CodeBridge
