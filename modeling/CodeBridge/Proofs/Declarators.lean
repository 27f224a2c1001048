import CodeBridge.Proofs.Acceptance

/-! # Declarators of nested sequences

C declares an array of arrays by all lengths behind the name of the member, the outermost first. A list or an array of
elements that are no sequences themselves is declared so. Around another sequence only the outermost length stands behind
the name: the pair that spells the inner sequence goes into the text of the type, with its parentheses and quotes. -/

namespace CodeBridge

/-! ### C types -/

/-- A C type: one that has a name, or an array of elements. -/
inductive CType where
  | named (name : String)
  | array (length : String) (element : CType)

/-- The declaration of what is written so in expressions: an array of elements is declared as its elements are, with
the length behind it. -/
def CType.declaration : CType → String → String
  | named name, declarator => name ++ " " ++ declarator ++ ";"
  | array length element, declarator => element.declaration (declarator ++ "[" ++ length ++ "]")

/-! ### Sequences around a type -/

/-- A list or an array around its elements, by the constant for its length. -/
inductive Sequence where
  | list (maximum : String)
  | array (length : String)

namespace Sequence

def length : Sequence → String
  | list maximum => maximum
  | array length => length

/-- The sequence with elements of this type. -/
def of : Sequence → DataType → DataType
  | list maximum, element => .list element (.named maximum)
  | array length, element => .array element length

def brackets (q : Sequence) : String :=
  "[" ++ q.length ++ "]"

/-- The lengths of sequences in each other, the outermost first. -/
def dimensions : List Sequence → String
  | [] => ""
  | q :: qs => q.brackets ++ dimensions qs

end Sequence

open Sequence (dimensions brackets)

/-- The type with sequences around it, the outermost first. -/
def DataType.within (t : DataType) (qs : List Sequence) : DataType :=
  qs.foldr Sequence.of t

/-- The C type of sequences in each other, the outermost first, around what is called `name`. -/
def CType.within (name : String) (qs : List Sequence) : CType :=
  qs.foldr (fun q t => .array q.length t) (.named name)

theorem CType.declaration_within (name : String) (qs : List Sequence) (declarator : String) :
    (CType.within name qs).declaration declarator = name ++ " " ++ declarator ++ dimensions qs ++ ";" := by
  induction qs generalizing declarator with
  | nil => rw [dimensions, String.append_empty]; rfl
  | cons q qs ih =>
    have harray : (CType.within name (q :: qs)).declaration declarator =
        (CType.within name qs).declaration (declarator ++ "[" ++ q.length ++ "]") := rfl
    rw [harray, ih, dimensions, brackets, ← String.toList_inj]
    simp

/-- A type that is no sequence and has a C name. -/
inductive DataType.Innermost : DataType → Prop where
  | primitive (p : Primitive) : Innermost (.primitive p)
  | struct {s : Struct} (h : s.name ≠ "") : Innermost (.struct s)
  | enumeration {e : Enumeration} (h : e.name ≠ "") : Innermost (.enumeration e)

theorem DataType.Innermost.exists_spelling {t : DataType} (ht : t.Innermost) : ∃ c, t.spelling = .ok (.plain c) := by
  cases ht with
  | primitive p => exact ⟨p.declaredType, rfl⟩
  | struct h =>
    obtain ⟨c, hc⟩ := exists_cName h "struct " "_t" _
    exact ⟨c, spelling_struct hc⟩
  | enumeration h =>
    obtain ⟨c, hc⟩ := exists_cName h "enum " "_e" _
    exact ⟨c, spelling_enumeration hc⟩

/-! ### How nested sequences are spelled -/

/-- The text before the name of a member whose elements are these sequences around `c`: each sequence makes a pair of the
text of its elements and its own length. -/
def elementText (c : String) : List Sequence → String
  | [] => c
  | q :: qs => "(" ++ Text.quoted (elementText c qs) ++ ", " ++ Text.quoted q.brackets ++ ")"

theorem text_around (before behind : String) :
    (Spelling.around before behind).text = "(" ++ Text.quoted before ++ ", " ++ Text.quoted behind ++ ")" := by
  rw [← String.toList_inj]
  simp [Spelling.text, Spelling.value, Value.shown, Value.quoted, Value.quotedItems]

theorem spelling_of {t : DataType} {inner : Spelling} (h : t.spelling = .ok inner) (q : Sequence) :
    (q.of t).spelling = .ok (.around inner.text q.brackets) := by
  cases q with
  | list maximum =>
    rw [Sequence.of, DataType.spelling, h]
    rfl
  | array length =>
    rw [Sequence.of, DataType.spelling, h]
    rfl

/-- The spelling of sequences around a type that is spelled as one text. -/
theorem spelling_within {t : DataType} {c : String} (h : t.spelling = .ok (.plain c)) (q : Sequence) (qs : List Sequence) :
    (t.within (q :: qs)).spelling = .ok (.around (elementText c qs) q.brackets) := by
  induction qs generalizing q with
  | nil => exact spelling_of h q
  | cons r qs ih =>
    have houter := spelling_of (ih r) q
    rw [text_around] at houter
    exact houter

/-! ### Lengths of texts -/

theorem length_quotedChar_pos (quote c : Char) : 0 < (Text.quotedChar quote c).length := by
  unfold Text.quotedChar
  repeat' split
  all_goals simp

theorem length_add_two_le_quoted (s : String) : s.toList.length + 2 ≤ (Text.quoted s).toList.length := by
  have hinside : ∀ (quote : Char) (cs : List Char), cs.length ≤ (cs.flatMap (Text.quotedChar quote)).length := by
    intro quote cs
    induction cs with
    | nil => exact Nat.le_refl 0
    | cons c cs ih =>
      have hchar := length_quotedChar_pos quote c
      rw [List.flatMap_cons, List.length_append, List.length_cons]
      omega
  simp only [Text.quoted, String.toList_ofList, List.length_cons, List.length_append, List.length_nil]
  have := hinside (Text.quoteFor (s.toList.contains '\'') (s.toList.contains '"')) s.toList
  omega

/-- The text of elements that are sequences is longer than what C puts in its place. -/
theorem length_elementText (c : String) (qs : List Sequence) :
    c.toList.length + (dimensions qs).toList.length + 8 * qs.length ≤ (elementText c qs).toList.length := by
  induction qs with
  | nil => simp [elementText, dimensions]
  | cons q qs ih =>
    have helement := length_add_two_le_quoted (elementText c qs)
    have hbrackets := length_add_two_le_quoted q.brackets
    have htext : (elementText c (q :: qs)).toList.length =
        (Text.quoted (elementText c qs)).toList.length + (Text.quoted q.brackets).toList.length + 4 := by
      simp [elementText]
      omega
    have hdimensions : (dimensions (q :: qs)).toList.length = q.brackets.toList.length + (dimensions qs).toList.length := by
      simp [dimensions]
    rw [htext, hdimensions, List.length_cons]
    omega

/-! ### Declarations -/

theorem declare_eq_declaration_iff (c name : String) (q : Sequence) (qs : List Sequence) :
    (Spelling.around (elementText c qs) q.brackets).declare name = (CType.within c (q :: qs)).declaration name ↔
      qs = [] := by
  rw [CType.declaration_within, Spelling.declare, dimensions]
  constructor
  · intro h
    have hlength := congrArg (List.length ∘ String.toList) h
    have hlong := length_elementText c qs
    simp only [Function.comp_apply, String.toList_append, List.length_append] at hlength
    exact List.length_eq_zero_iff.mp (by omega)
  · rintro rfl
    rw [dimensions, elementText, String.append_empty]

theorem around_eq_dimensions_iff (c : String) (q : Sequence) (qs : List Sequence) :
    Spelling.around (elementText c qs) q.brackets = .around c (dimensions (q :: qs)) ↔ qs = [] := by
  constructor
  · intro h
    obtain ⟨hbefore, -⟩ := Spelling.around.inj h
    have hlength := congrArg (List.length ∘ String.toList) hbefore
    have hlong := length_elementText c qs
    simp only [Function.comp_apply] at hlength
    exact List.length_eq_zero_iff.mp (by omega)
  · rintro rfl
    rw [dimensions, dimensions, elementText, String.append_empty]

/-- Sequences around a type are spelled by the C name of the type and all lengths, and the member is declared as C declares
the nested array, exactly when there is one sequence. Of more than one the spelling has only the outermost length
behind the name, and the pair of each other before it. -/
theorem spelling_nested_iff {t : DataType} (ht : t.Innermost) (q : Sequence) (qs : List Sequence) :
    ∃ c, t.spelling = .ok (.plain c) ∧
      (t.within (q :: qs)).spelling = .ok (.around (elementText c qs) q.brackets) ∧
      ((t.within (q :: qs)).spelling = .ok (.around c (dimensions (q :: qs))) ↔ qs = []) ∧
      ∀ name, (∃ spelling, (t.within (q :: qs)).spelling = .ok spelling ∧
        spelling.declare name = (CType.within c (q :: qs)).declaration name) ↔ qs = [] := by
  obtain ⟨c, hc⟩ := ht.exists_spelling
  have hspelling := spelling_within hc q qs
  refine ⟨c, hc, hspelling, ?_, fun name => ?_⟩
  · rw [hspelling, Except.ok.injEq]
    exact around_eq_dimensions_iff c q qs
  · rw [hspelling, ← declare_eq_declaration_iff c name q qs]
    constructor
    · rintro ⟨spelling, h, hdeclare⟩
      cases h
      exact hdeclare
    · exact fun h => ⟨_, rfl, h⟩

/-- A cell of a grid. -/
def cell : Struct :=
  ⟨"GridCell", [⟨"height", .primitive .float, none⟩], .bool true, .text "t"⟩

theorem spelling_nested_cells :
    (DataType.struct cell).Innermost ∧
      ((DataType.struct cell).within [.list "MAX_CELLS"]).spelling = .ok (.around "grid_cell_t" "[MAX_CELLS]") ∧
      (Spelling.around "grid_cell_t" "[MAX_CELLS]").declare "cells" =
        (CType.array "MAX_CELLS" (.named "grid_cell_t")).declaration "cells" := by
  have hcell : (DataType.struct cell).Innermost := .struct (by decide)
  obtain ⟨c, hc, -, hpair, hdeclared⟩ := spelling_nested_iff hcell (.list "MAX_CELLS") []
  have hname : (DataType.struct cell).spelling = .ok (.plain "grid_cell_t") := rfl
  cases hname.symm.trans hc
  have hspelling := hpair.mpr rfl
  obtain ⟨spelling, hspelling', hdeclare⟩ := (hdeclared "cells").mpr rfl
  cases hspelling.symm.trans hspelling'
  exact ⟨hcell, hspelling, hdeclare⟩

/-- An array of lists is spelled with a pair in the text of its type, and the header declares its member so. -/
theorem spelling_nested_rows :
    ((DataType.primitive .int32).within [.array "ROWS", .list "COLUMNS"]).spelling =
        .ok (.around "('int32_t', '[COLUMNS]')" "[ROWS]") ∧
      Spelling.around "('int32_t', '[COLUMNS]')" "[ROWS]" ≠ .around "int32_t" (dimensions [.array "ROWS", .list "COLUMNS"]) ∧
      Emit.headerText .knr ⟨"grids", [], [⟨"Grid", [⟨"cells", (DataType.primitive .int32).within [.array "ROWS", .list "COLUMNS"],
          none⟩], .bool false, .text "t"⟩], []⟩ =
        .ok "struct grid \x7b\n    ('int32_t', '[COLUMNS]') cells[ROWS];\n\x7d;\n\n" ∧
      (CType.within "int32_t" [.array "ROWS", .list "COLUMNS"]).declaration "cells" = "int32_t cells[ROWS][COLUMNS];" := by
  decide +kernel

end CodeBridge
