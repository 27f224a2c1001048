import CodeBridge.Emit.Texts
import CodeBridge.Proofs.Writing

/-! # The lines of a header

What the header of a module consists of, line by line: two lines for a constant, and for an enumeration or a
struct its members between the lines of its braces. The text that is given out is exactly these lines. -/

namespace CodeBridge.Emit

open Writing

/-! ### Comments of fields -/

/-- A declaration with the comment behind it. Only the first line of a comment stands beside it. -/
def commentedLines (struct field : String) (comment : Option String) (present : String → String)
    (declared : String) : Except Fault (List String) :=
  match comment with
  | none => .ok [declared]
  | some text =>
    if text == "" then .ok [declared]
    else
      match commentLines text with
      | [] => .error (.emptyComment field struct)
      | l :: ls => .ok ((declared ++ present l) :: ls.map present)

theorem of_commentedLines_eq_ok {struct field declared : String} {comment : Option String} {present : String → String}
    {ls : List String} (h : commentedLines struct field comment present declared = .ok ls) :
    ∃ remark more, ls = (declared ++ remark) :: more := by
  unfold commentedLines at h
  split at h
  · cases h
    exact ⟨"", [], by simp⟩
  split at h
  · cases h
    exact ⟨"", [], by simp⟩
  split at h
  · cases h
  · next l ls _ =>
    cases h
    exact ⟨present l, ls.map present, rfl⟩

theorem yieldsFor_each_line (b : Brackets) (ls : List String) (present : String → String) :
    YieldsFor b (Writing.each ls fun l => line (present l)) (.ok (ls.map present)) := by
  induction ls with
  | nil => exact .pure
  | cons l ls ih => exact (YieldsFor.line (present l)).bind ih

theorem yieldsFor_comment (b : Brackets) (struct field : String) (c : Option String) (present : String → String)
    (declared : String) : YieldsFor b (write declared >>= fun _ => comment struct field c present)
      (commentedLines struct field c present declared) := by
  have ended : YieldsFor b (write declared >>= fun _ => line "") (.ok [declared]) := by
    rw [write_line]
    simpa using YieldsFor.line (declared ++ "")
  cases c with
  | none => exact ended
  | some text =>
    simp only [comment, commentedLines]
    split
    · exact ended
    · cases commentLines text with
      | nil => exact fun w _ => ⟨w.put declared, rfl⟩
      | cons l ls =>
        have first := (YieldsFor.line (declared ++ present l)).bind (yieldsFor_each_line b ls present)
        rw [← write_line, bind_assoc] at first
        exact first

theorem yields_comment (struct field : String) (c : Option String) (present : String → String) (declared : String) :
    Yields (write declared >>= fun _ => comment struct field c present)
      (commentedLines struct field c present declared) :=
  yields_iff.mpr (yieldsFor_comment _ struct field c present declared)

namespace Header

/-! ### Constants -/

def constantLines (c : Constant) : Except Fault (List String) := do
  return ["#define " ++ c.name ++ " " ++ (← literal c.value), ""]

theorem yields_constant (c : Constant) : Yields (constant c) (constantLines c) :=
  Yields.check fun _ _ => (Yields.line _).bind (Yields.line "")

/-! ### Definitions in braces -/

/-- The lines of an enumeration or a struct around those of its body. -/
def definitionLines (style : Style) (keyword name : String) (typedef suffix : Value)
    (body : Except Fault (List String)) : Except Fault (List String) := do
  let head ← opening keyword name typedef
  let start ← style.opening head
  let close ← ending name typedef suffix
  return start ++ (← body).map indented ++ ["\x7d" ++ close, ""]

theorem definitionLines_eq_ok {style : Style} {keyword name : String} {typedef suffix : Value}
    {body : Except Fault (List String)} {ls : List String}
    (h : definitionLines style keyword name typedef suffix body = .ok ls) :
    ∃ head start close lines, opening keyword name typedef = .ok head ∧ style.opening head = .ok start ∧
      ending name typedef suffix = .ok close ∧ body = .ok lines ∧
      ls = start ++ lines.map indented ++ ["\x7d" ++ close, ""] := by
  obtain ⟨head, hhead, h⟩ := exists_of_bind_eq_ok h
  obtain ⟨start, hstart, h⟩ := exists_of_bind_eq_ok h
  obtain ⟨close, hclose, h⟩ := exists_of_bind_eq_ok h
  obtain ⟨lines, hlines, h⟩ := exists_of_bind_eq_ok h
  exact ⟨head, start, close, lines, hhead, hstart, hclose, hlines, (Except.ok.inj h).symm⟩

theorem yields_definition {body : Writing Unit} {r : Except Fault (List String)} (hbody : Yields body r) (style : Style)
    (keyword name : String) (typedef suffix : Value) :
    Yields (do
      style.before (← check (opening keyword name typedef))
      block body (← check (ending name typedef suffix))
      line "") (definitionLines style keyword name typedef suffix r) := by
  refine Yields.check fun head _ => ?_
  cases hstart : style.opening head with
  | error fault => exact fun w _ => ⟨w, bind_error (Style.before_of_opening_error hstart w) _⟩
  | ok start =>
    have hopens := Style.opens_before hstart
    cases ending name typedef suffix with
    | error fault =>
      intro w hw
      obtain ⟨v, hv, -⟩ := hopens w hw
      exact ⟨v, bind_ok hv _⟩
    | ok close =>
      have hblock := (Yields.block hopens hbody close).bind (Yields.line "")
      rw [bind_assoc] at hblock
      cases r with
      | error fault => exact hblock
      | ok ls =>
        show Yields _ (.ok (start ++ ls.map indented ++ (["\x7d" ++ close] ++ [""])))
        rw [← List.append_assoc]
        exact hblock

/-! ### Enumerations -/

/-- The lines of the values that follow one which is written but whose line is not ended. -/
def ordinalLines (pending : String) (ordinal : Value) : List String → Except Fault (List String)
  | [] => .ok [pending]
  | value :: rest => do
    let text ← ordinal.text?
    let next ← ordinal.next
    return (pending ++ ",") :: (← ordinalLines (value ++ " = " ++ text) next rest)

/-- The lines of the values of an enumeration. -/
def valueLines (ordinal : Value) : List String → Except Fault (List String)
  | [] => .ok [""]
  | value :: rest => do
    let text ← ordinal.text?
    let next ← ordinal.next
    ordinalLines (value ++ " = " ++ text) next rest

def enumerationLines (style : Style) (e : Enumeration) : Except Fault (List String) :=
  definitionLines style "enum" e.name e.typedef e.suffix (valueLines e.first e.values)

theorem yields_value (ordinal : Value) (value : String) {rest : List String}
    (hrest : ∀ pending next, Yields (write pending >>= fun _ => ordinals false next rest >>= fun _ => line "")
      (ordinalLines pending next rest)) :
    Yields (do
      write (value ++ " = " ++ (← check ordinal.text?))
      ordinals false (← check ordinal.next) rest
      line "") (do
      let text ← ordinal.text?
      let next ← ordinal.next
      ordinalLines (value ++ " = " ++ text) next rest) := by
  refine Yields.check fun text _ => ?_
  cases ordinal.next with
  | error fault => exact fun w _ => ⟨w.put (value ++ " = " ++ text), rfl⟩
  | ok next => exact hrest _ next

theorem yields_ordinals (values : List String) (pending : String) (ordinal : Value) :
    Yields (write pending >>= fun _ => ordinals false ordinal values >>= fun _ => line "")
      (ordinalLines pending ordinal values) := by
  induction values generalizing pending ordinal with
  | nil =>
    have ended := Yields.line (pending ++ "")
    rw [← write_line, String.append_empty] at ended
    exact ended
  | cons value rest ih =>
    have both := (Yields.line (pending ++ ",")).bind (yields_value ordinal value ih)
    rw [← write_line] at both
    simp only [ordinals, ordinalLines, Bool.not_false, if_true, bind_assoc] at both ⊢
    exact both

theorem yields_enumeration (style : Style) (e : Enumeration) :
    Yields (enumeration style e) (enumerationLines style e) := by
  refine yields_definition ?_ style "enum" e.name e.typedef e.suffix
  unfold enumerationBody valueLines
  cases e.values with
  | nil => exact Yields.line ""
  | cons value rest =>
    simp only [ordinals, Bool.not_true, Bool.false_eq_true, if_false, bind_assoc]
    exact yields_value e.first value (yields_ordinals rest)

/-! ### Structs -/

/-- A line of a comment as a header shows it. -/
def remark (l : String) : String :=
  " /* " ++ l ++ " */"

/-- The lines of a field; a list has one more for its length. -/
def memberLines (struct : String) (f : Field) : Except Fault (List String) := do
  let spelling ← f.type.spelling
  let ls ← commentedLines struct f.name f.comment remark (spelling.declare f.name)
  return ls ++ if isList f.type then ["size_t " ++ f.name ++ "_length;"] else []

theorem of_memberLines_eq_ok {struct : String} {f : Field} {ls : List String} (h : memberLines struct f = .ok ls) :
    ∃ spelling remark more, f.type.spelling = .ok spelling ∧ ls = (spelling.declare f.name ++ remark) :: more := by
  obtain ⟨spelling, hspelling, h⟩ := exists_of_bind_eq_ok h
  obtain ⟨first, hfirst, h⟩ := exists_of_bind_eq_ok h
  obtain ⟨remark, more, rfl⟩ := of_commentedLines_eq_ok hfirst
  cases h
  exact ⟨spelling, remark, _, hspelling, rfl⟩

def structLines (style : Style) (s : Struct) : Except Fault (List String) :=
  definitionLines style "struct" s.name s.typedef s.suffix (do return (← s.fields.mapM (memberLines s.name)).flatten)

theorem yields_member (struct : String) (f : Field) : Yields (member struct f) (memberLines struct f) := by
  refine Yields.check fun spelling _ => ?_
  have hlength : Yields (if isList f.type then line ("size_t " ++ f.name ++ "_length;") else pure ())
      (.ok (if isList f.type then ["size_t " ++ f.name ++ "_length;"] else [])) := by
    split
    · exact Yields.line _
    · exact Yields.pure
  have both := (yields_comment struct f.name f.comment remark (spelling.declare f.name)).bind hlength
  rw [bind_assoc] at both
  exact both

theorem yields_struct (style : Style) (s : Struct) : Yields (struct style s) (structLines style s) :=
  yields_definition (Yields.each fun f _ => yields_member s.name f) style "struct" s.name s.typedef s.suffix

/-! ### Whole headers -/

/-- The lines of the header of a module. -/
def headerLines (style : Style) (m : Module) : Except Fault (List String) := do
  let constants ← m.constants.mapM constantLines
  let enumerations ← m.enumerations.mapM (enumerationLines style)
  let structs ← m.structs.mapM (structLines style)
  return constants.flatten ++ (enumerations.flatten ++ structs.flatten)

theorem headerLines_eq_ok {style : Style} {m : Module} {ls : List String} (h : headerLines style m = .ok ls) :
    ∃ constants enumerations structs, m.constants.mapM constantLines = .ok constants ∧
      m.enumerations.mapM (enumerationLines style) = .ok enumerations ∧
      m.structs.mapM (structLines style) = .ok structs ∧
      ls = constants.flatten ++ (enumerations.flatten ++ structs.flatten) := by
  obtain ⟨constants, hconstants, h⟩ := exists_of_bind_eq_ok h
  obtain ⟨enumerations, henumerations, h⟩ := exists_of_bind_eq_ok h
  obtain ⟨structs, hstructs, h⟩ := exists_of_bind_eq_ok h
  exact ⟨constants, enumerations, structs, hconstants, henumerations, hstructs, (Except.ok.inj h).symm⟩

theorem yields_run (style : Style) (m : Module) : Yields (run style m) (headerLines style m) := by
  have hall := (Yields.each fun c (_ : c ∈ m.constants) => yields_constant c).bind
    ((Yields.each fun e (_ : e ∈ m.enumerations) => yields_enumeration style e).bind
      (Yields.each fun s (_ : s ∈ m.structs) => yields_struct style s))
  simp only [bind_assoc, pure_bind] at hall
  exact hall

end Header

theorem text_addLines_braced (ls : List String) : (Writer.braced.addLines ls).text = linesText ls := by
  have hblanks : (Writer.blanks 0 ++ ·) = (id : String → String) := by
    funext l
    exact String.empty_append
  show "" ++ linesText (ls.map (Writer.blanks 0 ++ ·)) = linesText ls
  rw [hblanks, List.map_id, String.empty_append]

/-- The header that is given out for a module is the text of its lines. -/
theorem headerText_eq (style : Style) (m : Module) :
    headerText style m = (do return linesText (← Header.headerLines style m)) := by
  have hrun := Header.yields_run style m
  unfold headerText outcome
  rw [seqRight_eq_bind]
  cases hls : Header.headerLines style m with
  | error fault =>
    rw [hls] at hrun
    obtain ⟨w', h⟩ := hrun _ Writer.braced_ready
    rw [bind_error h]
    rfl
  | ok ls =>
    rw [hls] at hrun
    rw [bind_ok (hrun _ Writer.braced_ready)]
    exact congrArg Except.ok (text_addLines_braced ls)

end CodeBridge.Emit
