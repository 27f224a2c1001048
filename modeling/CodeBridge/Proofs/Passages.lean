import CodeBridge.Macro
import CodeBridge.Proofs.WriterOperations

/-! # Passages and macro calls as texts

A writer keeps a level and whether it is at the start of a line, and the body of a block writes with the same writer.
Still the text of a passage made of lines, blocks and indented parts is a function of the passage and the level alone,
and so is the text of a macro call: `rendering` says which. Writing succeeds exactly if no whole number that is written
is too long, and then the writer is back at its level. -/

namespace CodeBridge

/-! ### Values to be written -/

namespace Value

/-- The texts of values one behind the other. -/
def joined (values : List Value) : String :=
  String.join (values.map shown)

/-- No whole number in the values is too long to be written. -/
def Writable (values : List Value) : Prop :=
  ∀ v ∈ values, v.holdsLongInteger = false

@[simp] theorem writable_nil : Writable [] :=
  fun _ h => nomatch h

@[simp] theorem writable_cons {v : Value} {values : List Value} :
    Writable (v :: values) ↔ v.holdsLongInteger = false ∧ Writable values :=
  List.forall_mem_cons

@[simp] theorem writable_append {a b : List Value} : Writable (a ++ b) ↔ Writable a ∧ Writable b :=
  List.forall_mem_append

end Value

namespace Writer

theorem start_eq (w : Writer) :
    w.start = ⟨w.brackets, w.text ++ (if w.atLineStart then blanks w.level else ""), w.level, false⟩ := by
  obtain ⟨brackets, text, level, atLineStart⟩ := w
  cases atLineStart <;> simp [start]

theorem put_eq (w : Writer) (piece : String) :
    w.put piece = ⟨w.brackets, w.text ++ (if w.atLineStart then blanks w.level else "") ++ piece, w.level, false⟩ := by
  rw [put, start_eq]

end Writer

namespace Writing

/-- `x` takes `w` to `v` if `p` holds, and fails if it does not. -/
structure SucceedsIff (p : Prop) (x : Writing Unit) (w v : Writer) : Prop where
  succeeds : p → x w = .ok () v
  fails : ¬p → ∃ fault u, x w = .error fault u

namespace SucceedsIff

variable {p q : Prop} {x y : Writing Unit} {u v w : Writer}

theorem eq_ok_iff (h : SucceedsIff p x w v) : x w = .ok () u ↔ p ∧ u = v := by
  constructor
  · intro hx
    by_cases hp : p
    · cases hx.symm.trans (h.succeeds hp)
      exact ⟨hp, rfl⟩
    · obtain ⟨fault, t, ht⟩ := h.fails hp
      cases hx.symm.trans ht
  · rintro ⟨hp, rfl⟩
    exact h.succeeds hp

theorem congr (h : SucceedsIff p x w v) (hpq : p ↔ q) : SucceedsIff q x w v :=
  ⟨fun hq => h.succeeds (hpq.mpr hq), fun hq => h.fails fun hp => hq (hpq.mp hp)⟩

theorem of_eq (h : x w = y u) (hy : SucceedsIff p y u v) : SucceedsIff p x w v where
  succeeds hp := h.trans (hy.succeeds hp)
  fails hp := by
    rw [h]
    exact hy.fails hp

theorem of_ok (h : x w = .ok () v) : SucceedsIff True x w v :=
  ⟨fun _ => h, fun hn => absurd trivial hn⟩

theorem bind (hx : SucceedsIff p x w v) (hy : SucceedsIff q y v u) : SucceedsIff (p ∧ q) (x >>= fun _ => y) w u where
  succeeds := fun ⟨hp, hq⟩ => (bind_ok (hx.succeeds hp) _).trans (hy.succeeds hq)
  fails hpq := by
    by_cases hp : p
    · rw [bind_ok (hx.succeeds hp)]
      exact hy.fails fun hq => hpq ⟨hp, hq⟩
    · obtain ⟨fault, t, ht⟩ := hx.fails hp
      exact ⟨fault, t, bind_error ht _⟩

theorem after_ok (hx : x w = .ok () v) (hy : SucceedsIff q y v u) : SucceedsIff q (x >>= fun _ => y) w u :=
  ((of_ok hx).bind hy).congr (by rw [true_and])

theorem before_ok (hx : SucceedsIff p x w v) (hy : y v = .ok () u) : SucceedsIff p (x >>= fun _ => y) w u :=
  (hx.bind (of_ok hy)).congr (by rw [and_true])

end SucceedsIff

theorem succeeds_writeEach (values : List Value) (brackets : Option Brackets) (before : String) (level : Int) :
    SucceedsIff (Value.Writable values) (writeEach values) ⟨brackets, before, level, false⟩
      ⟨brackets, before ++ Value.joined values, level, false⟩ := by
  induction values generalizing before with
  | nil =>
    have hnothing : writeEach [] ⟨brackets, before, level, false⟩ =
        .ok () ⟨brackets, before ++ Value.joined [], level, false⟩ := by
      rw [writeEach, Value.joined, List.map_nil, String.join_nil, String.append_empty]
      rfl
    exact (SucceedsIff.of_ok hnothing).congr (by simp)
  | cons v values ih =>
    have hfirst : SucceedsIff (v.holdsLongInteger = false) (check v.text? >>= write) ⟨brackets, before, level, false⟩
        ⟨brackets, before ++ v.shown, level, false⟩ := by
      constructor
      · intro hv
        rw [Value.text?, hv]
        rfl
      · intro hv
        rw [Value.text?, eq_true_of_ne_false hv]
        exact ⟨_, _, rfl⟩
    have hboth := (hfirst.bind (ih (before ++ v.shown))).congr Value.writable_cons.symm
    simpa [writeEach, Value.joined, String.append_assoc] using hboth

theorem succeeds_writeValues (values : List Value) (w : Writer) :
    SucceedsIff (Value.Writable values) (writeValues values) w (w.put (Value.joined values)) := by
  rw [Writer.put_eq]
  refine (succeeds_writeEach values _ _ _).after_ok ?_
  rw [← Writer.start_eq]
  rfl

theorem succeeds_lineValues (values : List Value) (w : Writer) :
    SucceedsIff (Value.Writable values) (lineValues values) w (w.putLine (Value.joined values)) := by
  have hline : line "" (w.put (Value.joined values)) = .ok () (w.putLine (Value.joined values)) := by
    show EStateM.Result.ok () ((w.put (Value.joined values)).putLine "") = _
    rw [Writer.put_putLine, String.append_empty]
  exact (succeeds_writeValues values w).before_ok hline

theorem succeeds_closeBlockWith {b : Brackets} {w : Writer} (hb : w.brackets = some b) (suffix : Value) :
    SucceedsIff (suffix.holdsLongInteger = false) (closeBlockWith suffix) w
      ((w.atLevel (w.level - 1)).putLine (b.closing ++ suffix.shown)) := by
  have hline := succeeds_lineValues [.text b.closing, suffix] (w.atLevel (w.level - 1))
  have htext : Value.joined [.text b.closing, suffix] = b.closing ++ suffix.shown := by
    simp [Value.joined, Value.shown]
  rw [htext] at hline
  exact .of_eq (closeBlockWith_eq hb suffix) (hline.congr (by simp [Value.holdsLongInteger]))

/-- `x` adds a text to every writer that starts a line at this depth and leaves it at such a start, if `p` holds, and fails
if it does not. -/
def Adds (b : Brackets) (depth : Nat) (p : Prop) (x : Writing Unit) (text : String) : Prop :=
  ∀ before : String, SucceedsIff p x ⟨some b, before, depth, true⟩ ⟨some b, before ++ text, depth, true⟩

end Writing

/-! ### Passages -/

/-- A part of a text that is laid out: a line, a block behind its head, or parts one level deeper. -/
inductive Passage where
  | line (values : List Value)
  | block (head : List Value) (body : List Passage) (suffix : Value)
  | indented (body : List Passage)

namespace Passage

open Writing

mutual

/-- Writes a passage. -/
def perform : Passage → Writing Unit
  | .line values => lineValues values
  | .block head body suffix => do
    writeValues head
    blockWith (performAll body) suffix
  | .indented body => do
    indent
    performAll body
    unindent

def performAll : List Passage → Writing Unit
  | [] => pure ()
  | passage :: rest => do
    passage.perform
    performAll rest

end

mutual

/-- The text of a passage at a depth, if blocks stand in these brackets. -/
def rendering (b : Brackets) (depth : Nat) : Passage → String
  | .line values => Writer.blanks depth ++ Value.joined values ++ "\n"
  | .block head body suffix =>
    Writer.blanks depth ++ Value.joined head ++ b.opening ++ "\n" ++ renderingAll b (depth + 1) body ++
      Writer.blanks depth ++ b.closing ++ suffix.shown ++ "\n"
  | .indented body => renderingAll b (depth + 1) body

def renderingAll (b : Brackets) (depth : Nat) : List Passage → String
  | [] => ""
  | passage :: rest => passage.rendering b depth ++ renderingAll b depth rest

end

mutual

/-- The values that are written in a passage. -/
def values : Passage → List Value
  | .line values => values
  | .block head body suffix => head ++ (valuesAll body ++ [suffix])
  | .indented body => valuesAll body

def valuesAll : List Passage → List Value
  | [] => []
  | passage :: rest => passage.values ++ valuesAll rest

end

variable {b : Brackets} {depth : Nat} {body : List Passage}

theorem adds_line (values : List Value) :
    Adds b depth (Value.Writable values) (line values).perform ((line values).rendering b depth) := by
  intro before
  have hline := succeeds_lineValues values ⟨some b, before, depth, true⟩
  rw [Writer.putLine, Writer.put_eq] at hline
  simpa [perform, rendering, String.append_assoc] using hline

/-- A block is one level up for its body alone. -/
theorem adds_block (head : List Value)
    (hbody : Adds b (depth + 1) (Value.Writable (valuesAll body)) (performAll body) (renderingAll b (depth + 1) body))
    (suffix : Value) :
    Adds b depth (Value.Writable (block head body suffix).values) (block head body suffix).perform
      ((block head body suffix).rendering b depth) := by
  intro before
  let opened := before ++ Writer.blanks depth ++ Value.joined head ++ b.opening ++ "\n"
  let filled := opened ++ renderingAll b (depth + 1) body
  have hhead := succeeds_writeValues head ⟨some b, before, depth, true⟩
  have hopen : openBlock (Writer.put ⟨some b, before, depth, true⟩ (Value.joined head)) =
      .ok () ⟨some b, opened, (depth + 1 : Nat), true⟩ :=
    openBlock_eq (Writer.put_brackets _ _)
  have hclose : SucceedsIff (suffix.holdsLongInteger = false) (closeBlockWith suffix)
      ⟨some b, filled, (depth + 1 : Nat), true⟩
      ⟨some b, filled ++ Writer.blanks depth ++ (b.closing ++ suffix.shown) ++ "\n", depth, true⟩ := by
    have hsuffix := succeeds_closeBlockWith (w := ⟨some b, filled, (depth + 1 : Nat), true⟩) rfl suffix
    simpa [Writer.putLine, Writer.put_eq, Writer.atLevel] using hsuffix
  have hall := hhead.bind (((hbody opened).bind hclose).after_ok hopen)
  have htext : before ++ (block head body suffix).rendering b depth =
      filled ++ Writer.blanks depth ++ (b.closing ++ suffix.shown) ++ "\n" := by
    simp only [filled, opened, rendering, String.append_assoc]
  rw [perform, blockWith, htext]
  exact hall.congr (by simp [values])

/-- An indented part comes back to the level it started from. -/
theorem adds_indented
    (hbody : Adds b (depth + 1) (Value.Writable (valuesAll body)) (performAll body) (renderingAll b (depth + 1) body)) :
    Adds b depth (Value.Writable (indented body).values) (indented body).perform ((indented body).rendering b depth) := by
  intro before
  have hlevel : ¬((depth + 1 : Nat) : Int) < 1 := by omega
  have hunindent : unindent ⟨some b, before ++ renderingAll b (depth + 1) body, (depth + 1 : Nat), true⟩ =
      .ok () ⟨some b, before ++ renderingAll b (depth + 1) body, depth, true⟩ := by
    rw [unindent_eq, if_neg hlevel]
    simp [Writer.atLevel]
  rw [perform, values, rendering]
  exact ((hbody before).before_ok hunindent).after_ok rfl

mutual

theorem adds_perform (depth : Nat) : ∀ passage : Passage,
    Adds b depth (Value.Writable passage.values) passage.perform (passage.rendering b depth)
  | .line values => adds_line values
  | .block head body suffix => adds_block head (adds_performAll (depth + 1) body) suffix
  | .indented body => adds_indented (adds_performAll (depth + 1) body)

theorem adds_performAll (depth : Nat) : ∀ passages : List Passage,
    Adds b depth (Value.Writable (valuesAll passages)) (performAll passages) (renderingAll b depth passages)
  | [] => fun before => by
    rw [valuesAll, performAll, renderingAll, String.append_empty]
    exact (SucceedsIff.of_ok rfl).congr (by simp)
  | passage :: rest => fun before => by
    have hboth := (adds_perform depth passage before).bind
      (adds_performAll depth rest (before ++ passage.rendering b depth))
    rw [performAll, renderingAll, ← String.append_assoc]
    exact hboth.congr (by simp [valuesAll])

end

/-- A writer at the start of a line writes a passage exactly if no whole number in it is too long to be written. It adds
the text of the passage at its level, and is then at the start of a line of the same level. The brackets may be braces,
as those of `Writer.braced`, or nothing, as those of `Writer.bare`. -/
theorem perform_eq_ok_iff (b : Brackets) (level : Nat) (before : String) (passage : Passage) (w : Writer) :
    passage.perform ⟨some b, before, level, true⟩ = .ok () w ↔
      (∀ v ∈ passage.values, v.holdsLongInteger = false) ∧
        w = ⟨some b, before ++ passage.rendering b level, level, true⟩ :=
  (adds_perform level passage before).eq_ok_iff

example : (block [.text "f() "] [line [.text "g", .text "();"], line []] (.text ";")).rendering ⟨"\x7b", "\x7d"⟩ 1 =
    "    f() \x7b\n        g();\n        \n    \x7d;\n" := by
  decide

end Passage

/-! ### Macro calls -/

namespace Macro

open Writing

mutual

/-- The text of a call at a level, behind the blanks of its first line. -/
def rendering (level : Nat) : Macro → String
  | .value v => v.shown
  | .call name arguments =>
    name ++ "(\n" ++
      (if arguments.isEmpty then Writer.blanks (level + 1 : Nat)
        else ",\n".intercalate (argumentRenderings (level + 1) arguments)) ++ ")"

/-- The texts of arguments, each behind its blanks. -/
def argumentRenderings (level : Nat) : List Macro → List String
  | [] => []
  | argument :: rest => (Writer.blanks level ++ argument.rendering level) :: argumentRenderings level rest

end

mutual

/-- The values that are written in a call. -/
def values : Macro → List Value
  | .value v => [v]
  | .call _ arguments => argumentValues arguments

def argumentValues : List Macro → List Value
  | [] => []
  | argument :: rest => argument.values ++ argumentValues rest

end

theorem intercalate_eq_join (separator first : String) (rest : List String) :
    separator.intercalate (first :: rest) = first ++ String.join (rest.map (separator ++ ·)) := by
  induction rest generalizing first with
  | nil => simp
  | cons second rest ih =>
    simp only [String.intercalate_cons_cons, ih, List.map_cons, String.join_cons, String.append_assoc]

/-- The writer behind a text that does not end its line. -/
def left (brackets : Option Brackets) (before : String) (level : Nat) (atLineStart : Bool) (text : String) : Writer :=
  ⟨brackets, before ++ (if atLineStart then Writer.blanks level else "") ++ text, level, false⟩

/-- A call is what stands between its parentheses, one level deeper. -/
theorem succeeds_call {brackets : Option Brackets} {level : Nat} {p : Prop} {arguments : List Macro} {inner : String}
    (h : ∀ opened : String, SucceedsIff p (writeArguments true arguments >>= fun _ => Writing.write ")")
      ⟨brackets, opened, (level + 1 : Nat), true⟩ ⟨brackets, opened ++ inner ++ ")", (level + 1 : Nat), false⟩)
    (name before : String) (atLineStart : Bool) :
    SucceedsIff p (call name arguments).write ⟨brackets, before, level, atLineStart⟩
      (left brackets before level atLineStart (name ++ "(\n" ++ inner ++ ")")) := by
  let opened := before ++ (if atLineStart then Writer.blanks level else "") ++ (name ++ "(") ++ "\n"
  have hwrite : (call name arguments).write ⟨brackets, before, level, atLineStart⟩ =
      (line (name ++ "(") >>= fun _ => indent >>= fun _ => (writeArguments true arguments >>= fun _ => Writing.write ")") >>=
        fun _ => setLevel (.int level)) ⟨brackets, before, level, atLineStart⟩ := by
    simp only [Macro.write, bind_assoc]
    rfl
  have hname : line (name ++ "(") ⟨brackets, before, level, atLineStart⟩ = .ok () ⟨brackets, opened, level, true⟩ := by
    show EStateM.Result.ok () (Writer.putLine _ _) = _
    rw [Writer.putLine, Writer.put_eq]
  have hindent : indent ⟨brackets, opened, level, true⟩ = .ok () ⟨brackets, opened, (level + 1 : Nat), true⟩ := rfl
  have hclose : setLevel (.int level) ⟨brackets, opened ++ inner ++ ")", (level + 1 : Nat), false⟩ =
      .ok () (left brackets before level atLineStart (name ++ "(\n" ++ inner ++ ")")) := by
    rw [setLevel, if_pos (Int.natCast_nonneg level)]
    show EStateM.Result.ok () (Writer.mk _ _ _ _) = _
    simp [left, opened, String.append_assoc]
  exact .of_eq hwrite ((((h opened).before_ok hclose).after_ok hindent).after_ok hname)

mutual

theorem succeeds_write (brackets : Option Brackets) (before : String) (level : Nat) (atLineStart : Bool) : ∀ m : Macro,
    SucceedsIff (Value.Writable m.values) m.write ⟨brackets, before, level, atLineStart⟩
      (left brackets before level atLineStart (m.rendering level))
  | .value v => by
    have hvalue := succeeds_writeValues [v] ⟨brackets, before, level, atLineStart⟩
    rw [Writer.put_eq] at hvalue
    simpa [Macro.write, values, rendering, left, Value.joined] using hvalue
  | .call name [] => by
    refine (succeeds_call (p := True) (fun opened => ?_) name before atLineStart).congr (by simp [values, argumentValues])
    exact .of_ok rfl
  | .call name (argument :: rest) => by
    rw [rendering, if_neg (by simp), argumentRenderings, intercalate_eq_join, values, argumentValues]
    refine succeeds_call (fun opened => ?_) name before atLineStart
    have hfirst := succeeds_write brackets opened (level + 1) true argument
    have hrest := succeeds_further brackets (opened ++ Writer.blanks (level + 1 : Nat) ++ argument.rendering (level + 1))
      (level + 1) rest
    have hall := (hfirst.bind hrest).before_ok (y := Writing.write ")") rfl
    simpa [writeArguments, Writer.put_eq, String.append_assoc] using hall

/-- Each further argument comes behind a comma, on a line of its own. -/
theorem succeeds_further (brackets : Option Brackets) (before : String) (level : Nat) : ∀ arguments : List Macro,
    SucceedsIff (Value.Writable (argumentValues arguments)) (writeArguments false arguments) ⟨brackets, before, level, false⟩
      ⟨brackets, before ++ String.join ((argumentRenderings level arguments).map (",\n" ++ ·)), level, false⟩
  | [] => by
    rw [argumentValues, writeArguments, argumentRenderings, List.map_nil, String.join_nil, String.append_empty]
    exact (SucceedsIff.of_ok rfl).congr (by simp)
  | argument :: rest => by
    have hcomma : line "," ⟨brackets, before, level, false⟩ = .ok () ⟨brackets, before ++ "," ++ "\n", level, true⟩ := rfl
    have hfirst := succeeds_write brackets (before ++ "," ++ "\n") level true argument
    have hrest := succeeds_further brackets (before ++ "," ++ "\n" ++ Writer.blanks level ++ argument.rendering level) level rest
    have hall := (hfirst.bind hrest).after_ok hcomma
    simpa [writeArguments, argumentValues, argumentRenderings, String.append_assoc] using hall

end

/-- Every writer at a level that can be writes a call exactly if no whole number in it is too long to be written. It adds
the blanks that are still due and the text of the call, and is then in the midst of a line of the same level. -/
theorem write_call_eq_ok_iff (brackets : Option Brackets) (before : String) (level : Nat) (atLineStart : Bool) (name : String)
    (arguments : List Macro) (w : Writer) :
    (call name arguments).write ⟨brackets, before, level, atLineStart⟩ = .ok () w ↔
      (∀ v ∈ (call name arguments).values, v.holdsLongInteger = false) ∧
        w = ⟨brackets, before ++ (if atLineStart then Writer.blanks level else "") ++ (call name arguments).rendering level,
          level, false⟩ :=
  (succeeds_write brackets before level atLineStart (call name arguments)).eq_ok_iff

example : (call "outer" [.text "a", call "inner" [], .text "b"]).rendering 0 =
    "outer(\n    a,\n    inner(\n        ),\n    b)" := by
  decide

end Macro

end CodeBridge
