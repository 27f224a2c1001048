import CodeBridge.Emit.Dataclasses
import CodeBridge.Proofs.HeaderLines

/-! # The texts of classes

What is written stays: an action on a writer only adds to its text, also when it fails. An enumeration or a struct
that is written to its end adds the whole text of its class, wherever the writer stands. It stands at the start of a
line, unless a comment has been refused: that leaves the writer in the midst of the line of a field (`Lined`), and the
class that comes next is glued to it. -/

namespace CodeBridge

/-! ### Growing texts -/

/-- A later state of a writer: there may be more text. -/
structure Writer.Grown (w v : Writer) : Prop where
  brackets : v.brackets = w.brackets
  text : ∃ more, v.text = w.text ++ more

namespace Writer.Grown

variable {u v w : Writer}

theorem refl (w : Writer) : w.Grown w :=
  ⟨rfl, "", by simp⟩

theorem trans (h : u.Grown v) (h' : v.Grown w) : u.Grown w := by
  obtain ⟨hb, more, hmore⟩ := h
  obtain ⟨hb', more', hmore'⟩ := h'
  exact ⟨hb'.trans hb, more ++ more', by rw [hmore', hmore, String.append_assoc]⟩

theorem start (w : Writer) : w.Grown w.start := by
  unfold Writer.start
  split
  · exact ⟨rfl, blanks w.level, rfl⟩
  · exact .refl w

theorem put (w : Writer) (piece : String) : w.Grown (w.put piece) :=
  (start w).trans ⟨rfl, piece, rfl⟩

theorem putLine (w : Writer) (piece : String) : w.Grown (w.putLine piece) :=
  (put w piece).trans ⟨rfl, "\n", rfl⟩

end Writer.Grown

namespace Writing

/-- Whatever comes of it, the action only adds text. -/
def Grows {α : Type} (x : Writing α) : Prop :=
  ∀ w : Writer, w.Grown (reached x w)

namespace Grows

variable {α β : Type}

theorem pure (a : α) : Grows (Pure.pure a) := fun w => .refl w

theorem throw (fault : Fault) : Grows (MonadExcept.throw fault : Writing α) := fun w => .refl w

theorem bind {x : Writing α} {f : α → Writing β} (hx : Grows x) (hf : ∀ a, Grows (f a)) : Grows (x >>= f) := by
  intro w
  have hw := hx w
  cases h : x w with
  | error fault v =>
    rw [reached_of_error h] at hw
    rw [reached_bind_of_error h]
    exact hw
  | ok a v =>
    rw [reached_of_ok h] at hw
    rw [reached_bind_of_ok h]
    exact hw.trans (hf a v)

theorem check (e : Except Fault α) : Grows (check e) := by
  cases e with
  | error fault => exact .throw fault
  | ok a => exact .pure a

theorem write (piece : String) : Grows (write piece) := fun w => .put w piece

theorem line (piece : String) : Grows (line piece) := fun w => .putLine w piece

theorem each {items : List α} {f : α → Writing Unit} (hf : ∀ a, Grows (f a)) : Grows (each items f) := by
  induction items with
  | nil => exact .pure ()
  | cons a items ih => exact (hf a).bind fun _ => ih

theorem openBlock : Grows openBlock := by
  intro w
  cases hb : w.brackets with
  | none =>
    rw [reached_of_error (openBlock_refused hb)]
    exact .refl w
  | some b =>
    rw [reached_of_ok (openBlock_eq hb)]
    exact (Writer.Grown.putLine w b.opening).trans ⟨rfl, "", by simp [Writer.atLevel]⟩

theorem closeBlock (suffix : String) : Grows (closeBlock suffix) := by
  intro w
  cases hb : w.brackets with
  | none =>
    rw [reached_of_error (closeBlock_refused hb suffix)]
    exact .refl w
  | some b =>
    rw [reached_of_ok (closeBlock_eq hb suffix)]
    have hlevel : w.Grown (w.atLevel (w.level - 1)) := ⟨rfl, "", by simp [Writer.atLevel]⟩
    exact hlevel.trans (.putLine _ _)

theorem block {body : Writing Unit} (hbody : Grows body) (suffix : String) : Grows (block body suffix) :=
  openBlock.bind fun _ => hbody.bind fun _ => closeBlock suffix

end Grows

end Writing

namespace Emit

open Writing

theorem grows_comment (struct field : String) (c : Option String) (present : String → String) :
    Grows (comment struct field c present) := by
  unfold comment
  split
  · exact .line ""
  split
  · exact .line ""
  split
  · exact .throw _
  · exact .each fun l => .line (present l)

namespace Dataclasses

theorem grows_ordinals (ordinal : Value) (values : List String) : Grows (ordinals ordinal values) := by
  induction values generalizing ordinal with
  | nil => exact .pure ()
  | cons value values ih =>
    exact (Grows.check _).bind fun text => (Grows.line _).bind fun _ => (Grows.check _).bind fun next => ih next

theorem grows_enumeration (e : Enumeration) : Grows (enumeration e) :=
  (Grows.write _).bind fun _ => ((grows_ordinals e.first e.values).block "").bind fun _ => .line ""

theorem grows_member (written : List String) (struct : String) (f : Field) : Grows (member written struct f) :=
  (Grows.check _).bind fun _ => (Grows.write _).bind fun _ => grows_comment struct f.name f.comment _

theorem grows_struct (written : List String) (s : Struct) : Grows (struct written s) :=
  (Grows.line _).bind fun _ => (Grows.write _).bind fun _ =>
    ((Grows.each fun f => grows_member written s.name f).block "").bind fun _ => .line ""

/-! ### The lines of members -/

/-- The lines of the values of an enumeration. -/
def ordinalLines (ordinal : Value) : List String → Except Fault (List String)
  | [] => .ok []
  | value :: rest => do
    let text ← ordinal.text?
    let next ← ordinal.next
    return (value ++ " = " ++ text) :: (← ordinalLines next rest)

/-- The lines of a field under the classes that are `written`. -/
def memberLines (written : List String) (struct : String) (f : Field) : Except Fault (List String) := do
  let hint ← f.type.typeHint written
  commentedLines struct f.name f.comment (" # " ++ ·) (f.name ++ ": " ++ hint ++ " = " ++ f.type.defaultValue.shown)

theorem yieldsFor_ordinals (b : Brackets) (ordinal : Value) (values : List String) :
    YieldsFor b (ordinals ordinal values) (ordinalLines ordinal values) := by
  induction values generalizing ordinal with
  | nil => exact .pure
  | cons value values ih =>
    rw [ordinals, ordinalLines]
    generalize ordinal.text? = shown
    refine .check fun text _ => ?_
    have hboth := (YieldsFor.line (value ++ " = " ++ text)).bind (YieldsFor.check fun next (_ : ordinal.next = .ok next) => ih next)
    cases hnext : ordinal.next with
    | error fault =>
      rw [hnext] at hboth
      exact hboth
    | ok next =>
      rw [hnext] at hboth
      generalize hrest : ordinalLines next values = rest at hboth ⊢
      cases rest with
      | error fault => simpa [hrest, bind, Except.bind] using hboth
      | ok ls => simpa [hrest, bind, Except.bind] using hboth

theorem yieldsFor_member (b : Brackets) (written : List String) (struct : String) (f : Field) :
    YieldsFor b (member written struct f) (memberLines written struct f) :=
  .check fun _ _ => yieldsFor_comment b struct f.name f.comment _ _

/-! ### Whole classes -/

/-- The members of a class one level below its head, and the blank lines that end it. -/
def bodyText (level : Int) (members : List String) : String :=
  linesText (members.map (Writer.blanks (level + 1) ++ ·)) ++ linesText [Writer.blanks level, Writer.blanks level]

/-- The text of a class from its first word to its end, with all that the enumeration or the struct of this name has. -/
inductive ClassText (name : String) (level : Int) : String → Prop where
  | enumeration {e : Enumeration} {members : List String} (hname : e.name = name)
      (h : ordinalLines e.first e.values = .ok members) :
      ClassText name level (linesText ["class " ++ name ++ "(Enum):"] ++ bodyText level members)
  | struct {s : Struct} {written : List String} {members : List (List String)} (hname : s.name = name)
      (h : s.fields.mapM (memberLines written name) = .ok members) :
      ClassText name level (linesText ["@dataclass", Writer.blanks level ++ ("class " ++ name ++ ":")] ++
        bodyText level members.flatten)

/-- A text of whole lines. -/
def Ended (text : String) : Prop :=
  text = "" ∨ ∃ front, text = front ++ "\n"

/-- The text has a whole class of this name, on lines of its own. -/
def Complete (name text : String) : Prop :=
  ∃ before level body after, Ended before ∧ ClassText name level body ∧ text = before ++ Writer.blanks level ++ body ++ after

/-- The piece of text that a field has before its comment. -/
def fieldText (f : Field) (hint : String) : String :=
  f.name ++ ": " ++ hint ++ " = " ++ f.type.defaultValue.shown

/-- The field has a comment that says nothing. -/
def Refused (f : Field) : Prop :=
  ∃ text, f.comment = some text ∧ text ≠ "" ∧ commentLines text = []

/-- The text has a whole class of this name that starts on the line of a field whose comment was refused. -/
def Glued (name text : String) : Prop :=
  ∃ before f hint level body after, Refused f ∧ ClassText name level body ∧
    text = before ++ fieldText f hint ++ body ++ after

section
variable {name : String} {w v : Writer}

theorem Complete.grown (h : Complete name w.text) (hgrown : w.Grown v) : Complete name v.text := by
  obtain ⟨before, level, body, after, hbefore, hbody, htext⟩ := h
  obtain ⟨-, more, hmore⟩ := hgrown
  exact ⟨before, level, body, after ++ more, hbefore, hbody, by rw [hmore, htext, String.append_assoc]⟩

theorem Glued.grown (h : Glued name w.text) (hgrown : w.Grown v) : Glued name v.text := by
  obtain ⟨before, f, hint, level, body, after, hf, hbody, htext⟩ := h
  obtain ⟨-, more, hmore⟩ := hgrown
  exact ⟨before, f, hint, level, body, after ++ more, hf, hbody, by rw [hmore, htext, String.append_assoc]⟩

/-- The head of a class, where it is found in a text: at its start, behind a line end or behind a blank. -/
def Headed (name text : String) : Prop :=
  ("class " ++ name).toList <+: text.toList ∨ ("\nclass " ++ name).toList <:+: text.toList ∨
    (" class " ++ name).toList <:+: text.toList

theorem headed_of_ended {before : String} (h : Ended before) (level : Int) (name rest : String) :
    Headed name (before ++ Writer.blanks level ++ ("class " ++ name ++ rest)) := by
  cases hn : 4 * level.toNat with
  | zero =>
    rcases h with rfl | ⟨front, rfl⟩
    · exact .inl ⟨rest.toList, by simp [Writer.blanks, hn]⟩
    · exact .inr (.inl ⟨front.toList, rest.toList, by simp [Writer.blanks, hn]⟩)
  | succ n =>
    exact .inr (.inr ⟨before.toList ++ List.replicate n ' ', rest.toList, by
      simp [Writer.blanks, hn, List.replicate_succ']⟩)

/-- A class on lines of its own has its head behind a line end or behind blanks. -/
theorem Complete.headed {text : String} (h : Complete name text) : Headed name text := by
  obtain ⟨before, level, body, after, hbefore, hbody, rfl⟩ := h
  cases hbody with
  | @enumeration e members hname h =>
    have hheaded := headed_of_ended hbefore level name ("(Enum):" ++ "\n" ++ bodyText level members ++ after)
    simpa [linesText, String.append_assoc] using hheaded
  | @struct s written members hname h =>
    have hended : Ended (before ++ Writer.blanks level ++ "@dataclass" ++ "\n") := .inr ⟨_, rfl⟩
    have hheaded := headed_of_ended hended level name (":" ++ "\n" ++ bodyText level members.flatten ++ after)
    simpa [linesText, String.append_assoc] using hheaded

end

/-! ### Lines -/

/-- The writer is at the start of a line. -/
structure Rested (w : Writer) : Prop where
  start : w.atLineStart = true
  ended : Ended w.text

/-- The writer is in the midst of the line of a field whose comment was refused. -/
structure Halted (w : Writer) : Prop where
  start : w.atLineStart = false
  field : ∃ before f hint, Refused f ∧ w.text = before ++ fieldText f hint

/-- An outcome that leaves the writer at the start of a line, unless a comment was refused. -/
inductive Lined : EStateM.Result Fault Writer Unit → Prop where
  | ok {v : Writer} (h : Rested v) : Lined (.ok () v)
  | error {fault : Fault} {v : Writer} (h : Rested v) : Lined (.error fault v)
  | refused {field struct : String} {v : Writer} (h : Halted v) : Lined (.error (.emptyComment field struct) v)

theorem rested_putLine (w : Writer) (piece : String) : Rested (w.putLine piece) :=
  ⟨rfl, .inr ⟨_, rfl⟩⟩

theorem Rested.atLevel {w : Writer} (h : Rested w) (level : Int) : Rested (w.atLevel level) :=
  ⟨h.start, h.ended⟩

theorem lined_line (piece : String) (w : Writer) : Lined (line piece w) :=
  .ok (rested_putLine w piece)

section
variable {w v : Writer}

theorem Lined.bind {x y : Writing Unit} (hx : Lined (x w)) (hy : ∀ v, Rested v → Lined (y v)) :
    Lined ((x >>= fun _ => y) w) := by
  show Lined (EStateM.bind x (fun _ => y) w)
  unfold EStateM.bind
  generalize x w = outcome at hx ⊢
  cases hx with
  | ok h => exact hy _ h
  | error h => exact .error h
  | refused h => exact .refused h

theorem lined_check {α : Type} {e : Except Fault α} {f : α → Writing Unit} (hw : Rested w) (hf : ∀ a, Lined (f a w)) :
    Lined ((Writing.check e >>= f) w) := by
  cases e with
  | error fault => exact .error hw
  | ok a => exact hf a

theorem lined_each {α : Type} {items : List α} {f : α → Writing Unit} (hf : ∀ a v, Rested v → Lined (f a v)) (hw : Rested w) :
    Lined (each items f w) := by
  induction items generalizing w with
  | nil => exact .ok hw
  | cons a items ih => exact (hf a w hw).bind fun v hv => ih hv

/-- A block starts on a line of its own, wherever the writer is. -/
theorem lined_block {body : Writing Unit} (hbody : ∀ v, Rested v → Lined (body v)) {b : Brackets} (hb : w.brackets = some b)
    (suffix : String) : Lined (block body suffix w) := by
  have hopen : Lined (openBlock w) := by
    rw [openBlock_eq hb]
    exact .ok ((rested_putLine w b.opening).atLevel _)
  refine hopen.bind fun v hv => (hbody v hv).bind fun u hu => ?_
  cases hbrackets : u.brackets with
  | none =>
    rw [closeBlock_refused hbrackets]
    exact .error hu
  | some b =>
    rw [closeBlock_eq hbrackets]
    exact .ok (rested_putLine _ _)

theorem lined_ordinals (ordinal : Value) (values : List String) (hw : Rested w) : Lined (ordinals ordinal values w) := by
  induction values generalizing ordinal w with
  | nil => exact .ok hw
  | cons value values ih =>
    refine lined_check hw fun text => (lined_line _ w).bind fun v hv => ?_
    exact lined_check hv fun next => ih next hv

theorem lined_comment (struct field : String) {c : Option String} (present : String → String)
    (hrefused : (∃ text, c = some text ∧ text ≠ "" ∧ commentLines text = []) → Halted w) :
    Lined (comment struct field c present w) := by
  cases c with
  | none => exact lined_line "" w
  | some text =>
    by_cases hempty : text = ""
    · subst hempty
      exact lined_line "" w
    · simp only [comment, beq_iff_eq, hempty, if_false]
      cases hlines : commentLines text with
      | nil => exact .refused (hrefused ⟨text, rfl, hempty, hlines⟩)
      | cons l ls => exact (lined_line _ w).bind fun v hv => lined_each (fun l v _ => lined_line _ v) hv

theorem lined_member (written : List String) (struct : String) (f : Field) (hw : Rested w) :
    Lined (member written struct f w) :=
  lined_check hw fun hint => lined_comment struct f.name _ fun hrefused => ⟨rfl, w.start.text, f, hint, hrefused, rfl⟩

theorem lined_enumeration (e : Enumeration) {b : Brackets} (hb : w.brackets = some b) : Lined (enumeration e w) := by
  have hblock := lined_block (w := w.put ("class " ++ e.name ++ "(Enum):"))
    (fun v hv => lined_ordinals e.first e.values hv) ((Writer.put_brackets w _).trans hb) ""
  exact hblock.bind fun v _ => lined_line "" v

theorem lined_struct (written : List String) (s : Struct) {b : Brackets} (hb : w.brackets = some b) :
    Lined (struct written s w) := by
  have hbrackets : ((w.putLine "@dataclass").put ("class " ++ s.name ++ ":")).brackets = some b :=
    (Writer.put_brackets _ _).trans ((Writer.put_brackets w "@dataclass").trans hb)
  have hfields : ∀ v, Rested v → Lined (each s.fields (member written s.name) v) := fun v hv =>
    lined_each (fun f _ hu => lined_member written s.name f hu) hv
  have hblock := lined_block hfields hbrackets ""
  exact hblock.bind fun v _ => lined_line "" v

end

/-! ### Classes and where they start -/

/-- A block that starts in the midst of a line. -/
theorem of_block_eq_ok {body : Writing Unit} {r : Except Fault (List String)} (hbody : YieldsFor ⟨"", ""⟩ body r)
    {u v : Writer} (hb : u.brackets = some ⟨"", ""⟩) (hl : 0 ≤ u.level) (hline : u.atLineStart = false)
    (h : (block body >>= fun _ => line "") u = .ok () v) :
    ∃ ls, r = .ok ls ∧ v.text = u.text ++ ("\n" ++ bodyText u.level ls) := by
  obtain ⟨_, v₁, hblock, h⟩ := exists_of_bind_run_eq_ok h
  obtain ⟨_, u₁, hopen, hblock⟩ := exists_of_bind_run_eq_ok hblock
  obtain ⟨_, u₂, hinner, hclose⟩ := exists_of_bind_run_eq_ok hblock
  cases (openBlock_eq hb).symm.trans hopen
  -- The line that opens the block only ends the line of the head.
  have hready : ((u.putLine "").atLevel (u.level + 1)).ReadyFor ⟨"", ""⟩ :=
    ⟨rfl, by show 0 ≤ u.level + 1; omega, by simp [Writer.atLevel, Writer.putLine, hb]⟩
  obtain ⟨ls, rfl, rfl⟩ := hbody.of_ok hready hinner
  cases (closeBlock_eq (hready.addLines ls).brackets "").symm.trans hclose
  cases h
  have hdown : u.level + 1 - 1 = u.level := by omega
  refine ⟨ls, rfl, ?_⟩
  simp [Writer.putLine, Writer.put, Writer.start, Writer.addLines, Writer.atLevel, hline, hdown, bodyText, linesText,
    String.append_assoc]

section
variable {w v : Writer} (hb : w.brackets = some ⟨"", ""⟩) (hl : 0 ≤ w.level)
include hb hl

theorem text_enumeration {e : Enumeration} (h : enumeration e w = .ok () v) :
    ∃ body, ClassText e.name w.level body ∧ v.text = w.start.text ++ body := by
  obtain ⟨_, u, hwrite, h⟩ := exists_of_bind_run_eq_ok h
  cases hwrite
  obtain ⟨members, hmembers, htext⟩ := of_block_eq_ok (yieldsFor_ordinals _ e.first e.values)
    ((Writer.put_brackets w _).trans hb) (by rwa [Writer.put_level]) rfl h
  refine ⟨_, .enumeration rfl hmembers, ?_⟩
  have hput : (w.put ("class " ++ e.name ++ "(Enum):")).text = w.start.text ++ ("class " ++ e.name ++ "(Enum):") := rfl
  rw [htext, hput, Writer.put_level]
  simp only [linesText, String.append_assoc, String.append_empty]

theorem text_struct {written : List String} {s : Struct} (h : struct written s w = .ok () v) :
    ∃ body, ClassText s.name w.level body ∧ v.text = w.start.text ++ body := by
  obtain ⟨_, u, hline, h⟩ := exists_of_bind_run_eq_ok h
  cases hline
  obtain ⟨_, u, hwrite, h⟩ := exists_of_bind_run_eq_ok h
  cases hwrite
  have hfields := YieldsFor.each fun f (_ : f ∈ s.fields) => yieldsFor_member ⟨"", ""⟩ written s.name f
  have hlevel : (w.putLine "@dataclass").level = w.level := Writer.put_level w "@dataclass"
  have hbrackets : (w.putLine "@dataclass").brackets = w.brackets := Writer.put_brackets w "@dataclass"
  obtain ⟨lines, hlines, htext⟩ := of_block_eq_ok hfields
    ((Writer.put_brackets _ _).trans (hbrackets.trans hb)) (by rwa [Writer.put_level, hlevel]) rfl h
  obtain ⟨members, hmembers, hlines⟩ := exists_of_bind_eq_ok hlines
  cases hlines
  refine ⟨_, .struct rfl hmembers, ?_⟩
  have hput : ((w.putLine "@dataclass").put ("class " ++ s.name ++ ":")).text =
      w.start.text ++ "@dataclass" ++ "\n" ++ Writer.blanks (w.putLine "@dataclass").level ++ ("class " ++ s.name ++ ":") := rfl
  rw [htext, hput, Writer.put_level, hlevel]
  simp only [linesText, String.append_assoc, String.append_empty]

end

/-- A class that starts at the start of a line has its lines for itself. -/
theorem Rested.complete {name body : String} {w v : Writer} (hw : Rested w) (hbody : ClassText name w.level body)
    (htext : v.text = w.start.text ++ body) : Complete name v.text := by
  refine ⟨w.text, w.level, body, "", hw.ended, hbody, ?_⟩
  rw [htext, Writer.start, if_pos hw.start, String.append_empty]

theorem Halted.glued {name body : String} {w v : Writer} (hw : Halted w) (hbody : ClassText name w.level body)
    (htext : v.text = w.start.text ++ body) : Glued name v.text := by
  obtain ⟨before, f, hint, hf, hfield⟩ := hw.field
  refine ⟨before, f, hint, w.level, body, "", hf, hbody, ?_⟩
  rw [htext, Writer.start, if_neg (by simp [hw.start]), hfield, String.append_empty]

end Dataclasses

end Emit

end CodeBridge
