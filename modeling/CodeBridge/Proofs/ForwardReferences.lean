import CodeBridge.Proofs.ClassTexts
import CodeBridge.Proofs.FinishedTexts
import CodeBridge.Proofs.Sessions

/-! # Forward references

A class that a type hint names without quotes has been written before. This holds for every hint in the text of a
generator of classes, whatever the generator was asked for and whatever has failed. The class is found on lines of its
own, unless a comment was refused before: then it may be glued to the line on which that happened. In a single run the
classes without quotes are exactly those that the run has written. -/

namespace CodeBridge.Emit.Dataclasses

open Writing

/-! ### Type hints by their parts -/

/-- A type hint. It refers to classes by their names, with quotes or without them. -/
inductive Hint where
  | builtin (name : String)
  | list (element : Hint)
  | set (element : Hint)
  | dict (key value : Hint)
  | reference (name : String) (quoted : Bool)

namespace Hint

def text : Hint → String
  | builtin name => name
  | list element => "list[" ++ element.text ++ "]"
  | set element => "set[" ++ element.text ++ "]"
  | dict key value => "dict[" ++ key.text ++ ", " ++ value.text ++ "]"
  | reference name quoted => if quoted then "'" ++ name ++ "'" else name

/-- The names of classes in a hint, each with whether it stands in quotes. -/
def references : Hint → List (String × Bool)
  | builtin _ => []
  | list element => element.references
  | set element => element.references
  | dict key value => key.references ++ value.references
  | reference name quoted => [(name, quoted)]

end Hint

/-- The hint of a type by its parts. -/
def hintOf (written : List String) : DataType → Except Fault Hint
  | .primitive .boolean => .ok (.builtin "bool")
  | .primitive .float => .ok (.builtin "float")
  | .primitive .double => .ok (.builtin "float")
  | .primitive .string => .ok (.builtin "str")
  | .primitive _ => .ok (.builtin "int")
  | .custom name _ isInteger => if isInteger then .ok (.builtin "int") else .error (.unsupportedHint name)
  | .list element _ => do return .list (← hintOf written element)
  | .set _ _ (second :: _) => do return .set (← hintOf written second)
  | .set _ _ [] => .error .outOfRange
  | .map _ key value => do return .dict (← hintOf written key) (← hintOf written value)
  | .missing => .error (DataType.missing.lacks "name")
  | t => .ok (.reference t.label (!written.contains t.label))

/-- The names of the types in the hint of a type that are neither primitive nor lists, sets or maps. -/
def referred : DataType → List String
  | .primitive _ => []
  | .custom _ _ _ => []
  | .list element _ => referred element
  | .set _ _ (second :: _) => referred second
  | .set _ _ [] => []
  | .map _ key value => referred key ++ referred value
  | .missing => []
  | t => [t.label]

theorem classReference_eq (written : List String) (name : String) :
    DataType.typeHint.classReference written name = (Hint.reference name (!written.contains name)).text := by
  unfold DataType.typeHint.classReference Hint.text
  cases written.contains name <;> rfl

theorem typeHint_eq (written : List String) : ∀ t : DataType,
    t.typeHint written = (hintOf written t).map Hint.text
  | .missing => rfl
  | .primitive p => by cases p <;> rfl
  | .custom name castType isInteger => by cases isInteger <;> rfl
  | .struct s => congrArg Except.ok (classReference_eq written s.name)
  | .enumeration e => congrArg Except.ok (classReference_eq written e.name)
  | .list element bound => by
    rw [DataType.typeHint, hintOf, typeHint_eq written element]
    cases hintOf written element <;> rfl
  | .array element length => congrArg Except.ok (classReference_eq written _)
  | .set name element [] => rfl
  | .set name element (second :: extra) => by
    rw [DataType.typeHint, hintOf, typeHint_eq written second]
    cases hintOf written second <;> rfl
  | .map name key value => by
    rw [DataType.typeHint, hintOf, typeHint_eq written key, typeHint_eq written value]
    cases hintOf written key with
    | error fault => rfl
    | ok first => cases hintOf written value <;> rfl
  | .other name arguments => congrArg Except.ok (classReference_eq written name)

theorem exists_hintOf {written : List String} {t : DataType} {hint : String} (h : t.typeHint written = .ok hint) :
    ∃ a, hintOf written t = .ok a ∧ a.text = hint := by
  rw [typeHint_eq] at h
  cases ha : hintOf written t with
  | error fault =>
    rw [ha] at h
    cases h
  | ok a =>
    rw [ha] at h
    exact ⟨a, rfl, Except.ok.inj h⟩

/-- A hint refers to the classes of its type, and leaves the quotes out for those that are written. -/
theorem references_eq {written : List String} : ∀ {t : DataType} {a : Hint}, hintOf written t = .ok a →
    a.references = (referred t).map fun name => (name, !written.contains name)
  | .missing, _, h => by cases h
  | .primitive p, _, h => by cases p <;> cases h <;> rfl
  | .custom name castType isInteger, _, h => by cases isInteger <;> cases h; rfl
  | .struct s, _, h => by cases h; rfl
  | .enumeration e, _, h => by cases h; rfl
  | .list element bound, _, h => by
    obtain ⟨inner, hinner, h⟩ := exists_of_bind_eq_ok h
    cases h
    rw [Hint.references, referred]
    exact references_eq hinner
  | .array element length, _, h => by cases h; rfl
  | .set name element [], _, h => by cases h
  | .set name element (second :: extra), _, h => by
    obtain ⟨inner, hinner, h⟩ := exists_of_bind_eq_ok h
    cases h
    rw [Hint.references, referred]
    exact references_eq hinner
  | .map name key value, _, h => by
    obtain ⟨first, hfirst, h⟩ := exists_of_bind_eq_ok h
    obtain ⟨second, hsecond, h⟩ := exists_of_bind_eq_ok h
    cases h
    rw [Hint.references, referred, List.map_append, references_eq hfirst, references_eq hsecond]
  | .other name arguments, _, h => by cases h; rfl

theorem bare_iff {written : List String} {t : DataType} {a : Hint} (h : hintOf written t = .ok a)
    {reference : String × Bool} (hreference : reference ∈ a.references) :
    reference.2 = false ↔ reference.1 ∈ written := by
  rw [references_eq h] at hreference
  obtain ⟨name, -, rfl⟩ := List.mem_map.mp hreference
  simp

/-! ### Calls -/

/-- What a generator of classes can be asked for: a whole run, or the class of a single enumeration or struct. -/
inductive Call where
  | run
  | enumeration (e : Enumeration)
  | struct (s : Struct)

/-- The generator of the classes of a module with all its calls. -/
def caller (m : Module) : Generator Call State String where
  start := ⟨.bare, []⟩
  perform
    | .run => run m
    | .enumeration e => writing fun _ => enumeration e
    | .struct s => writing fun written => struct written s
  result := writing fun _ => Writing.result

/-- A state in which writing can go on and the classes that count as complete are in the text. They are on lines of
their own, except where a comment was `refused`. -/
structure State.Consistent (refused : Prop) (σ : State) : Prop where
  level : 0 ≤ σ.writer.level
  brackets : σ.writer.brackets = some ⟨"", ""⟩
  place : Rested σ.writer ∨ (refused ∧ Halted σ.writer)
  complete : ∀ name ∈ σ.written, Complete name σ.writer.text ∨ (refused ∧ Glued name σ.writer.text)

theorem State.Consistent.imp {p q : Prop} {σ : State} (h : σ.Consistent p) (hpq : p → q) : σ.Consistent q where
  level := h.level
  brackets := h.brackets
  place := h.place.imp_right (And.imp_left hpq)
  complete name hname := (h.complete name hname).imp_right (And.imp_left hpq)

/-- Whatever comes of it, the action only adds text and leaves a consistent state. -/
def Faithful (x : EStateM Fault State Unit) : Prop :=
  ∀ (refused : Prop) (σ : State), σ.Consistent refused →
    (∀ field struct τ, x σ = .error (.emptyComment field struct) τ → refused) →
    (reached x σ).Consistent refused ∧ σ.writer.Grown (reached x σ).writer

theorem Faithful.pure : Faithful (Pure.pure ()) := fun _ σ hσ _ => ⟨hσ, .refl σ.writer⟩

theorem Faithful.bind {x y : EStateM Fault State Unit} (hx : Faithful x) (hy : Faithful y) :
    Faithful (x >>= fun _ => y) := by
  intro refused σ hσ hfault
  cases h : x σ with
  | error fault τ =>
    obtain ⟨hconsistent, hgrown⟩ := hx _ σ hσ fun field struct υ hx => hfault field struct υ (bind_error hx _)
    rw [reached_of_error h] at hconsistent hgrown
    rw [reached_bind_of_error h]
    exact ⟨hconsistent, hgrown⟩
  | ok _ τ =>
    obtain ⟨hconsistent, hgrown⟩ := hx _ σ hσ fun field struct υ hx => by cases h.symm.trans hx
    rw [reached_of_ok h] at hconsistent hgrown
    rw [reached_bind_of_ok h]
    obtain ⟨hconsistent, hgrown'⟩ := hy _ τ hconsistent fun field struct υ hy =>
      hfault field struct υ ((bind_ok h _).trans hy)
    exact ⟨hconsistent, hgrown.trans hgrown'⟩

/-- For what is added it does not matter whether a comment was refused. -/
theorem Faithful.grown {x : EStateM Fault State Unit} (hx : Faithful x) {refused : Prop} {σ : State} (hσ : σ.Consistent refused) :
    (reached x σ).Consistent True ∧ σ.writer.Grown (reached x σ).writer :=
  hx _ σ (hσ.imp fun _ => trivial) fun _ _ _ _ => trivial

theorem Faithful.grown_bind {x y : EStateM Fault State Unit} (hx : Faithful x) (hy : Faithful y) {refused : Prop} {σ : State}
    (hσ : σ.Consistent refused) : (reached x σ).writer.Grown (reached (x >>= fun _ => y) σ).writer := by
  have hconsistent := (hx.grown hσ).1
  cases h : x σ with
  | error fault τ =>
    rw [reached_bind_of_error h, reached_of_error h]
    exact .refl τ.writer
  | ok _ τ =>
    rw [reached_of_ok h] at hconsistent ⊢
    rw [reached_bind_of_ok h]
    exact (hy.grown hconsistent).2

theorem reached_writing (f : List String → Writing Unit) (σ : State) :
    reached (writing f) σ = ⟨reached (f σ.written) σ.writer, σ.written⟩ := by
  unfold reached writing
  cases f σ.written σ.writer <;> rfl

theorem reached_class (f : List String → Writing Unit) (name : String) (σ : State) :
    (reached (writing f >>= fun _ => complete name) σ).writer = reached (f σ.written) σ.writer := by
  have hwriting := congrArg State.writer (reached_writing f σ)
  cases h : writing f σ with
  | error fault τ =>
    rw [reached_of_error h] at hwriting
    rw [reached_bind_of_error h]
    exact hwriting
  | ok _ τ =>
    rw [reached_of_ok h] at hwriting
    rw [reached_bind_of_ok h]
    exact hwriting

/-- An action on the writer that only adds text, does not lose its level, and leaves a line unfinished only when it
refuses a comment. -/
structure Wellbehaved (f : List String → Writing Unit) : Prop where
  grows : ∀ written, Grows (f written)
  settles : ∀ written, ∃ accepted, Settles Writer.gauge 1 (f written) accepted
  lined : ∀ written w, w.brackets = some ⟨"", ""⟩ → Lined (f written w)

section
variable {f : List String → Writing Unit} (hf : Wellbehaved f)
include hf

theorem Wellbehaved.level_reached {refused : Prop} {σ : State} (hσ : σ.Consistent refused) :
    0 ≤ (reached (f σ.written) σ.writer).level := by
  obtain ⟨accepted, hends⟩ := hf.settles σ.written
  have hends := hends σ.writer ⟨hσ.level, _, hσ.brackets⟩
  unfold reached
  generalize f σ.written σ.writer = r at hends ⊢
  cases hends with
  | ok _ ht _ => exact ht.1
  | error _ ht _ => exact ht.1

/-- Writing does not touch what counts as complete, and the text of complete classes stays. -/
theorem Wellbehaved.faithful : Faithful (writing f) := by
  intro refused σ hσ hfault
  have hgrown := hf.grows σ.written σ.writer
  have hplace : Rested (reached (f σ.written) σ.writer) ∨ (refused ∧ Halted (reached (f σ.written) σ.writer)) := by
    have hlined := hf.lined σ.written σ.writer hσ.brackets
    generalize hr : f σ.written σ.writer = r at hlined
    cases hlined with
    | ok h =>
      rw [reached_of_ok hr]
      exact .inl h
    | error h =>
      rw [reached_of_error hr]
      exact .inl h
    | refused h =>
      rw [reached_of_error hr]
      exact .inr ⟨hfault _ _ ⟨_, σ.written⟩ (by rw [writing, hr]), h⟩
  rw [reached_writing]
  exact ⟨⟨hf.level_reached hσ, hgrown.brackets.trans hσ.brackets, hplace, fun name hname =>
    (hσ.complete name hname).imp (·.grown hgrown) (And.imp_right (·.grown hgrown))⟩, hgrown⟩

/-- A class counts as complete when it is written to its end. -/
theorem Wellbehaved.faithful_complete {name : String} (htext : ∀ written w v, w.brackets = some ⟨"", ""⟩ → 0 ≤ w.level →
    f written w = .ok () v → ∃ body, ClassText name w.level body ∧ v.text = w.start.text ++ body) :
    Faithful (writing f >>= fun _ => complete name) := by
  intro refused σ hσ hfault
  cases h : f σ.written σ.writer with
  | error fault v =>
    have hwriting : writing f σ = .error fault ⟨v, σ.written⟩ := by rw [writing, h]
    obtain ⟨hconsistent, hgrown⟩ := hf.faithful _ σ hσ fun field struct υ hx => hfault field struct υ (bind_error hx _)
    rw [reached_of_error hwriting] at hconsistent hgrown
    rw [reached_bind_of_error hwriting]
    exact ⟨hconsistent, hgrown⟩
  | ok _ v =>
    have hwriting : writing f σ = .ok () ⟨v, σ.written⟩ := by rw [writing, h]
    obtain ⟨hconsistent, hgrown⟩ := hf.faithful _ σ hσ fun field struct υ hx => by cases hwriting.symm.trans hx
    rw [reached_of_ok hwriting] at hconsistent hgrown
    rw [reached_bind_of_ok hwriting]
    refine ⟨⟨hconsistent.level, hconsistent.brackets, hconsistent.place, fun other hother => ?_⟩, hgrown⟩
    rcases List.mem_append.mp hother with hother | hother
    · exact hconsistent.complete other hother
    · rw [List.mem_singleton.mp hother]
      obtain ⟨body, hbody, htext⟩ := htext σ.written σ.writer v hσ.brackets hσ.level h
      exact hσ.place.imp (·.complete hbody htext) (And.imp_right (·.glued hbody htext))

end

theorem wellbehaved_enumeration (e : Enumeration) : Wellbehaved fun _ => enumeration e where
  grows _ := grows_enumeration e
  settles _ := ⟨_, settles_enumeration e⟩
  lined _ _ hb := lined_enumeration e hb

theorem wellbehaved_struct (s : Struct) : Wellbehaved (struct · s) where
  grows written := grows_struct written s
  settles written := ⟨_, settles_struct written s⟩
  lined written _ hb := lined_struct written s hb

theorem faithful_runEnumerations (es : List Enumeration) : Faithful (runEnumerations es) := by
  induction es with
  | nil => exact .pure
  | cons e es ih =>
    have hclass := (wellbehaved_enumeration e).faithful_complete fun _ _ _ hb hl h => text_enumeration hb hl h
    have hboth := hclass.bind ih
    rw [bind_assoc] at hboth
    exact hboth

theorem faithful_class (s : Struct) : Faithful (writing (struct · s) >>= fun _ => complete s.name) :=
  (wellbehaved_struct s).faithful_complete fun _ _ _ hb hl h => text_struct hb hl h

theorem faithful_runStructs (ss : List Struct) : Faithful (runStructs ss) := by
  induction ss with
  | nil => exact .pure
  | cons s ss ih =>
    have hboth := (faithful_class s).bind ih
    rw [bind_assoc] at hboth
    exact hboth

theorem faithful_perform (m : Module) : ∀ call : Call, Faithful ((caller m).perform call)
  | .run => (faithful_runEnumerations m.enumerations).bind (faithful_runStructs m.structs)
  | .enumeration e => (wellbehaved_enumeration e).faithful
  | .struct s => (wellbehaved_struct s).faithful

/-! ### Sessions -/

section
variable {ρ σ α : Type} (g : Generator ρ σ α)

theorem session_cons (r : ρ) (rest : List ρ) (s : σ) :
    (g.session (r :: rest) s).2 = (g.session rest (reached (g.perform r) s)).2 := by
  rw [Generator.session, reached]
  cases g.perform r s <;> rfl

theorem mem_failures_of_error {r : ρ} {s t : σ} {fault : Fault} (h : g.perform r s = .error fault t) (rest : List ρ) :
    some fault ∈ (g.session (r :: rest) s).1 := by
  simp [Generator.session, h]

theorem mem_failures_cons (r : ρ) {rest : List ρ} {s : σ} {failure : Option Fault}
    (h : failure ∈ (g.session rest (reached (g.perform r) s)).1) : failure ∈ (g.session (r :: rest) s).1 := by
  rw [reached] at h
  rw [Generator.session]
  cases hr : g.perform r s <;> (rw [hr] at h; exact List.mem_cons_of_mem _ h)

theorem session_append (requests more : List ρ) (s : σ) :
    (g.session (requests ++ more) s).2 = (g.session more (g.session requests s).2).2 := by
  induction requests generalizing s with
  | nil => rfl
  | cons r requests ih => rw [List.cons_append, session_cons, ih, session_cons]

end

/-- The state after some calls on a new generator. -/
def after (m : Module) (calls : List Call) : State :=
  ((caller m).session calls (caller m).start).2

/-- The failures of some calls on a new generator. -/
def failures (m : Module) (calls : List Call) : List (Option Fault) :=
  ((caller m).session calls (caller m).start).1

theorem faithful_session (m : Module) (calls : List Call) {refused : Prop} {σ : State} (hσ : σ.Consistent refused)
    (hfault : ∀ field struct, some (.emptyComment field struct) ∈ ((caller m).session calls σ).1 → refused) :
    ((caller m).session calls σ).2.Consistent refused ∧ σ.writer.Grown ((caller m).session calls σ).2.writer := by
  induction calls generalizing σ with
  | nil => exact ⟨hσ, .refl σ.writer⟩
  | cons call calls ih =>
    obtain ⟨hconsistent, hgrown⟩ := faithful_perform m call _ σ hσ fun field struct τ h =>
      hfault field struct (mem_failures_of_error _ h calls)
    obtain ⟨hend, hgrown'⟩ := ih hconsistent fun field struct h => hfault field struct (mem_failures_cons _ call h)
    rw [session_cons]
    exact ⟨hend, hgrown.trans hgrown'⟩

theorem consistent_after (m : Module) (calls : List Call) :
    (after m calls).Consistent (∃ field struct, some (.emptyComment field struct) ∈ failures m calls) := by
  have hstart : ∀ refused, (caller m).start.Consistent refused := fun refused =>
    ⟨Int.le_refl 0, rfl, .inl ⟨rfl, .inl rfl⟩, by simp [caller]⟩
  exact (faithful_session m calls (hstart _) fun field struct h => ⟨field, struct, h⟩).1

/-! ### Places of hints -/

/-- The call comes to the class of `s`, in the last of these states and behind the classes of the `earlier` structs. -/
inductive Begins (m : Module) (σ : State) : Call → List Struct → Struct → State → Prop where
  | alone (s : Struct) : Begins m σ (.struct s) [] s σ
  | within {earlier later : List Struct} {s : Struct} {τ : State} (hs : m.structs = earlier ++ s :: later)
      (h : (runEnumerations m.enumerations >>= fun _ => runStructs earlier) σ = .ok () τ) : Begins m σ .run earlier s τ

/-- What is written of a class before one of its fields. -/
def upTo (written : List String) (s : Struct) (fields : List Field) : Writing Unit := do
  line "@dataclass"
  write ("class " ++ s.name ++ ":")
  openBlock
  each fields (member written s.name)

theorem each_append {α : Type} (as bs : List α) (f : α → Writing Unit) :
    each (as ++ bs) f = each as f >>= fun _ => each bs f := by
  induction as with
  | nil => rfl
  | cons a as ih =>
    show (f a >>= fun _ => each (as ++ bs) f) = (f a >>= fun _ => each as f) >>= fun _ => each bs f
    rw [ih, bind_assoc]

theorem struct_eq (written : List String) {s : Struct} {before behind : List Field} {f : Field}
    (hf : s.fields = before ++ f :: behind) : struct written s = upTo written s before >>= fun _ =>
      member written s.name f >>= fun _ => each behind (member written s.name) >>= fun _ =>
        closeBlock "" >>= fun _ => line "" := by
  have hfields : each s.fields (member written s.name) = each before (member written s.name) >>= fun _ =>
      member written s.name f >>= fun _ => each behind (member written s.name) := by
    rw [hf, each_append]
    rfl
  simp only [struct, upTo, block, hfields, bind_assoc]

theorem runStructs_append (as bs : List Struct) : runStructs (as ++ bs) = runStructs as >>= fun _ => runStructs bs := by
  induction as with
  | nil => rfl
  | cons s as ih => simp only [List.cons_append, runStructs, ih, bind_assoc]

/-- What a run does for each class: it writes the class and notes its name. -/
theorem of_class_eq_ok {f : List String → Writing Unit} {name : String} {rest : EStateM Fault State Unit} {σ τ : State}
    (h : (writing f >>= fun _ => complete name >>= fun _ => rest) σ = .ok () τ) :
    ∃ w, rest ⟨w, σ.written ++ [name]⟩ = .ok () τ := by
  obtain ⟨_, σ₁, hwriting, h⟩ := exists_of_bind_run_eq_ok h
  have hreached := reached_of_ok hwriting
  rw [reached_writing] at hreached
  subst hreached
  exact ⟨_, h⟩

theorem written_runEnumerations {es : List Enumeration} {σ τ : State} (h : runEnumerations es σ = .ok () τ) :
    τ.written = σ.written ++ es.map (·.name) := by
  induction es generalizing σ with
  | nil =>
    cases h
    simp
  | cons e es ih =>
    obtain ⟨w, h⟩ := of_class_eq_ok h
    rw [ih h, List.append_assoc]
    rfl

theorem written_runStructs {ss : List Struct} {σ τ : State} (h : runStructs ss σ = .ok () τ) :
    τ.written = σ.written ++ ss.map (·.name) := by
  induction ss generalizing σ with
  | nil =>
    cases h
    simp
  | cons s ss ih =>
    obtain ⟨w, h⟩ := of_class_eq_ok h
    rw [ih h, List.append_assoc]
    rfl

namespace Begins

variable {m : Module} {call : Call} {earlier : List Struct} {s : Struct} {σ τ : State}

theorem consistent (h : Begins m σ call earlier s τ) {refused : Prop} (hσ : σ.Consistent refused) : τ.Consistent refused := by
  cases h with
  | alone s => exact hσ
  | within hs h =>
    have hfaithful := (faithful_runEnumerations m.enumerations).bind (faithful_runStructs earlier)
    have hτ := (hfaithful _ σ hσ fun _ _ _ hx => by cases h.symm.trans hx).1
    rwa [reached_of_ok h] at hτ

/-- What is written of the class stays in the text of the call. -/
theorem grown (h : Begins m σ call earlier s τ) {refused : Prop} (hσ : σ.Consistent refused) :
    (reached (struct τ.written s) τ.writer).Grown (reached ((caller m).perform call) σ).writer := by
  have hτ := h.consistent hσ
  cases h with
  | alone s =>
    have hreached : reached ((caller m).perform (.struct s)) σ = _ := reached_writing (struct · s) σ
    rw [hreached]
    exact .refl _
  | @within _ later _ _ hs h =>
    have hrun : (caller m).perform .run = (runEnumerations m.enumerations >>= fun _ => runStructs earlier) >>= fun _ =>
        (writing (struct · s) >>= fun _ => complete s.name) >>= fun _ => runStructs later := by
      show run m = _
      rw [run, hs, runStructs_append, bind_assoc, bind_assoc]
      rfl
    have hclass := (faithful_class s).grown_bind (faithful_runStructs later) hτ
    rw [reached_class] at hclass
    rw [hrun, reached_bind_of_ok h]
    exact hclass

/-- On a new generator the complete classes are those of the enumerations and of the earlier structs. -/
theorem written_of_start (h : Begins m (caller m).start .run earlier s τ) :
    τ.written = m.enumerations.map (·.name) ++ earlier.map (·.name) := by
  cases h with
  | within hs h =>
    obtain ⟨_, υ, henumerations, hstructs⟩ := exists_of_bind_run_eq_ok h
    rw [written_runStructs hstructs, written_runEnumerations henumerations]
    rfl

end Begins

/-! ### Hints in the text -/

theorem grows_upTo (written : List String) (s : Struct) (fields : List Field) : Grows (upTo written s fields) :=
  (Grows.line _).bind fun _ => (Grows.write _).bind fun _ => Grows.openBlock.bind fun _ =>
    Grows.each fun f => grows_member written s.name f

section
variable {written : List String} {s : Struct} {front back : List Field} {f : Field} {w v : Writer} {hint : String}

/-- Once a field is reached, its hint stays in the text. -/
theorem grown_struct (hf : s.fields = front ++ f :: back) (hupTo : upTo written s front w = .ok () v)
    (hhint : f.type.typeHint written = .ok hint) : (v.put (fieldText f hint)).Grown (reached (struct written s) w) := by
  rw [struct_eq written hf, reached_bind_of_ok hupTo]
  have hmember : member written s.name f = write (fieldText f hint) >>= fun _ =>
      comment s.name f.name f.comment fun l => " # " ++ l := by
    rw [member, hhint]
    rfl
  have hrest : Grows (each back (member written s.name) >>= fun _ => closeBlock "" >>= fun _ => line "") :=
    (Grows.each fun f => grows_member written s.name f).bind fun _ => (Grows.closeBlock "").bind fun _ => .line ""
  rw [hmember, bind_assoc]
  exact ((grows_comment s.name f.name f.comment _).bind fun _ => hrest) (v.put (fieldText f hint))

end

/-- A type hint stands in the text of every session that comes to its field. It refers to the classes of its type. A
class that it names without quotes is complete in the text before it, on lines of its own; if an earlier call has refused
a comment it may start on the line where that happened instead. On a new generator a run leaves the quotes out for the
enumerations and the earlier structs, and for nothing else. -/
theorem forward_references_sound {m : Module} {before : List Call} {call : Call} (later : List Call)
    {earlier : List Struct} {s : Struct} {τ : State} (hbegins : Begins m (after m before) call earlier s τ)
    {front back : List Field} {f : Field} (hf : s.fields = front ++ f :: back)
    {v : Writer} (hupTo : upTo τ.written s front τ.writer = .ok () v)
    {hint : String} (hhint : f.type.typeHint τ.written = .ok hint) :
    ∃ a : Hint, hintOf τ.written f.type = .ok a ∧ a.text = hint ∧ a.references.map Prod.fst = referred f.type ∧
      (∃ more, (after m (before ++ call :: later)).writer.text = v.start.text ++ fieldText f hint ++ more) ∧
      (∀ name, (name, false) ∈ a.references → Complete name v.start.text ∨
        ((∃ field struct, some (.emptyComment field struct) ∈ failures m before) ∧ Glued name v.start.text)) ∧
      (before = [] → call = .run → ∀ reference ∈ a.references,
        (reference.2 = false ↔ reference.1 ∈ m.enumerations.map (·.name) ++ earlier.map (·.name))) := by
  have hσ := consistent_after m before
  have hτ := hbegins.consistent hσ
  obtain ⟨a, ha, rfl⟩ := exists_hintOf hhint
  refine ⟨a, ha, rfl, ?_, ?_, ?_, ?_⟩
  · rw [references_eq ha, List.map_map]
    exact List.map_id _
  · have hcall := ((faithful_perform m call).grown hσ).1
    have hsession := (faithful_session m later hcall fun _ _ _ => trivial).2
    obtain ⟨-, more, hmore⟩ := ((grown_struct hf hupTo hhint).trans (hbegins.grown hσ)).trans hsession
    refine ⟨more, ?_⟩
    rw [after, session_append, session_cons]
    exact hmore
  · intro name hname
    have hgrown := grows_upTo τ.written s front τ.writer
    rw [reached_of_ok hupTo] at hgrown
    have hgrown := hgrown.trans (.start v)
    exact (hτ.complete name ((bare_iff ha hname).mp rfl)).imp (·.grown hgrown) (And.imp_right (·.grown hgrown))
  · intro hbefore hcall reference hreference
    subst hbefore hcall
    rw [← hbegins.written_of_start]
    exact bare_iff ha hreference

def hue : Enumeration :=
  ⟨"Hue", ["GREEN", "GOLD"], .int 1, .bool true, .text "e"⟩

def age : Field :=
  ⟨"age", .primitive .uint16, some "in years"⟩

/-- The grafts of a tree are trees. -/
def grafts : Field :=
  ⟨"grafts", .map "Grafts" (.enumeration hue) (.list (.other "Tree" []) .unbounded), none⟩

def tree : Struct :=
  ⟨"Tree", [age, grafts], .bool false, .nothing⟩

/-- A struct that fails since there is no hint for the type of its field. -/
def thicket : Struct :=
  ⟨"Thicket", [⟨"density", .custom "Odd" "odd_t" false, none⟩], .bool false, .nothing⟩

def orchard : Module :=
  ⟨"orchard", [], [tree], [hue]⟩

theorem eq_ok_reached {σ α : Type} {x : EStateM Fault σ α} {a : α} {s : σ} (h : outcome x s = .ok a) :
    x s = .ok a (reached x s) := by
  obtain ⟨t, ht⟩ := of_outcome_eq_ok h
  rw [reached_of_ok ht, ht]

/-- Where a run comes to the first struct of a module. -/
def atFirst (m : Module) (before : List Call) : State :=
  reached (runEnumerations m.enumerations >>= fun _ => runStructs []) (after m before)

theorem begins_atFirst {m : Module} {before : List Call} {s : Struct} {rest : List Struct} (hs : m.structs = s :: rest)
    (h : outcome (runEnumerations m.enumerations >>= fun _ => runStructs []) (after m before) = .ok ()) :
    Begins m (after m before) .run [] s (atFirst m before) :=
  .within hs (eq_ok_reached h)

/-- The first run has the tree in quotes. A later one has not, though a struct has failed before. -/
theorem orchard_references :
    (grafts.type.typeHint (atFirst orchard []).written = .ok "dict[Hue, list['Tree']]" ∧
      ∃ v, upTo (atFirst orchard []).written tree [age] (atFirst orchard []).writer = .ok () v ∧ Complete "Hue" v.start.text) ∧
    (failures orchard [.struct thicket, .run] = [some (.unsupportedHint "Odd"), none] ∧
      grafts.type.typeHint (atFirst orchard [.struct thicket, .run]).written = .ok "dict[Hue, list[Tree]]" ∧
      ∃ v, upTo (atFirst orchard [.struct thicket, .run]).written tree [age]
          (atFirst orchard [.struct thicket, .run]).writer = .ok () v ∧
        Complete "Hue" v.start.text ∧ Complete "Tree" v.start.text) := by
  have hfields : tree.fields = [age] ++ grafts :: [] := rfl
  constructor
  · have hhint : grafts.type.typeHint (atFirst orchard []).written = .ok "dict[Hue, list['Tree']]" := by decide +kernel
    have hupTo := eq_ok_reached
      (show outcome (upTo (atFirst orchard []).written tree [age]) (atFirst orchard []).writer = .ok () by decide +kernel)
    obtain ⟨a, ha, -, -, -, hcomplete, -⟩ :=
      forward_references_sound [] (begins_atFirst rfl (by decide +kernel)) hfields hupTo hhint
    have hhue : ("Hue", false) ∈ a.references := by
      rw [references_eq ha]
      decide +kernel
    refine ⟨hhint, _, hupTo, (hcomplete "Hue" hhue).resolve_right ?_⟩
    rintro ⟨⟨_, _, hfailure⟩, -⟩
    cases hfailure
  · have hfailures : failures orchard [.struct thicket, .run] = [some (.unsupportedHint "Odd"), none] := by decide +kernel
    have hhint : grafts.type.typeHint (atFirst orchard [.struct thicket, .run]).written = .ok "dict[Hue, list[Tree]]" := by
      decide +kernel
    have hupTo := eq_ok_reached (show outcome (upTo (atFirst orchard [.struct thicket, .run]).written tree [age])
      (atFirst orchard [.struct thicket, .run]).writer = .ok () by decide +kernel)
    obtain ⟨a, ha, -, -, -, hcomplete, -⟩ :=
      forward_references_sound [] (begins_atFirst rfl (by decide +kernel)) hfields hupTo hhint
    have hclasses : ("Hue", false) ∈ a.references ∧ ("Tree", false) ∈ a.references := by
      rw [references_eq ha]
      decide +kernel
    have hnone : ¬∃ field struct, some (.emptyComment field struct) ∈ failures orchard [.struct thicket, .run] := by
      rw [hfailures]
      simp
    exact ⟨hfailures, hhint, _, hupTo, (hcomplete "Hue" hclasses.1).resolve_right fun h => hnone h.1,
      (hcomplete "Tree" hclasses.2).resolve_right fun h => hnone h.1⟩

/-- A struct that fails in the midst of a line, since its comment is blank. -/
def stump : Struct :=
  ⟨"Stump", [⟨"hue", .enumeration hue, some " "⟩], .bool false, .nothing⟩

def clearing : Module :=
  ⟨"clearing", [], [stump], [hue]⟩

/-- Behind a refused comment the class of the hue is glued to the line of a field. The next run names it without quotes,
and the text has no class of this name. -/
theorem hue_glued : Begins clearing (after clearing [.struct stump]) .run [] stump (atFirst clearing [.struct stump]) ∧
    ∃ v, upTo (atFirst clearing [.struct stump]).written stump [] (atFirst clearing [.struct stump]).writer = .ok () v ∧
      (DataType.enumeration hue).typeHint (atFirst clearing [.struct stump]).written = .ok "Hue" ∧
      ¬Complete "Hue" v.start.text := by
  have hupTo := eq_ok_reached (show outcome (upTo (atFirst clearing [.struct stump]).written stump [])
    (atFirst clearing [.struct stump]).writer = .ok () by decide +kernel)
  have hheaded : ¬Headed "Hue" (reached (upTo (atFirst clearing [.struct stump]).written stump [])
      (atFirst clearing [.struct stump]).writer).start.text := by
    unfold Headed
    decide +kernel
  exact ⟨begins_atFirst rfl (by decide +kernel), _, hupTo, by decide +kernel, fun h => hheaded h.headed⟩

end CodeBridge.Emit.Dataclasses
