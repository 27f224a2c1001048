import CodeBridge.Emit.Dataclasses
import CodeBridge.Macro
import CodeBridge.Proofs.Writing

/-! # Levels

What succeeds comes back to the level that it started at. What fails stays at the level where it failed, and that
is above the first level when it failed inside a block. `Settles` says this of an action, together with when the
action succeeds. An action that is made of several ones settles as they do. -/

namespace CodeBridge

/-- How the level of a state is read off, and which states can be written to. -/
structure Gauge (σ : Type) where
  level : σ → Int
  Sound : σ → Prop

section
variable {σ α β : Type} {g : Gauge σ} {rise : Int} {P Q : Prop}

/-- How an action ends that was started in `s`: at the level of `s` if it is accepted, and at least `rise` levels
above it otherwise. -/
inductive Ends (g : Gauge σ) (rise : Int) (s : σ) (accepted : Prop) : EStateM.Result Fault σ α → Prop where
  | ok {a : α} {t : σ} (h : accepted) (ht : g.Sound t) (hl : g.level t = g.level s) : Ends g rise s accepted (.ok a t)
  | error {fault : Fault} {t : σ} (h : ¬accepted) (ht : g.Sound t) (hl : g.level s + rise ≤ g.level t) :
      Ends g rise s accepted (.error fault t)

/-- From every sound state `x` succeeds exactly if it is accepted, and only a failure raises the level. -/
def Settles (g : Gauge σ) (rise : Int) (x : EStateM Fault σ α) (accepted : Prop) : Prop :=
  ∀ s, g.Sound s → Ends g rise s accepted (x s)

namespace Settles

theorem congr {x : EStateM Fault σ α} (h : Settles g rise x P) (hPQ : P ↔ Q) : Settles g rise x Q :=
  propext hPQ ▸ h

theorem weaken {x : EStateM Fault σ α} (h : Settles g 1 x P) : Settles g 0 x P := by
  intro s hs
  have hx := h s hs
  generalize x s = r at hx ⊢
  cases hx with
  | ok hP ht hl => exact .ok hP ht hl
  | error hP ht hl => exact .error hP ht (by omega)

theorem pure (a : α) : Settles g rise (Pure.pure a) True :=
  fun _ hs => .ok trivial hs rfl

theorem throw (fault : Fault) : Settles g 0 (MonadExcept.throw fault : EStateM Fault σ α) False :=
  fun _ hs => .error id hs (by omega)

theorem of_modify {f : σ → σ} (hf : ∀ s, g.Sound s → g.Sound (f s) ∧ g.level (f s) = g.level s) :
    Settles g rise (modify f : EStateM Fault σ Unit) True :=
  fun s hs => .ok trivial (hf s hs).1 (hf s hs).2

theorem bind {x : EStateM Fault σ α} {f : α → EStateM Fault σ β} (hx : Settles g rise x P)
    (hf : ∀ a, Settles g rise (f a) Q) : Settles g rise (x >>= f) (P ∧ Q) := by
  intro s hs
  have hx := hx s hs
  show Ends g rise s (P ∧ Q) (EStateM.bind x f s)
  unfold EStateM.bind
  generalize x s = r at hx ⊢
  cases hx with
  | error hP ht hl => exact .error (fun h => hP h.1) ht hl
  | @ok a t hP ht hl =>
    have hf := hf a t ht
    show Ends g rise s (P ∧ Q) (f a t)
    generalize f a t = r at hf ⊢
    cases hf with
    | ok hQ hu hl' => exact .ok ⟨hP, hQ⟩ hu (hl'.trans hl)
    | error hQ hu hl' => exact .error (fun h => hQ h.2) hu (by omega)

/-- An action that always succeeds adds no condition. -/
theorem after {x : EStateM Fault σ α} {f : α → EStateM Fault σ β} (hx : Settles g rise x True)
    (hf : ∀ a, Settles g rise (f a) Q) : Settles g rise (x >>= f) Q :=
  (hx.bind hf).congr ⟨And.right, fun h => ⟨trivial, h⟩⟩

theorem before {x : EStateM Fault σ α} {f : α → EStateM Fault σ β} (hx : Settles g rise x P)
    (hf : ∀ a, Settles g rise (f a) True) : Settles g rise (x >>= f) P :=
  (hx.bind hf).congr ⟨And.left, fun h => ⟨h, trivial⟩⟩

/-- Items in turn are accepted if each of them is. -/
theorem sequence {ι : Type} {items : List ι} (each : List ι → EStateM Fault σ Unit) {f : ι → EStateM Fault σ Unit}
    {P : ι → Prop} (hnil : each [] = Pure.pure ()) (hcons : ∀ i rest, each (i :: rest) = f i >>= fun _ => each rest)
    (hf : ∀ i ∈ items, Settles g rise (f i) (P i)) : Settles g rise (each items) (∀ i ∈ items, P i) := by
  induction items with
  | nil =>
    rw [hnil]
    exact (pure ()).congr (by simp)
  | cons i items ih =>
    have hrest := ih fun j hj => hf j (List.mem_cons_of_mem _ hj)
    rw [hcons]
    exact ((hf i List.mem_cons_self).bind fun _ => hrest).congr List.forall_mem_cons.symm

end Settles
end

/-! ### Writers -/

/-- A writer can be written to at any level that is not negative, if its blocks have brackets. -/
def Writer.gauge : Gauge Writer :=
  ⟨Writer.level, fun w => 0 ≤ w.level ∧ ∃ b, w.brackets = some b⟩

namespace Writing

variable {α : Type} {rise : Int} {P : Prop}

theorem settles_write (piece : String) : Settles Writer.gauge rise (write piece) True :=
  .of_modify fun w hw => by simpa [Writer.gauge] using hw

theorem settles_line (piece : String) : Settles Writer.gauge rise (line piece) True :=
  .of_modify fun w hw => by simpa [Writer.gauge, Writer.putLine] using hw

theorem settles_check {e : Except Fault α} {f : α → Writing Unit} {P : α → Prop}
    (h : ∀ a, e = .ok a → Settles Writer.gauge 0 (f a) (P a)) :
    Settles Writer.gauge 0 (check e >>= f) (∃ a, e = .ok a ∧ P a) := by
  cases e with
  | error fault => exact (Settles.throw fault).congr (by simp)
  | ok a => exact (h a rfl).congr (by simp)

theorem settles_each {ι : Type} {items : List ι} {f : ι → Writing Unit} {P : ι → Prop}
    (h : ∀ i ∈ items, Settles Writer.gauge rise (f i) (P i)) :
    Settles Writer.gauge rise (each items f) (∀ i ∈ items, P i) :=
  .sequence (each · f) rfl (fun _ _ => rfl) h

/-- A failure in a block leaves the level above that of the block. -/
theorem settles_block {body : Writing Unit} (h : Settles Writer.gauge 0 body P) (suffix : String) :
    Settles Writer.gauge 1 (block body suffix) P := by
  intro w hw
  obtain ⟨hlevel, b, hb⟩ := hw
  have hbody := h ((w.putLine b.opening).atLevel (w.level + 1))
    ⟨by show 0 ≤ w.level + 1; omega, b, by simp [Writer.atLevel, Writer.putLine, hb]⟩
  rw [block, bind_ok (openBlock_eq hb)]
  show Ends _ _ _ _ (EStateM.bind body _ _)
  unfold EStateM.bind
  generalize body ((w.putLine b.opening).atLevel (w.level + 1)) = r at hbody ⊢
  cases hbody with
  | error hP ht hl =>
    -- The block is never closed, so that the level it was opened at stays.
    exact .error hP ht (by rw [Int.add_zero] at hl; exact hl)
  | @ok _ t hP ht hl =>
    obtain ⟨htlevel, c, hc⟩ := ht
    have htlevel' : t.level - 1 = w.level := by
      have hl : t.level = w.level + 1 := hl
      omega
    show Ends _ _ _ _ (closeBlock suffix t)
    rw [closeBlock_eq hc, htlevel']
    refine .ok hP ⟨?_, c, by simp [Writer.putLine, Writer.atLevel, hc]⟩ (by simp [Writer.gauge, Writer.putLine, Writer.atLevel])
    simpa [Writer.putLine, Writer.atLevel] using hlevel

/-- What is written one level deeper comes back from there. -/
theorem settles_deeper {x : Writing Unit} (h : Settles Writer.gauge 0 x P) :
    Settles Writer.gauge 0 (indent >>= fun _ => x >>= fun _ => unindent) P := by
  intro w hw
  obtain ⟨hlevel, b, hb⟩ := hw
  have hx := h (w.atLevel (w.level + 1)) ⟨by show 0 ≤ w.level + 1; omega, b, hb⟩
  show Ends _ _ _ _ (EStateM.bind x _ (w.atLevel (w.level + 1)))
  unfold EStateM.bind
  generalize x (w.atLevel (w.level + 1)) = r at hx ⊢
  cases hx with
  | error hP ht hl => exact .error hP ht (Int.le_trans (by show w.level + 0 ≤ w.level + 1 + 0; omega) hl)
  | @ok _ t hP ht hl =>
    have hl : t.level = w.level + 1 := hl
    have hunindent : unindent t = .ok () (t.atLevel w.level) := by
      have hdown : t.level - 1 = w.level := by omega
      rw [unindent, bind_ok (show level t = .ok t.level t from rfl), if_neg (by omega), ← hdown]
      rfl
    show Ends _ _ _ _ (unindent t)
    rw [hunindent]
    exact .ok hP ⟨hlevel, ht.2⟩ rfl

theorem settles_before {style : Style} (hstyle : style = .knr ∨ style = .bsd) (head : String) :
    Settles Writer.gauge rise (style.before head) True := by
  rcases hstyle with rfl | rfl
  · exact settles_write (head ++ " ")
  · exact settles_line head

theorem result_eq {w : Writer} (h : w.level = 0) : result w = .ok w.text w := by
  simp only [result, bind, EStateM.bind, get, getThe, MonadStateOf.get, EStateM.get, h, if_true]
  rfl

theorem result_refused {w : Writer} (h : w.level ≠ 0) : result w = .error (.resultAtLevel w.level) w := by
  simp only [result, bind, EStateM.bind, get, getThe, MonadStateOf.get, EStateM.get, if_neg h]
  rfl

end Writing

/-! ### Macro calls -/

namespace Macro

open Writing

mutual

/-- All values in the call have `P`, and the names of all calls have `Q`. -/
def Every (P : Value → Prop) (Q : String → Prop) : Macro → Prop
  | .value v => P v
  | .call name arguments => Q name ∧ AllEvery P Q arguments

def AllEvery (P : Value → Prop) (Q : String → Prop) : List Macro → Prop
  | [] => True
  | argument :: rest => argument.Every P Q ∧ AllEvery P Q rest

end

section
variable {P : Value → Prop} {Q : String → Prop}

theorem allEvery_iff {arguments : List Macro} : AllEvery P Q arguments ↔ ∀ m ∈ arguments, m.Every P Q := by
  induction arguments with
  | nil => simp [AllEvery]
  | cons argument rest ih => simp [AllEvery, ih]

@[simp] theorem every_text {text : String} : (Macro.text text).Every P Q ↔ P (.text text) := by
  rw [Macro.text, Every]

@[simp] theorem every_call {name : String} {arguments : List Macro} :
    (Macro.call name arguments).Every P Q ↔ Q name ∧ ∀ m ∈ arguments, m.Every P Q := by
  rw [Every, allEvery_iff]

end

/-- Every value in the call can be written. -/
def Legible (m : Macro) : Prop :=
  m.Every (fun v => v.holdsLongInteger = false) fun _ => True

@[simp] theorem legible_text (text : String) : (Macro.text text).Legible := rfl

@[simp] theorem legible_call {name : String} {arguments : List Macro} :
    (Macro.call name arguments).Legible ↔ ∀ m ∈ arguments, m.Legible := by
  simp [Legible]

theorem settles_value (v : Value) : Settles Writer.gauge 0 (Macro.value v).write (v.holdsLongInteger = false) := by
  have hstart : Settles Writer.gauge 0 (modify Writer.start : Writing Unit) True := .of_modify fun w hw => by
    unfold Writer.start
    split
    · exact ⟨hw, rfl⟩
    · exact ⟨hw, rfl⟩
  have htext : Settles Writer.gauge 0 (writeEach [v]) (∃ text, v.text? = .ok text ∧ True) :=
    settles_check fun text _ => (settles_write text).after fun _ => .pure ()
  refine (hstart.after fun _ => htext).congr ?_
  unfold Value.text?
  cases v.holdsLongInteger <;> simp

/-- A call comes back to the level of its name, whatever the level of its arguments. -/
theorem settles_call {arguments : List Macro} {P : Prop} (h : Settles Writer.gauge 0 (writeArguments true arguments) P)
    (name : String) : Settles Writer.gauge 0 (Macro.call name arguments).write P := by
  intro w hw
  obtain ⟨hlevel, b, hb⟩ := hw
  have hrest := h.before fun _ => settles_write ")"
  have hinner := hrest ((w.putLine (name ++ "(")).atLevel ((w.putLine (name ++ "(")).level + 1))
    ⟨by show 0 ≤ (w.putLine _).level + 1; simp [Writer.putLine]; omega, b, by simp [Writer.atLevel, Writer.putLine, hb]⟩
  have hwrite : (Macro.call name arguments).write w =
      ((writeArguments true arguments >>= fun _ => Writing.write ")") >>= fun _ => setLevel (.int w.level))
        ((w.putLine (name ++ "(")).atLevel ((w.putLine (name ++ "(")).level + 1)) := by
    simp only [Macro.write, bind_assoc]
    rfl
  have hline : (w.putLine (name ++ "(")).level = w.level := by simp [Writer.putLine]
  rw [hwrite]
  show Ends _ _ _ _ (EStateM.bind _ _ _)
  unfold EStateM.bind
  generalize (writeArguments true arguments >>= fun _ => Writing.write ")") _ = r at hinner ⊢
  cases hinner with
  | error hP ht hl =>
    refine .error hP ht (Int.le_trans ?_ hl)
    show w.level + 0 ≤ (w.putLine (name ++ "(")).level + 1 + 0
    omega
  | @ok _ t hP ht hl =>
    have hset : setLevel (.int w.level) t = .ok () (t.atLevel w.level) := by
      rw [setLevel, if_pos hlevel]
      rfl
    show Ends _ _ _ _ (setLevel (.int w.level) t)
    rw [hset]
    exact .ok hP ⟨hlevel, ht.2⟩ rfl

mutual

theorem settles_written : ∀ m : Macro, Settles Writer.gauge 0 m.write m.Legible
  | .value v => settles_value v
  | .call name arguments => (settles_call (settles_arguments true arguments) name).congr legible_call.symm

theorem settles_arguments (first : Bool) : ∀ arguments : List Macro,
    Settles Writer.gauge 0 (writeArguments first arguments) (∀ m ∈ arguments, m.Legible)
  | [] => (Settles.pure ()).congr (by simp)
  | argument :: rest => by
    have hboth := ((settles_written argument).bind fun _ => settles_arguments false rest).congr List.forall_mem_cons.symm
    cases first with
    | true => exact hboth
    | false => exact (settles_line ",").after fun _ => hboth

end

theorem settles_statement (m : Macro) : Settles Writer.gauge 0 m.writeStatement m.Legible :=
  (settles_written m).before fun _ => settles_line ";"

end Macro

/-! ### Two texts at once -/

namespace Emit

/-- Only the code has blocks. The header stays at its first level. -/
def Sources.gauge : Gauge Sources :=
  ⟨fun t => t.code.level, fun t => t.header.level = 0 ∧ Writer.gauge.Sound t.code⟩

namespace Sourcing

variable {rise : Int} {P : Prop}

theorem settles_inCode {α : Type} {x : Writing α} (h : Settles Writer.gauge rise x P) :
    Settles Sources.gauge rise (inCode x) P := by
  intro t ht
  have hx := h t.code ht.2
  unfold inCode
  generalize x t.code = r at hx ⊢
  cases hx with
  | ok hP hc hl => exact .ok hP ⟨ht.1, hc⟩ hl
  | error hP hc hl => exact .error hP ⟨ht.1, hc⟩ hl

theorem settles_inHeader_line (piece : String) : Settles Sources.gauge rise (inHeader (Writing.line piece)) True :=
  fun t ht => .ok trivial ⟨by simpa [Writer.putLine] using ht.1, ht.2⟩ rfl

theorem settles_each {ι : Type} {items : List ι} {f : ι → Sourcing Unit} {P : ι → Prop}
    (h : ∀ i ∈ items, Settles Sources.gauge rise (f i) (P i)) :
    Settles Sources.gauge rise (each items f) (∀ i ∈ items, P i) :=
  .sequence (each · f) rfl (fun _ _ => rfl) h

end Sourcing

/-! ### Classes -/

namespace Dataclasses

def State.gauge : Gauge State :=
  ⟨fun s => s.writer.level, fun s => Writer.gauge.Sound s.writer⟩

variable {rise : Int} {P : Prop}

theorem settles_writing {α : Type} {f : List String → Writing α} (h : ∀ written, Settles Writer.gauge rise (f written) P) :
    Settles State.gauge rise (writing f) P := by
  intro s hs
  have hf := h s.written s.writer hs
  unfold writing
  generalize f s.written s.writer = r at hf ⊢
  cases hf with
  | ok hP ht hl => exact .ok hP ht hl
  | error hP ht hl => exact .error hP ht hl

theorem settles_complete (name : String) : Settles State.gauge rise (complete name) True :=
  .of_modify fun _ hs => ⟨hs, rfl⟩

end Dataclasses

end Emit

end CodeBridge
