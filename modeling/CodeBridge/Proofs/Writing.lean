import CodeBridge.Emit.Sources
import CodeBridge.Emit.Style
import CodeBridge.Proofs.Characters

/-! # What a writing writes

A writing that starts at the beginning of a line and ends its last line adds whole lines to the text, or ends
in a fault. `Yields` says which lines, or which fault; the level of the writer only moves the lines to the
right. What is written one after the other yields the lines one after the other. -/

namespace CodeBridge

/-- Lines as one text, each ended by a line feed. -/
def linesText : List String → String
  | [] => ""
  | l :: ls => l ++ "\n" ++ linesText ls

theorem linesText_append (a b : List String) : linesText (a ++ b) = linesText a ++ linesText b := by
  induction a with
  | nil => simp [linesText]
  | cons l a ih => simp [linesText, ih, String.append_assoc]

theorem toList_linesText (ls : List String) : (linesText ls).toList = Text.unlines (ls.map String.toList) := by
  induction ls with
  | nil => rfl
  | cons l ls ih => simp [linesText, ih]

/-- A line one level deeper. -/
def indented (l : String) : String :=
  "    " ++ l

namespace Writer

/-- A writer at the start of a line, at a level that can be, whose blocks stand in braces. -/
structure Ready (w : Writer) : Prop where
  lineStart : w.atLineStart = true
  level : 0 ≤ w.level
  brackets : w.brackets = some ⟨"\x7b", "\x7d"⟩

/-- A writer at the start of a line, at a level that can be, whose blocks stand in these brackets. -/
structure ReadyFor (b : Brackets) (w : Writer) : Prop where
  lineStart : w.atLineStart = true
  level : 0 ≤ w.level
  brackets : w.brackets = some b

theorem ready_iff {w : Writer} : w.Ready ↔ w.ReadyFor ⟨"\x7b", "\x7d"⟩ :=
  ⟨fun h => ⟨h.lineStart, h.level, h.brackets⟩, fun h => ⟨h.lineStart, h.level, h.brackets⟩⟩

theorem braced_ready : braced.Ready := ⟨rfl, by decide, rfl⟩

/-- The writer after whole lines at its level. -/
def addLines (w : Writer) (ls : List String) : Writer :=
  ⟨w.brackets, w.text ++ linesText (ls.map (blanks w.level ++ ·)), w.level, true⟩

variable {b : Brackets} {w : Writer}

theorem ReadyFor.addLines (h : w.ReadyFor b) (ls : List String) : (w.addLines ls).ReadyFor b :=
  ⟨rfl, h.level, h.brackets⟩

theorem ReadyFor.atLevel_succ (h : w.ReadyFor b) : (w.atLevel (w.level + 1)).ReadyFor b :=
  ⟨h.lineStart, by have := h.level; show 0 ≤ w.level + 1; omega, h.brackets⟩

theorem Ready.addLines (h : w.Ready) (ls : List String) : (w.addLines ls).Ready :=
  ready_iff.mpr ((ready_iff.mp h).addLines ls)

theorem Ready.atLevel_succ (h : w.Ready) : (w.atLevel (w.level + 1)).Ready :=
  ready_iff.mpr (ready_iff.mp h).atLevel_succ

theorem addLines_nil (h : w.atLineStart = true) : w.addLines [] = w := by
  obtain ⟨brackets, text, level, atLineStart⟩ := w
  obtain rfl : atLineStart = true := h
  simp [Writer.addLines, linesText]

theorem addLines_addLines (w : Writer) (a b : List String) : (w.addLines a).addLines b = w.addLines (a ++ b) := by
  simp [Writer.addLines, linesText_append, String.append_assoc]

theorem blanks_succ {n : Int} (h : 0 ≤ n) : blanks (n + 1) = blanks n ++ "    " := by
  have hn : 4 * (n + 1).toNat = 4 * n.toNat + 4 := by omega
  have hr : List.replicate (4 * n.toNat + 4) ' ' = List.replicate (4 * n.toNat) ' ' ++ "    ".toList :=
    List.replicate_append_replicate.symm
  rw [blanks, blanks, hn, hr, String.ofList_append, String.ofList_toList]

theorem addLines_atLevel_succ (h : 0 ≤ w.level) (ls : List String) :
    ((w.atLevel (w.level + 1)).addLines ls).atLevel w.level = w.addLines (ls.map indented) := by
  simp [Writer.addLines, atLevel, indented, blanks_succ h, Function.comp_def, String.append_assoc]

/-! ### Pieces of a line -/

theorem putLine_eq (h : w.atLineStart = true) (piece : String) : w.putLine piece = w.addLines [piece] := by
  simp [putLine, put, start, h, Writer.addLines, linesText, String.append_assoc]

theorem start_put (w : Writer) (piece : String) : w.start.put piece = w.put piece := by
  cases h : w.atLineStart <;> simp [put, start, h]

theorem put_put (w : Writer) (a b : String) : (w.put a).put b = w.put (a ++ b) := by
  simp [put, start, String.append_assoc]

theorem put_putLine (w : Writer) (a b : String) : (w.put a).putLine b = w.putLine (a ++ b) := by
  simp only [putLine, put_put]

@[simp] theorem put_brackets (w : Writer) (piece : String) : (w.put piece).brackets = w.brackets := by
  simp only [put, start]
  split <;> rfl

@[simp] theorem put_level (w : Writer) (piece : String) : (w.put piece).level = w.level := by
  simp only [put, start]
  split <;> rfl

end Writer

/-! ### Parts of what succeeds -/

section
variable {ε σ α β : Type}

theorem exists_of_bind_eq_ok {x : Except ε α} {f : α → Except ε β} {b : β} (h : x >>= f = .ok b) :
    ∃ a, x = .ok a ∧ f a = .ok b := by
  cases x with
  | error fault => cases h
  | ok a => exact ⟨a, rfl, h⟩

theorem mapM_cons_eq_ok {f : α → Except ε β} {a : α} {as : List α} {b : β} {bs : List β} (ha : f a = .ok b)
    (has : as.mapM f = .ok bs) : (a :: as).mapM f = .ok (b :: bs) := by
  rw [List.mapM_cons, ha, has]
  rfl

theorem forall₂_of_mapM_eq_ok {f : α → Except ε β} {as : List α} {bs : List β} (h : as.mapM f = .ok bs) :
    List.Forall₂ (fun a b => f a = .ok b) as bs := by
  induction as generalizing bs with
  | nil =>
    cases h
    exact .nil
  | cons a as ih =>
    rw [List.mapM_cons] at h
    obtain ⟨b, hb, h⟩ := exists_of_bind_eq_ok h
    obtain ⟨bs', hbs', h⟩ := exists_of_bind_eq_ok h
    cases h
    exact .cons hb (ih hbs')

theorem forall₂_of_mapM_of_forall {f : α → Except ε β} {as : List α} {bs : List β} (h : as.mapM f = .ok bs)
    {R : α → β → Prop} (hR : ∀ a ∈ as, ∀ b, f a = .ok b → R a b) : List.Forall₂ R as bs := by
  have hboth := (List.forall₂_and_left _ _).mpr ⟨hR, forall₂_of_mapM_eq_ok h⟩
  exact hboth.imp fun a b ⟨hall, hb⟩ => hall b hb

theorem of_mapM_append_cons_eq_ok {f : α → Except ε β} {before after : List α} {a : α} {bs : List β}
    (h : (before ++ a :: after).mapM f = .ok bs) :
    ∃ xs b ys, before.mapM f = .ok xs ∧ f a = .ok b ∧ bs = xs ++ b :: ys := by
  rw [List.mapM_append] at h
  obtain ⟨xs, hxs, h⟩ := exists_of_bind_eq_ok h
  obtain ⟨rest, hrest, h⟩ := exists_of_bind_eq_ok h
  rw [List.mapM_cons] at hrest
  obtain ⟨b, hb, hrest⟩ := exists_of_bind_eq_ok hrest
  obtain ⟨ys, -, hrest⟩ := exists_of_bind_eq_ok hrest
  cases hrest
  cases h
  exact ⟨xs, b, ys, hxs, hb, rfl⟩

theorem exists_result_of_mem {f : α → Except ε β} {as : List α} {bs : List β} (h : as.mapM f = .ok bs) {a : α}
    (ha : a ∈ as) : ∃ b ∈ bs, f a = .ok b := by
  obtain ⟨before, after, rfl⟩ := List.append_of_mem ha
  obtain ⟨xs, b, ys, -, hb, rfl⟩ := of_mapM_append_cons_eq_ok h
  exact ⟨b, by simp, hb⟩

theorem exists_source_of_mem {f : α → Except ε β} {as : List α} {bs : List β} (h : as.mapM f = .ok bs) {b : β}
    (hb : b ∈ bs) : ∃ a ∈ as, f a = .ok b := by
  have hall := forall₂_of_mapM_eq_ok h
  clear h
  induction hall with
  | nil => cases hb
  | cons ha _ ih =>
    rcases List.mem_cons.mp hb with rfl | hb
    · exact ⟨_, List.mem_cons_self, ha⟩
    · obtain ⟨a, ha, h⟩ := ih hb
      exact ⟨a, List.mem_cons_of_mem _ ha, h⟩

theorem mem_flatten_of_mapM_eq_ok {f : α → Except ε (List β)} {as : List α} {bss : List (List β)}
    (h : as.mapM f = .ok bss) {b : β} : b ∈ bss.flatten ↔ ∃ a ∈ as, ∃ bs, f a = .ok bs ∧ b ∈ bs := by
  rw [List.mem_flatten]
  constructor
  · rintro ⟨bs, hbs, hb⟩
    obtain ⟨a, ha, hfa⟩ := exists_source_of_mem h hbs
    exact ⟨a, ha, bs, hfa, hb⟩
  · rintro ⟨a, ha, bs, hfa, hb⟩
    obtain ⟨bs', hbs', hfa'⟩ := exists_result_of_mem h ha
    cases hfa.symm.trans hfa'
    exact ⟨bs, hbs', hb⟩

theorem map_flatten_of_mapM_eq_ok {γ : Type} {f : α → Except ε (List β)} {as : List α} {bss : List (List β)}
    (h : as.mapM f = .ok bss) {g : β → γ} {k : α → List γ} (hk : ∀ a bs, f a = .ok bs → bs.map g = k a) :
    bss.flatten.map g = as.flatMap k := by
  have hall := forall₂_of_mapM_eq_ok h
  clear h
  induction hall with
  | nil => rfl
  | cons hbs _ ih => rw [List.flatten_cons, List.map_append, List.flatMap_cons, hk _ _ hbs, ih]

theorem bind_ok {x : EStateM ε σ α} {a : α} {s s' : σ} (h : x s = .ok a s') (f : α → EStateM ε σ β) :
    (x >>= f) s = f a s' := by
  show EStateM.bind x f s = _
  simp [EStateM.bind, h]

theorem bind_error {x : EStateM ε σ α} {e : ε} {s s' : σ} (h : x s = .error e s') (f : α → EStateM ε σ β) :
    (x >>= f) s = .error e s' := by
  show EStateM.bind x f s = _
  simp [EStateM.bind, h]

theorem exists_of_bind_run_eq_ok {x : EStateM ε σ α} {f : α → EStateM ε σ β} {b : β} {s s' : σ}
    (h : (x >>= f) s = .ok b s') : ∃ a t, x s = .ok a t ∧ f a t = .ok b s' := by
  change EStateM.bind x f s = _ at h
  cases hx : x s with
  | error fault t =>
    simp only [EStateM.bind, hx] at h
    cases h
  | ok a t =>
    simp only [EStateM.bind, hx] at h
    exact ⟨a, t, rfl, h⟩

/-- The state that an action leaves, whether it succeeds or fails. -/
def reached (x : EStateM ε σ α) (s : σ) : σ :=
  match x s with
  | .ok _ t => t
  | .error _ t => t

section
variable {x : EStateM ε σ α} {f : α → EStateM ε σ β} {s t : σ}

theorem reached_of_ok {a : α} (h : x s = .ok a t) : reached x s = t := by
  rw [reached, h]

theorem reached_of_error {e : ε} (h : x s = .error e t) : reached x s = t := by
  rw [reached, h]

theorem reached_bind_of_ok {a : α} (h : x s = .ok a t) : reached (x >>= f) s = reached (f a) t := by
  rw [reached, bind_ok h, reached]

theorem reached_bind_of_error {e : ε} (h : x s = .error e t) : reached (x >>= f) s = t :=
  reached_of_error (bind_error h f)

end

end

/-! ### Lines that are written -/

namespace Writing

variable {α : Type} {b : Brackets} {w w' : Writer}

/-- `x` adds these lines to every writer that is ready, or ends in this fault. -/
def Yields (x : Writing Unit) : Except Fault (List String) → Prop
  | .ok ls => ∀ w : Writer, w.Ready → x w = .ok () (w.addLines ls)
  | .error fault => ∀ w : Writer, w.Ready → ∃ w', x w = .error fault w'

/-- The same for writers whose blocks stand in the brackets `b`. -/
def YieldsFor (b : Brackets) (x : Writing Unit) : Except Fault (List String) → Prop
  | .ok ls => ∀ w : Writer, w.ReadyFor b → x w = .ok () (w.addLines ls)
  | .error fault => ∀ w : Writer, w.ReadyFor b → ∃ w', x w = .error fault w'

theorem yields_iff {x : Writing Unit} {r : Except Fault (List String)} :
    Yields x r ↔ YieldsFor ⟨"\x7b", "\x7d"⟩ x r := by
  cases r with
  | error fault => exact forall_congr' fun _ => imp_congr_left Writer.ready_iff
  | ok ls => exact forall_congr' fun _ => imp_congr_left Writer.ready_iff

namespace YieldsFor

theorem of_ok {x : Writing Unit} {r : Except Fault (List String)} (h : YieldsFor b x r) (hw : w.ReadyFor b)
    (hx : x w = .ok () w') : ∃ ls, r = .ok ls ∧ w' = w.addLines ls := by
  cases r with
  | error fault =>
    obtain ⟨v, hv⟩ := h w hw
    cases hx.symm.trans hv
  | ok ls =>
    cases hx.symm.trans (h w hw)
    exact ⟨ls, rfl, rfl⟩

theorem pure : YieldsFor b (Pure.pure ()) (.ok []) := fun w hw => by
  rw [Writer.addLines_nil hw.lineStart]
  rfl

theorem line (piece : String) : YieldsFor b (line piece) (.ok [piece]) := fun w hw => by
  rw [← Writer.putLine_eq hw.lineStart]
  rfl

theorem bind {x y : Writing Unit} {r s : Except Fault (List String)} (hx : YieldsFor b x r) (hy : YieldsFor b y s) :
    YieldsFor b (x >>= fun _ => y) (do return (← r) ++ (← s)) := by
  cases r with
  | error fault =>
    intro w hw
    obtain ⟨w', h⟩ := hx w hw
    exact ⟨w', bind_error h _⟩
  | ok a =>
    cases s with
    | error fault =>
      intro w hw
      obtain ⟨w', h⟩ := hy (w.addLines a) (hw.addLines a)
      exact ⟨w', by rw [bind_ok (hx w hw), h]⟩
    | ok b =>
      intro w hw
      rw [bind_ok (hx w hw), hy _ (hw.addLines a), Writer.addLines_addLines]

theorem check {e : Except Fault α} {f : α → Writing Unit} {g : α → Except Fault (List String)}
    (h : ∀ a, e = .ok a → YieldsFor b (f a) (g a)) : YieldsFor b (check e >>= f) (e >>= g) := by
  cases e with
  | error fault => exact fun w _ => ⟨w, rfl⟩
  | ok a => exact h a rfl

/-- Items written in turn yield their lines in turn. -/
theorem each {items : List α} {f : α → Writing Unit} {g : α → Except Fault (List String)}
    (h : ∀ a ∈ items, YieldsFor b (f a) (g a)) :
    YieldsFor b (each items f) (do return (← items.mapM g).flatten) := by
  induction items with
  | nil => exact .pure
  | cons a items ih =>
    have hrest := ih fun b hb => h b (List.mem_cons_of_mem _ hb)
    have hboth := (h a List.mem_cons_self).bind hrest
    cases ha : g a with
    | error fault => simpa [Writing.each, List.mapM_cons, ha] using hboth
    | ok ls =>
      cases hm : items.mapM g with
      | error fault => simpa [Writing.each, List.mapM_cons, ha, hm] using hboth
      | ok rest => simpa [Writing.each, List.mapM_cons, ha, hm] using hboth

theorem each_ok {items : List α} {f : α → Writing Unit} {g : α → List String} (h : ∀ a, YieldsFor b (f a) (.ok (g a))) :
    YieldsFor b (Writing.each items f) (.ok (items.flatMap g)) := by
  have hall := each (g := fun a => .ok (g a)) fun a (_ : a ∈ items) => h a
  rw [show items.mapM (fun a => (.ok (g a) : Except Fault _)) = .ok (items.map g) from List.mapM_pure ..] at hall
  rw [List.flatMap_def]
  exact hall

end YieldsFor

theorem Yields.of_ok {x : Writing Unit} {r : Except Fault (List String)} (h : Yields x r) (hw : w.Ready)
    (hx : x w = .ok () w') : ∃ ls, r = .ok ls ∧ w' = w.addLines ls :=
  (yields_iff.mp h).of_ok (Writer.ready_iff.mp hw) hx

theorem Yields.pure : Yields (Pure.pure ()) (.ok []) :=
  yields_iff.mpr .pure

theorem Yields.line (piece : String) : Yields (line piece) (.ok [piece]) :=
  yields_iff.mpr (.line piece)

theorem write_line (a b : String) : (write a >>= fun _ => line b) = line (a ++ b) := by
  funext w
  show EStateM.Result.ok () ((w.put a).putLine b) = EStateM.Result.ok () (w.putLine (a ++ b))
  rw [Writer.put_putLine]

theorem Yields.bind {x y : Writing Unit} {r s : Except Fault (List String)} (hx : Yields x r) (hy : Yields y s) :
    Yields (x >>= fun _ => y) (do return (← r) ++ (← s)) :=
  yields_iff.mpr ((yields_iff.mp hx).bind (yields_iff.mp hy))

theorem Yields.check {e : Except Fault α} {f : α → Writing Unit} {g : α → Except Fault (List String)}
    (h : ∀ a, e = .ok a → Yields (f a) (g a)) : Yields (check e >>= f) (e >>= g) :=
  yields_iff.mpr (.check fun a ha => yields_iff.mp (h a ha))

theorem Yields.each {items : List α} {f : α → Writing Unit} {g : α → Except Fault (List String)}
    (h : ∀ a ∈ items, Yields (f a) (g a)) : Yields (each items f) (do return (← items.mapM g).flatten) :=
  yields_iff.mpr (.each fun a ha => yields_iff.mp (h a ha))

/-! ### Blocks -/

theorem openBlock_eq {b : Brackets} (hb : w.brackets = some b) :
    openBlock w = .ok () ((w.putLine b.opening).atLevel (w.level + 1)) := by
  have hl : (w.putLine b.opening).level = w.level := by simp [Writer.putLine]
  simp only [openBlock, brackets, bind, EStateM.bind, get, getThe, MonadStateOf.get, EStateM.get, hb, pure, EStateM.pure,
    line, indent, modify, modifyGet, MonadStateOf.modifyGet, EStateM.modifyGet, hl]

theorem closeBlockWith_eq {b : Brackets} (hb : w.brackets = some b) (suffix : Value) :
    closeBlockWith suffix w = lineValues [.text b.closing, suffix] (w.atLevel (w.level - 1)) := by
  simp only [closeBlockWith, brackets, bind, EStateM.bind, get, getThe, MonadStateOf.get, EStateM.get, hb, pure, EStateM.pure,
    modify, modifyGet, MonadStateOf.modifyGet, EStateM.modifyGet]

theorem closeBlock_eq {b : Brackets} (hb : w.brackets = some b) (suffix : String) :
    closeBlock suffix w = .ok () ((w.atLevel (w.level - 1)).putLine (b.closing ++ suffix)) := by
  rw [closeBlock, closeBlockWith_eq hb]
  show EStateM.Result.ok () ((((w.atLevel (w.level - 1)).start.put b.closing).put suffix).putLine "") = _
  rw [Writer.start_put, Writer.put_put, Writer.put_putLine, String.append_empty]

theorem openBlock_refused (hb : w.brackets = none) :
    openBlock w = .error (.lacks Kind.writer.label "_opening_bracket") w := by
  simp only [openBlock, brackets, bind, EStateM.bind, get, getThe, MonadStateOf.get, EStateM.get, hb]
  rfl

theorem closeBlock_refused (hb : w.brackets = none) (suffix : String) :
    closeBlock suffix w = .error (.lacks Kind.writer.label "_opening_bracket") w := by
  simp only [closeBlock, closeBlockWith, brackets, bind, EStateM.bind, get, getThe, MonadStateOf.get, EStateM.get, hb]
  rfl

/-- `head` ends in the midst of a line such that the bracket that opens a block completes the lines `start`. -/
def OpensFor (b : Brackets) (head : Writing Unit) (start : List String) : Prop :=
  ∀ w : Writer, w.ReadyFor b → ∃ v : Writer, head w = .ok () v ∧ v.brackets = w.brackets ∧ v.level = w.level ∧
    v.putLine b.opening = w.addLines start

/-- `head` ends in the midst of a line such that the brace that opens a block completes the lines `start`. -/
def Opens (head : Writing Unit) (start : List String) : Prop :=
  ∀ w : Writer, w.Ready → ∃ v : Writer, head w = .ok () v ∧ v.brackets = w.brackets ∧ v.level = w.level ∧
    v.putLine "\x7b" = w.addLines start

theorem opens_iff {head : Writing Unit} {start : List String} :
    Opens head start ↔ OpensFor ⟨"\x7b", "\x7d"⟩ head start :=
  forall_congr' fun _ => imp_congr_left Writer.ready_iff

theorem OpensFor.openBlock {head : Writing Unit} {start : List String} (h : OpensFor b head start) (hw : w.ReadyFor b) :
    ∃ v, head w = .ok () v ∧
      openBlock v = .ok () ((w.addLines start).atLevel ((w.addLines start).level + 1)) := by
  obtain ⟨v, hhead, hb, hl, hopen⟩ := h w hw
  refine ⟨v, hhead, ?_⟩
  rw [openBlock_eq (hb.trans hw.brackets), hopen, hl]
  rfl

/-- A head stands alone on its line if no bracket comes behind it. -/
theorem opensFor_write (head closing : String) : OpensFor ⟨"", closing⟩ (write head) [head] := by
  intro w hw
  refine ⟨w.put head, rfl, Writer.put_brackets w _, Writer.put_level w _, ?_⟩
  rw [Writer.put_putLine, Writer.putLine_eq hw.lineStart, String.append_empty]

/-- A block behind its head stands between the lines that open it and the line that closes it. -/
theorem YieldsFor.block {head body : Writing Unit} {start : List String} {r : Except Fault (List String)}
    (hhead : OpensFor b head start) (hbody : YieldsFor b body r) (suffix : String) :
    YieldsFor b (head >>= fun _ => block body suffix)
      (do return start ++ (← r).map indented ++ [b.closing ++ suffix]) := by
  cases r with
  | error fault =>
    intro w hw
    obtain ⟨v, hv, hopened⟩ := hhead.openBlock hw
    obtain ⟨w', h⟩ := hbody _ (hw.addLines start).atLevel_succ
    refine ⟨w', ?_⟩
    rw [bind_ok hv, Writing.block, bind_ok hopened]
    exact bind_error h _
  | ok ls =>
    intro w hw
    obtain ⟨v, hv, hopened⟩ := hhead.openBlock hw
    have hready := (hw.addLines start).atLevel_succ
    rw [bind_ok hv, Writing.block, bind_ok hopened, bind_ok (hbody _ hready),
      closeBlock_eq (hready.addLines ls).brackets]
    have hclosed := Writer.addLines_atLevel_succ (hw.addLines start).level ls
    rw [show ((((w.addLines start).atLevel ((w.addLines start).level + 1)).addLines ls).level - 1) =
      (w.addLines start).level from Int.add_sub_cancel _ _, hclosed, Writer.addLines_addLines,
      Writer.putLine_eq (hw.addLines _).lineStart, Writer.addLines_addLines]

theorem Yields.block {head body : Writing Unit} {start : List String} {r : Except Fault (List String)}
    (hhead : Opens head start) (hbody : Yields body r) (suffix : String) :
    Yields (head >>= fun _ => block body suffix)
      (do return start ++ (← r).map indented ++ ["\x7d" ++ suffix]) :=
  yields_iff.mpr (.block (opens_iff.mp hhead) (yields_iff.mp hbody) suffix)

end Writing

namespace Style

/-- The lines that open a definition. -/
def opening (style : Style) (head : String) : Except Fault (List String) :=
  match style with
  | knr => .ok [head ++ " \x7b"]
  | bsd => .ok [head, "\x7b"]
  | unknown given => .error (.unknownStyle given)

theorem opens_before {style : Style} {head : String} {start : List String} (h : style.opening head = .ok start) :
    Writing.Opens (style.before head) start := by
  intro w hw
  cases style with
  | unknown given => cases h
  | knr =>
    cases h
    refine ⟨w.put (head ++ " "), rfl, Writer.put_brackets w _, Writer.put_level w _, ?_⟩
    rw [Writer.put_putLine, Writer.putLine_eq hw.lineStart, String.append_assoc]
    rfl
  | bsd =>
    cases h
    refine ⟨w.addLines [head], Writing.Yields.line head w hw, rfl, rfl, ?_⟩
    rw [Writer.putLine_eq (hw.addLines _).lineStart, Writer.addLines_addLines]
    rfl

theorem before_of_opening_error {style : Style} {head : String} {fault : Fault}
    (h : style.opening head = .error fault) (w : Writer) : style.before head w = .error fault w := by
  cases style with
  | unknown given =>
    cases h
    rfl
  | knr => cases h
  | bsd => cases h

end Style

namespace Emit.Sourcing

/-! ### Two texts at once -/

variable {α : Type} {a : α} {t t' : Sources}

theorem of_check {outcome : Except Fault α} (h : check outcome t = .ok a t') : outcome = .ok a ∧ t' = t := by
  cases outcome with
  | error fault => cases h
  | ok b =>
    cases h
    exact ⟨rfl, rfl⟩

theorem of_inCode {x : Writing α} (h : inCode x t = .ok a t') : x t.code = .ok a t'.code ∧ t'.header = t.header := by
  unfold inCode at h
  split at h
  · next hx =>
    cases h
    exact ⟨hx, rfl⟩
  · cases h

end Emit.Sourcing

end CodeBridge
