import CodeBridge.Proofs.Writing

/-! # Operations on a writer

Programs of operations on a writer: what is written, changes of the level, and blocks around programs, where a
failure may be caught. The level is never checked when a block is closed. So it falls below zero exactly when the
body of a block ends at level 0 or below it and the block is closed, and then by at most one for each block around. -/

namespace CodeBridge

/-- An operation without a body. -/
inductive Step where
  | write (values : List Value)
  | line (values : List Value)
  | indent
  | unindent
  | setLevel (value : Value)

/-- An operation that somebody who has a writer can ask for. What fails in an attempt is caught there. -/
inductive Operation where
  | step (s : Step)
  | block (body : List Operation) (suffix : String)
  | attempt (body : List Operation)

open Writing

def Step.perform : Step → Writing Unit
  | .write values => writeValues values
  | .line values => lineValues values
  | .indent => Writing.indent
  | .unindent => Writing.unindent
  | .setLevel value => Writing.setLevel value

/-- The writer after an action, whether it fails or not. -/
def Writing.after {α : Type} (x : Writing α) (w : Writer) : Writer :=
  match x w with
  | .ok _ v => v
  | .error _ v => v

namespace Operation

mutual

def perform : Operation → Writing Unit
  | .step s => s.perform
  | .block body suffix => Writing.block (performAll body) suffix
  | .attempt body => tryCatch (performAll body) fun _ => pure ()

/-- Operations in turn, up to the first that fails. -/
def performAll : List Operation → Writing Unit
  | [] => pure ()
  | op :: rest => do
    op.perform
    performAll rest

end

mutual

/-- The states between the operations in the body of an operation. -/
def passed : Operation → Writer → List Writer
  | .step _, _ => []
  | .block body _, w =>
    match openBlock w with
    | .ok _ v => passedAll body v
    | .error _ _ => []
  | .attempt body, w => passedAll body w

/-- The states before, between and after operations and the operations in their bodies. -/
def passedAll : List Operation → Writer → List Writer
  | [], w => [w]
  | op :: rest, w =>
    w :: (op.passed w ++
      match op.perform w with
      | .ok _ v => passedAll rest v
      | .error _ v => [v])

end

mutual

/-- The states in which the blocks of an operation are closed. -/
def closed : Operation → Writer → List Writer
  | .step _, _ => []
  | .block body _, w =>
    match openBlock w with
    | .ok _ v =>
      closedAll body v ++
        match performAll body v with
        | .ok _ u => [u]
        | .error _ _ => []
    | .error _ _ => []
  | .attempt body, w => closedAll body w

def closedAll : List Operation → Writer → List Writer
  | [], _ => []
  | op :: rest, w =>
    op.closed w ++
      match op.perform w with
      | .ok _ v => closedAll rest v
      | .error _ _ => []

end

mutual

/-- How many blocks stand inside each other. -/
def depth : Operation → Nat
  | .step _ => 0
  | .block body _ => depthAll body + 1
  | .attempt body => depthAll body

def depthAll : List Operation → Nat
  | [] => 0
  | op :: rest => max op.depth (depthAll rest)

end

end Operation

/-! ### One operation -/

namespace Writing

section
variable {α β : Type} {x : Writing α} {f : α → Writing β} {w v : Writer}

theorem after_of_ok {a : α} (h : x w = .ok a v) : after x w = v := by
  rw [after, h]

theorem after_of_error {fault : Fault} (h : x w = .error fault v) : after x w = v := by
  rw [after, h]

theorem after_bind_of_ok {a : α} (h : x w = .ok a v) : after (x >>= f) w = after (f a) v := by
  rw [after, bind_ok h, after]

theorem after_bind_of_error {fault : Fault} (h : x w = .error fault v) : after (x >>= f) w = v :=
  after_of_error (bind_error h f)

/-- What neither changes the level nor the brackets. -/
def Steady (x : Writing α) : Prop :=
  ∀ w, (after x w).level = w.level ∧ (after x w).brackets = w.brackets

theorem Steady.bind (hx : Steady x) (hf : ∀ a, Steady (f a)) : Steady (x >>= f) := by
  intro w
  obtain ⟨hlevel, hbrackets⟩ := hx w
  cases h : x w with
  | error fault v =>
    rw [after_of_error h] at hlevel hbrackets
    rw [after_bind_of_error h]
    exact ⟨hlevel, hbrackets⟩
  | ok a v =>
    rw [after_of_ok h] at hlevel hbrackets
    rw [after_bind_of_ok h, ← hlevel, ← hbrackets]
    exact hf a v

end

theorem steady_check {α : Type} (outcome : Except Fault α) : Steady (check outcome) := by
  cases outcome with
  | error fault => exact fun w => ⟨rfl, rfl⟩
  | ok a => exact fun w => ⟨rfl, rfl⟩

theorem steady_write (piece : String) : Steady (write piece) :=
  fun w => ⟨Writer.put_level w piece, Writer.put_brackets w piece⟩

theorem steady_line (piece : String) : Steady (line piece) :=
  fun w => ⟨Writer.put_level w piece, Writer.put_brackets w piece⟩

theorem steady_writeEach (values : List Value) : Steady (writeEach values) := by
  induction values with
  | nil => exact fun w => ⟨rfl, rfl⟩
  | cons value values ih => exact (steady_check _).bind fun text => (steady_write text).bind fun _ => ih

theorem steady_writeValues (values : List Value) : Steady (writeValues values) := by
  have hstart : Steady (modify (·.start) : Writing Unit) := by
    intro w
    show (w.start).level = w.level ∧ (w.start).brackets = w.brackets
    unfold Writer.start
    split
    · exact ⟨rfl, rfl⟩
    · exact ⟨rfl, rfl⟩
  exact hstart.bind fun _ => steady_writeEach values

/-- A block is not opened without brackets, and else it is opened one level up. -/
theorem openBlock_cases (w : Writer) :
    (∃ fault, openBlock w = .error fault w) ∨
      ∃ b v, w.brackets = some b ∧ openBlock w = .ok () v ∧ v.brackets = some b ∧ v.level = w.level + 1 := by
  cases hb : w.brackets with
  | none => exact .inl ⟨_, openBlock_refused hb⟩
  | some b =>
    refine .inr ⟨b, _, rfl, openBlock_eq hb, ?_, rfl⟩
    rw [← hb]
    exact Writer.put_brackets w b.opening

end Writing

theorem Writing.unindent_eq (w : Writer) :
    unindent w = if w.level < 1 then .error .unindentBelowZero w else .ok () (w.atLevel (w.level - 1)) := by
  simp only [unindent, level, bind, EStateM.bind, get, getThe, MonadStateOf.get, EStateM.get, pure, EStateM.pure]
  split
  · rfl
  · rfl

theorem Writing.setLevel_cases (value : Value) (w : Writer) :
    (∃ n : Int, 0 ≤ n ∧ Writing.setLevel value w = .ok () (w.atLevel n)) ∨
      ∃ fault, Writing.setLevel value w = .error fault w := by
  unfold Writing.setLevel
  split
  · next n =>
    by_cases hn : 0 ≤ n
    · exact .inl ⟨n, hn, by rw [if_pos hn]; rfl⟩
    · exact .inr ⟨_, by rw [if_neg hn]; rfl⟩
  · exact .inr ⟨_, rfl⟩

/-- A step lowers the level at most to zero, and leaves the brackets as they are. -/
theorem Step.perform_spec (s : Step) (w : Writer) :
    min 0 w.level ≤ (after s.perform w).level ∧ (after s.perform w).brackets = w.brackets := by
  cases s with
  | write values =>
    obtain ⟨hlevel, hbrackets⟩ := steady_writeValues values w
    exact ⟨by rw [Step.perform, hlevel]; omega, hbrackets⟩
  | line values =>
    obtain ⟨hlevel, hbrackets⟩ := (steady_writeValues values).bind (fun _ => steady_line "") w
    exact ⟨by rw [Step.perform, lineValues, hlevel]; omega, hbrackets⟩
  | indent =>
    have hlevel : (after Step.indent.perform w).level = w.level + 1 := rfl
    exact ⟨by omega, rfl⟩
  | unindent =>
    rw [Step.perform]
    by_cases h : w.level < 1
    · have hunindent := unindent_eq w
      rw [if_pos h] at hunindent
      rw [after_of_error hunindent]
      exact ⟨by omega, rfl⟩
    · have hunindent := unindent_eq w
      rw [if_neg h] at hunindent
      rw [after_of_ok hunindent]
      have hlevel : (w.atLevel (w.level - 1)).level = w.level - 1 := rfl
      exact ⟨by omega, rfl⟩
  | setLevel value =>
    rw [Step.perform]
    rcases setLevel_cases value w with ⟨n, hn, hset⟩ | ⟨fault, hset⟩
    · rw [after_of_ok hset]
      have hlevel : (w.atLevel n).level = n := rfl
      exact ⟨by omega, rfl⟩
    · rw [after_of_error hset]
      exact ⟨by omega, rfl⟩

namespace Operation

theorem after_attempt (body : List Operation) (w : Writer) :
    after (attempt body).perform w = after (performAll body) w := by
  rw [perform]
  cases h : performAll body w with
  | ok a v => simp only [after, tryCatch, tryCatchThe, MonadExceptOf.tryCatch, EStateM.tryCatch, h]
  | error fault v => simp only [after, tryCatch, tryCatchThe, MonadExceptOf.tryCatch, EStateM.tryCatch, h]; rfl

mutual

theorem perform_brackets (op : Operation) (w : Writer) : (after op.perform w).brackets = w.brackets := by
  cases op with
  | step s => exact (s.perform_spec w).2
  | attempt body =>
    rw [after_attempt]
    exact performAll_brackets body w
  | block body suffix =>
    rw [perform, Writing.block]
    rcases openBlock_cases w with ⟨fault, hopen⟩ | ⟨b, v, hb, hopen, hv, -⟩
    · rw [after_bind_of_error hopen]
    · have hbody := performAll_brackets body v
      rw [after_bind_of_ok hopen]
      cases hrun : performAll body v with
      | error fault u =>
        rw [after_of_error hrun] at hbody
        rw [after_bind_of_error hrun, hbody, hv, hb]
      | ok _ u =>
        rw [after_of_ok hrun] at hbody
        rw [after_bind_of_ok hrun, after_of_ok (closeBlock_eq (hbody.trans hv) suffix), hb, ← hv, ← hbody]
        exact Writer.put_brackets _ (b.closing ++ suffix)

theorem performAll_brackets (ops : List Operation) (w : Writer) : (after (performAll ops) w).brackets = w.brackets := by
  cases ops with
  | nil => rfl
  | cons op rest =>
    have hop := perform_brackets op w
    rw [performAll]
    cases hrun : op.perform w with
    | error fault v =>
      rw [after_of_error hrun] at hop
      rw [after_bind_of_error hrun, hop]
    | ok _ v =>
      rw [after_of_ok hrun] at hop
      rw [after_bind_of_ok hrun, performAll_brackets rest v, hop]

end

/-- What a block does: it is not opened, its body fails, or it is closed one level below the end of its body. -/
theorem block_cases (body : List Operation) (suffix : String) (w : Writer) :
    (∃ fault, openBlock w = .error fault w ∧ after (block body suffix).perform w = w) ∨
      (∃ v fault u, openBlock w = .ok () v ∧ v.level = w.level + 1 ∧ performAll body v = .error fault u ∧
        after (block body suffix).perform w = u) ∨
      ∃ v u, openBlock w = .ok () v ∧ v.level = w.level + 1 ∧ performAll body v = .ok () u ∧
        (after (block body suffix).perform w).level = u.level - 1 := by
  rw [perform, Writing.block]
  rcases openBlock_cases w with ⟨fault, hopen⟩ | ⟨b, v, -, hopen, hv, hlevel⟩
  · exact .inl ⟨fault, hopen, after_bind_of_error hopen⟩
  refine .inr ?_
  rw [after_bind_of_ok hopen]
  cases hrun : performAll body v with
  | error fault u => exact .inl ⟨v, fault, u, hopen, hlevel, hrun, after_bind_of_error hrun⟩
  | ok _ u =>
    have hbody := performAll_brackets body v
    rw [after_of_ok hrun] at hbody
    refine .inr ⟨v, u, hopen, hlevel, hrun, ?_⟩
    rw [after_bind_of_ok hrun, after_of_ok (closeBlock_eq (hbody.trans hv) suffix)]
    exact Writer.put_level _ (b.closing ++ suffix)

/-! ### Whole programs -/

theorem after_mem_passedAll (ops : List Operation) (w : Writer) : after (performAll ops) w ∈ passedAll ops w := by
  induction ops generalizing w with
  | nil => exact List.mem_singleton_self w
  | cons op rest ih =>
    rw [performAll, passedAll]
    cases hrun : op.perform w with
    | error fault v =>
      rw [after_bind_of_error hrun]
      exact List.mem_cons_of_mem _ (List.mem_append_right _ (List.mem_singleton_self v))
    | ok _ v =>
      rw [after_bind_of_ok hrun]
      exact List.mem_cons_of_mem _ (List.mem_append_right _ (ih v))

theorem start_mem_passedAll (ops : List Operation) (w : Writer) : w ∈ passedAll ops w := by
  cases ops with
  | nil => exact List.mem_singleton_self w
  | cons op rest => exact List.mem_cons_self

mutual

/-- No block is closed at level 0 or below it exactly if the operation does not go below level 0. -/
theorem nonneg_iff (op : Operation) {w : Writer} (hw : 0 ≤ w.level) :
    ((∀ v ∈ op.passed w, 0 ≤ v.level) ∧ 0 ≤ (after op.perform w).level) ↔ ∀ v ∈ op.closed w, 1 ≤ v.level := by
  cases op with
  | step s =>
    have hstep := (s.perform_spec w).1
    simp only [passed, closed, List.not_mem_nil, false_implies, implies_true, true_and, iff_true]
    show 0 ≤ (after s.perform w).level
    omega
  | attempt body =>
    rw [after_attempt, passed, closed, ← nonnegAll_iff body hw, and_iff_left_iff_imp]
    exact fun h => h _ (after_mem_passedAll body w)
  | block body suffix =>
    rcases block_cases body suffix w with ⟨fault, hopen, hafter⟩ | ⟨v, fault, u, hopen, hv, hrun, hafter⟩ |
      ⟨v, u, hopen, hv, hrun, hafter⟩
    · simp [passed, closed, hopen, hafter, hw]
    · have hbody := nonnegAll_iff body (w := v) (by omega)
      have hend := after_mem_passedAll body v
      rw [after_of_error hrun] at hend
      simp only [passed, closed, hopen, hafter, hrun, List.append_nil, ← hbody, and_iff_left_iff_imp]
      exact fun h => h u hend
    · have hbody := nonnegAll_iff body (w := v) (by omega)
      simp only [passed, closed, hopen, hafter, hrun, List.forall_mem_append, List.forall_mem_singleton, ← hbody]
      -- Closing the block takes one level from where its body ended.
      refine and_congr_right fun _ => ?_
      omega

theorem nonnegAll_iff (ops : List Operation) {w : Writer} (hw : 0 ≤ w.level) :
    (∀ v ∈ passedAll ops w, 0 ≤ v.level) ↔ ∀ v ∈ closedAll ops w, 1 ≤ v.level := by
  cases ops with
  | nil => simp [passedAll, closedAll, hw]
  | cons op rest =>
    have hop := nonneg_iff op hw
    rw [passedAll, closedAll]
    cases hrun : op.perform w with
    | error fault v =>
      rw [after_of_error hrun] at hop
      simp only [List.forall_mem_cons, List.forall_mem_append, List.not_mem_nil, hw]
      simpa using hop
    | ok _ v =>
      rw [after_of_ok hrun] at hop
      simp only [List.forall_mem_cons, List.forall_mem_append, hw, true_and, ← hop]
      -- The rest can only be taken up at a level that is not negative, and its first state says so.
      constructor
      · rintro ⟨hpassed, hrest⟩
        have hv := hrest v (start_mem_passedAll rest v)
        exact ⟨⟨hpassed, hv⟩, (nonnegAll_iff rest hv).mp hrest⟩
      · rintro ⟨⟨hpassed, hv⟩, hrest⟩
        exact ⟨hpassed, (nonnegAll_iff rest hv).mpr hrest⟩

end

mutual

/-- Each block around an operation can lower the level by one below zero, and nothing else can. -/
theorem neg_le_level (op : Operation) {n : Nat} (hn : op.depth ≤ n) {w : Writer} (hw : -n ≤ w.level) :
    (∀ v ∈ op.passed w, -n ≤ v.level) ∧ -n ≤ (after op.perform w).level := by
  cases op with
  | step s =>
    have hstep := (s.perform_spec w).1
    refine ⟨fun v hv => by simp [passed] at hv, ?_⟩
    show -n ≤ (after s.perform w).level
    omega
  | attempt body =>
    have hbody := neg_le_levelAll body hn hw
    rw [after_attempt]
    exact ⟨hbody, hbody _ (after_mem_passedAll body w)⟩
  | block body suffix =>
    -- The body starts one level up and has one block less around it, so its bound is one higher.
    rw [depth] at hn
    rcases block_cases body suffix w with ⟨fault, hopen, hafter⟩ | ⟨v, fault, u, hopen, hv, hrun, hafter⟩ |
      ⟨v, u, hopen, hv, hrun, hafter⟩
    · simp [passed, hopen, hafter, hw]
    · have hbody := neg_le_levelAll body (n := n - 1) (by omega) (w := v) (by omega)
      have hend := hbody _ (after_mem_passedAll body v)
      rw [after_of_error hrun] at hend
      simp only [passed, hopen, hafter]
      exact ⟨fun u hu => by have := hbody u hu; omega, by omega⟩
    · have hbody := neg_le_levelAll body (n := n - 1) (by omega) (w := v) (by omega)
      have hend := hbody _ (after_mem_passedAll body v)
      rw [after_of_ok hrun] at hend
      simp only [passed, hopen, hafter]
      exact ⟨fun u hu => by have := hbody u hu; omega, by omega⟩

theorem neg_le_levelAll (ops : List Operation) {n : Nat} (hn : depthAll ops ≤ n) {w : Writer} (hw : -n ≤ w.level) :
    ∀ v ∈ passedAll ops w, -n ≤ v.level := by
  cases ops with
  | nil => simpa [passedAll] using hw
  | cons op rest =>
    rw [depthAll, Nat.max_le] at hn
    obtain ⟨hpassed, hafter⟩ := neg_le_level op hn.1 hw
    rw [passedAll]
    cases hrun : op.perform w with
    | error fault v =>
      rw [after_of_error hrun] at hafter
      simp only [List.forall_mem_cons, List.forall_mem_append]
      exact ⟨hw, hpassed, hafter, by simp⟩
    | ok _ v =>
      rw [after_of_ok hrun] at hafter
      simp only [List.forall_mem_cons, List.forall_mem_append]
      exact ⟨hw, hpassed, neg_le_levelAll rest hn.2 hafter⟩

end

/-- The level stays at zero or above it exactly if the body of every block that is closed ends above zero, and it
never falls further than there are blocks inside each other. -/
theorem levels_nonneg_iff (ops : List Operation) {w : Writer} (hw : 0 ≤ w.level) :
    ((∀ v ∈ passedAll ops w, 0 ≤ v.level) ↔ ∀ v ∈ closedAll ops w, 1 ≤ v.level) ∧
      ∀ v ∈ passedAll ops w, -(depthAll ops : Int) ≤ v.level :=
  ⟨nonnegAll_iff ops hw, neg_le_levelAll ops (Nat.le_refl _) (by omega)⟩

theorem levels_nonneg_nested :
    0 ≤ Writer.braced.level ∧
      ∀ v ∈ passedAll [.block [.step .indent, .attempt [.step (.setLevel (.int (-1)))],
        .block [.step (.line []), .step .unindent] ";", .step .indent] "", .step .unindent] Writer.braced, 0 ≤ v.level :=
  ⟨by decide, (levels_nonneg_iff _ (by decide)).1.mpr (by decide)⟩

theorem level_negative_behind_block : ¬∀ ops, ∀ v ∈ passedAll ops Writer.braced, 0 ≤ v.level := by
  intro h
  have hblock := h [.block [.step .unindent] ""]
  revert hblock
  decide

end Operation

end CodeBridge
