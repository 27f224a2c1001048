import CodeBridge.Macro
import CodeBridge.Proofs.Writing

/-! # The lines of macro calls

A macro call is written over several lines, of which the last is not ended: the name, each argument on lines of
its own one level deeper, and the parenthesis behind the last argument. `Leaves` says which lines a writing ends
and what it leaves on the line that it does not end. -/

namespace CodeBridge

namespace Writing

variable {w : Writer}

/-- `x` adds these lines to every writer that is ready and starts one more line with the last text, or ends in
this fault. -/
def Leaves (x : Writing Unit) : Except Fault (List String × String) → Prop
  | .ok (ls, last) => ∀ w : Writer, w.Ready → x w = .ok () ((w.addLines ls).put last)
  | .error fault => ∀ w : Writer, w.Ready → ∃ w', x w = .error fault w'

theorem Leaves.write (piece : String) : Leaves (write piece) (.ok ([], piece)) := fun w hw => by
  rw [Writer.addLines_nil hw.lineStart]
  rfl

/-- What is left on a line goes on with what comes next. -/
theorem Leaves.bind {x y : Writing Unit} {r : Except Fault (List String × String)}
    {s : String → Except Fault (List String × String)} (hx : Leaves x r)
    (hy : ∀ last, Leaves (Writing.write last >>= fun _ => y) (s last)) :
    Leaves (x >>= fun _ => y) (do
      let (ls, last) ← r
      let (ls', last') ← s last
      return (ls ++ ls', last')) := by
  cases r with
  | error fault =>
    intro w hw
    obtain ⟨w', h⟩ := hx w hw
    exact ⟨w', bind_error h _⟩
  | ok left =>
    obtain ⟨ls, last⟩ := left
    have hlast := hy last
    show Leaves _ (do
      let (ls', last') ← s last
      return (ls ++ ls', last'))
    generalize s last = t at hlast ⊢
    cases t with
    | error fault =>
      intro w hw
      obtain ⟨w', h⟩ := hlast (w.addLines ls) (hw.addLines ls)
      exact ⟨w', by rw [bind_ok (hx w hw)]; exact h⟩
    | ok left' =>
      obtain ⟨ls', last'⟩ := left'
      intro w hw
      rw [bind_ok (hx w hw), ← Writer.addLines_addLines]
      exact hlast (w.addLines ls) (hw.addLines ls)

theorem Leaves.line_bind {y : Writing Unit} {r : Except Fault (List String × String)} (piece : String)
    (hy : Leaves y r) :
    Leaves (line piece >>= fun _ => y) (do
      let (ls, last) ← r
      return (piece :: ls, last)) := by
  have hline := Yields.line piece
  cases r with
  | error fault =>
    intro w hw
    obtain ⟨w', h⟩ := hy _ (hw.addLines [piece])
    exact ⟨w', by rw [bind_ok (hline w hw), h]⟩
  | ok left =>
    obtain ⟨ls, last⟩ := left
    intro w hw
    rw [bind_ok (hline w hw), hy _ (hw.addLines [piece]), Writer.addLines_addLines]
    rfl

theorem Leaves.bind_line {x : Writing Unit} {r : Except Fault (List String × String)} (hx : Leaves x r)
    (piece : String) :
    Yields (x >>= fun _ => line piece) (do
      let (ls, last) ← r
      return ls ++ [last ++ piece]) := by
  cases r with
  | error fault =>
    intro w hw
    obtain ⟨w', h⟩ := hx w hw
    exact ⟨w', bind_error h _⟩
  | ok left =>
    obtain ⟨ls, last⟩ := left
    intro w hw
    rw [bind_ok (hx w hw), ← Writer.addLines_addLines, ← Writer.putLine_eq (hw.addLines ls).lineStart,
      ← Writer.put_putLine]
    rfl

theorem atLevel_put_addLines (hw : w.Ready) (ls : List String) (last : String) :
    (((w.atLevel (w.level + 1)).addLines ls).put last).atLevel w.level = (w.addLines (ls.map indented)).put (indented last) := by
  rw [← Writer.addLines_atLevel_succ hw.level]
  simp [Writer.put, Writer.start, Writer.addLines, Writer.atLevel, indented, Writer.blanks_succ hw.level,
    String.append_assoc]

end Writing

namespace Macro

open Writing

/-! ### Calls -/

mutual

/-- The lines of a call and the text of the line that it does not end. -/
def lines : Macro → Except Fault (List String × String)
  | .value v => do return ([], ← v.text?)
  | .call name arguments => do
    let (ls, last) ← argumentLines arguments
    return ((name ++ "(") :: ls.map indented, indented last)

/-- The lines of the arguments of a call up to the parenthesis that closes it. -/
def argumentLines : List Macro → Except Fault (List String × String)
  | [] => .ok ([], ")")
  | argument :: rest => do
    let (ls, last) ← argument.lines
    let (ls', last') ← furtherLines last rest
    return (ls ++ ls', last')

/-- The lines of the arguments behind one whose line is not ended. -/
def furtherLines (pending : String) : List Macro → Except Fault (List String × String)
  | [] => .ok ([], pending ++ ")")
  | argument :: rest => do
    let (ls, last) ← (do
      let (ls, last) ← argument.lines
      let (ls', last') ← furtherLines last rest
      return (ls ++ ls', last'))
    return ((pending ++ ",") :: ls, last)

end

theorem leaves_value (v : Value) : Leaves (Macro.value v).write (Macro.value v).lines := by
  simp only [Macro.write, Macro.lines]
  cases htext : v.text? with
  | error fault =>
    intro w hw
    refine ⟨w.start, ?_⟩
    simp only [writeValues, writeEach, htext]
    rfl
  | ok text =>
    intro w hw
    rw [Writer.addLines_nil hw.lineStart]
    simp only [writeValues, writeEach, htext]
    show EStateM.Result.ok () (w.start.put text) = EStateM.Result.ok () (w.put text)
    simp [Writer.put, Writer.start, hw.lineStart]

/-- A call is its arguments one level deeper behind its name. -/
theorem leaves_call {arguments : List Macro}
    (h : Leaves (writeArguments true arguments >>= fun _ => Writing.write ")") (argumentLines arguments)) (name : String) :
    Leaves (Macro.call name arguments).write (Macro.call name arguments).lines := by
  have hwrite : ∀ w : Writer, w.Ready → (Macro.call name arguments).write w =
      ((writeArguments true arguments >>= fun _ => Writing.write ")") >>= fun _ => setLevel (.int w.level))
        ((w.addLines [name ++ "("]).atLevel ((w.addLines [name ++ "("]).level + 1)) := fun w hw => by
    simp only [Macro.write, bind_assoc]
    rw [bind_ok (show level w = .ok w.level w from rfl), bind_ok (Yields.line (name ++ "(") w hw)]
    rfl
  simp only [Macro.lines]
  cases hls : argumentLines arguments with
  | error fault =>
    rw [hls] at h
    intro w hw
    obtain ⟨w', hw'⟩ := h _ (hw.addLines [name ++ "("]).atLevel_succ
    exact ⟨w', (hwrite w hw).trans (bind_error hw' _)⟩
  | ok left =>
    obtain ⟨ls, last⟩ := left
    rw [hls] at h
    intro w hw
    have hready := hw.addLines [name ++ "("]
    have hlevel : ∀ v : Writer, setLevel (.int w.level) v = .ok () (v.atLevel w.level) := fun v => by
      rw [setLevel, if_pos hw.level]
      rfl
    have hleft := atLevel_put_addLines hready ls last
    rw [Writer.addLines_addLines] at hleft
    refine (hwrite w hw).trans ((bind_ok (h _ hready.atLevel_succ) _).trans ((hlevel _).trans ?_))
    exact congrArg (EStateM.Result.ok ()) hleft

mutual

theorem leaves_write : ∀ m : Macro, Leaves m.write m.lines
  | .value v => leaves_value v
  | .call name [] => leaves_call (by simpa [writeArguments, argumentLines] using Leaves.write ")") name
  | .call name (argument :: rest) => by
    refine leaves_call ?_ name
    have hboth := (leaves_write argument).bind fun last => leaves_further last rest
    simpa [writeArguments, argumentLines] using hboth

theorem leaves_further (pending : String) : ∀ arguments : List Macro,
    Leaves (Writing.write pending >>= fun _ => writeArguments false arguments >>= fun _ => Writing.write ")")
      (furtherLines pending arguments)
  | [] => by
    have hwrite : (Writing.write pending >>= fun _ => Writing.write ")") = Writing.write (pending ++ ")") := by
      funext w
      exact congrArg (EStateM.Result.ok ()) (Writer.put_put w pending ")")
    simpa [writeArguments, furtherLines, hwrite] using Leaves.write (pending ++ ")")
  | argument :: rest => by
    have hboth := ((leaves_write argument).bind fun last => leaves_further last rest).line_bind (pending ++ ",")
    rw [← write_line] at hboth
    simpa [writeArguments, furtherLines] using hboth

end

/-- The lines of a call as a statement. -/
def statementLines (m : Macro) : Except Fault (List String) := do
  let (ls, last) ← m.lines
  return ls ++ [last ++ ";"]

theorem yields_statement (m : Macro) : Yields m.writeStatement m.statementLines :=
  (leaves_write m).bind_line ";"

/-! ### Where the lines of a call end -/

/-- A line that is ended within a call: the call or the list of its arguments goes on behind it. -/
def GoesOn (l : String) : Prop :=
  l.toList.getLast? = some '(' ∨ l.toList.getLast? = some ','

theorem GoesOn.indented {l : String} (h : GoesOn l) : GoesOn (indented l) := by
  unfold GoesOn at h ⊢
  simp only [CodeBridge.indented, String.toList_append, List.getLast?_append]
  rcases h with h | h
  · exact .inl (by rw [h]; rfl)
  · exact .inr (by rw [h]; rfl)

theorem goesOn_append {pending close : String} (h : close = "(" ∨ close = ",") : GoesOn (pending ++ close) := by
  rcases h with rfl | rfl
  · exact .inl (by simp)
  · exact .inr (by simp)

mutual

theorem goesOn_lines : ∀ (m : Macro) {ls : List String} {last : String}, m.lines = .ok (ls, last) → ∀ l ∈ ls, GoesOn l
  | .value v, ls, last, h => by
    obtain ⟨text, -, h⟩ := exists_of_bind_eq_ok h
    cases h
    exact fun l hl => nomatch hl
  | .call name [], ls, last, h => by
    cases h
    exact fun l hl => List.mem_singleton.mp hl ▸ goesOn_append (.inl rfl)
  | .call name (argument :: rest), ls, last, h => by
    obtain ⟨⟨ls', last'⟩, hlines, h⟩ := exists_of_bind_eq_ok h
    obtain ⟨⟨ls₁, last₁⟩, h₁, hlines⟩ := exists_of_bind_eq_ok hlines
    obtain ⟨⟨ls₂, last₂⟩, h₂, hlines⟩ := exists_of_bind_eq_ok hlines
    cases h
    cases hlines
    intro l hl
    rcases List.mem_cons.mp hl with rfl | hl
    · exact goesOn_append (.inl rfl)
    · obtain ⟨inner, hinner, rfl⟩ := List.mem_map.mp hl
      refine GoesOn.indented ?_
      rcases List.mem_append.mp hinner with hinner | hinner
      · exact goesOn_lines argument h₁ inner hinner
      · exact goesOn_furtherLines rest h₂ inner hinner

theorem goesOn_furtherLines : ∀ (arguments : List Macro) {pending : String} {ls : List String} {last : String},
    furtherLines pending arguments = .ok (ls, last) → ∀ l ∈ ls, GoesOn l
  | [], pending, ls, last, h => by
    cases h
    exact fun l hl => nomatch hl
  | argument :: rest, pending, ls, last, h => by
    obtain ⟨⟨ls', last'⟩, hlines, h⟩ := exists_of_bind_eq_ok h
    obtain ⟨⟨ls₁, last₁⟩, h₁, hlines⟩ := exists_of_bind_eq_ok hlines
    obtain ⟨⟨ls₂, last₂⟩, h₂, hlines⟩ := exists_of_bind_eq_ok hlines
    cases h
    cases hlines
    intro l hl
    rcases List.mem_cons.mp hl with rfl | hl
    · exact goesOn_append (.inr rfl)
    rcases List.mem_append.mp hl with hl | hl
    · exact goesOn_lines argument h₁ l hl
    · exact goesOn_furtherLines rest h₂ l hl

end

/-! ### What a call performs -/

/-- A call performs its last argument, or what the call that stands there performs, this many levels deep. -/
inductive Performs : Macro → Nat → String → Prop where
  | text (action : String) : Performs (.text action) 0 action
  | call (name : String) (argument : Macro) (arguments : List Macro) {m : Macro} {depth : Nat} {action : String}
      (h : Performs m depth action) : Performs (.call name (argument :: (arguments ++ [m]))) (depth + 1) action

theorem furtherLines_concat {m : Macro} {arguments : List Macro} {pending : String} {ls : List String} {last : String}
    (h : furtherLines pending (arguments ++ [m]) = .ok (ls, last)) :
    ∃ ls' last', m.lines = .ok (ls', last') ∧ last = last' ++ ")" := by
  induction arguments generalizing pending ls last with
  | nil =>
    obtain ⟨⟨ls', last'⟩, hlines, h⟩ := exists_of_bind_eq_ok h
    obtain ⟨⟨ls₁, last₁⟩, h₁, hlines⟩ := exists_of_bind_eq_ok hlines
    cases hlines
    cases h
    exact ⟨ls₁, last₁, h₁, rfl⟩
  | cons argument arguments ih =>
    obtain ⟨⟨ls', last'⟩, hlines, h⟩ := exists_of_bind_eq_ok h
    obtain ⟨⟨ls₁, last₁⟩, -, hlines⟩ := exists_of_bind_eq_ok hlines
    obtain ⟨⟨ls₂, last₂⟩, h₂, hlines⟩ := exists_of_bind_eq_ok hlines
    cases hlines
    cases h
    exact ih h₂

/-- The blanks before an action this many levels deep. -/
def gap (depth : Nat) : String :=
  String.ofList (List.replicate (4 * depth) ' ')

/-- The parentheses that close this many calls. -/
def closers (depth : Nat) : String :=
  String.ofList (List.replicate depth ')')

theorem indented_gap_closers (depth : Nat) (action : String) :
    indented (gap depth ++ action ++ closers depth ++ ")") = gap (depth + 1) ++ action ++ closers (depth + 1) := by
  have hgap : gap (depth + 1) = "    " ++ gap depth := by
    rw [gap, Nat.mul_add, Nat.add_comm, ← List.replicate_append_replicate, String.ofList_append]
    rfl
  have hclosers : closers (depth + 1) = closers depth ++ ")" := by
    rw [closers, List.replicate_succ', String.ofList_append]
    rfl
  simp [indented, hgap, hclosers, String.append_assoc]

/-- The last line of the statement of an action. -/
def actionLine (depth : Nat) (action : String) : String :=
  gap depth ++ action ++ closers depth ++ ";"

theorem Performs.lines {m : Macro} {depth : Nat} {action : String} (h : Performs m depth action) {ls : List String}
    {last : String} (hlines : m.lines = .ok (ls, last)) : last = gap depth ++ action ++ closers depth := by
  induction h generalizing ls last with
  | text action =>
    cases hlines
    simp [gap, closers, Value.shown]
  | call name argument arguments _ ih =>
    obtain ⟨⟨ls', last'⟩, harguments, hlines⟩ := exists_of_bind_eq_ok hlines
    obtain ⟨⟨ls₁, last₁⟩, -, harguments⟩ := exists_of_bind_eq_ok harguments
    obtain ⟨⟨ls₂, last₂⟩, h₂, harguments⟩ := exists_of_bind_eq_ok harguments
    cases harguments
    cases hlines
    obtain ⟨ls₃, last₃, h₃, rfl⟩ := furtherLines_concat h₂
    rw [ih h₃, indented_gap_closers]

/-- The statement of a call ends in what it performs, and no line before goes on to an end of its own. -/
theorem Performs.statementLines {m : Macro} {depth : Nat} {action : String} (h : Performs m depth action)
    {ls : List String} (hlines : m.statementLines = .ok ls) :
    ∃ init, ls = init ++ [actionLine depth action] ∧ ∀ l ∈ init, GoesOn l := by
  obtain ⟨⟨init, last⟩, hinit, hlines⟩ := exists_of_bind_eq_ok hlines
  cases hlines
  exact ⟨init, by rw [h.lines hinit]; rfl, goesOn_lines m hinit⟩

theorem Performs.getLast?_statementLines {m : Macro} {depth : Nat} {action : String} (h : Performs m depth action)
    {ls : List String} (hlines : m.statementLines = .ok ls) : ls.getLast? = some (actionLine depth action) := by
  obtain ⟨init, rfl, -⟩ := h.statementLines hlines
  exact List.getLast?_concat ..

theorem eq_of_blanks_append {a b x y : List Char} (ha : ∀ c ∈ a, c = ' ') (hb : ∀ c ∈ b, c = ' ')
    (hx : ∃ c ∈ x.head?, c ≠ ' ') (hy : ∃ c ∈ y.head?, c ≠ ' ') (h : a ++ x = b ++ y) : x = y := by
  have hdrop : ∀ {blanks cs : List Char}, (∀ c ∈ blanks, c = ' ') → (∃ c ∈ cs.head?, c ≠ ' ') →
      (blanks ++ cs).dropWhile (· == ' ') = cs := by
    intro blanks cs hblanks hcs
    obtain ⟨c, hc, hne⟩ := hcs
    rw [List.dropWhile_append_of_pos fun d hd => by simp [hblanks d hd]]
    cases cs with
    | nil => cases hc
    | cons d cs =>
      obtain rfl : d = c := Option.some.inj hc
      simp [hne]
  rw [← hdrop ha hx, h, hdrop hb hy]

theorem gap_blank (depth : Nat) : ∀ c ∈ (gap depth).toList, c = ' ' := by
  simp [gap]

theorem actionLine_inj {a b : String} {m n : Nat} (ha : ∃ c ∈ a.toList.head?, c ≠ ' ')
    (hb : ∃ c ∈ b.toList.head?, c ≠ ' ') (h : actionLine m a = actionLine n b) : a = b := by
  have hfirst : ∀ {s : String} (t : List Char), (∃ c ∈ s.toList.head?, c ≠ ' ') → ∃ c ∈ (s.toList ++ t).head?, c ≠ ' ' := by
    rintro s t ⟨c, hc, hne⟩
    exact ⟨c, by simp [List.head?_append, Option.mem_def.mp hc], hne⟩
  have hlines := congrArg String.toList h
  simp only [actionLine, String.toList_append, List.append_assoc] at hlines
  have hdrop := eq_of_blanks_append (gap_blank m) (gap_blank n) (hfirst _ ha) (hfirst _ hb) hlines
  -- The lengths agree with the blanks and without them, so both lines are equally deep.
  have hlength := congrArg List.length hdrop
  have hlength' := congrArg List.length hlines
  simp only [gap, closers, String.toList_ofList, List.length_append, List.length_replicate] at hlength hlength'
  obtain rfl : m = n := by omega
  exact String.toList_inj.mp (List.append_cancel_right hdrop)

end Macro

end CodeBridge
