import CodeBridge.Proofs.Functions
import CodeBridge.Proofs.HeaderContents

/-! # Nested brackets

What well nested brackets are, and which C texts have them outside their string literals. A reader that keeps the
brackets which are still to be closed decides it. Texts are put together from pieces that the reader passes one after
the other, so it is enough to know from where to where it goes in each piece. -/

namespace CodeBridge

namespace Nesting

/-! ### Brackets -/

/-- The bracket that closes what a bracket opens. -/
def closer? : Char → Option Char
  | '(' => some ')'
  | '[' => some ']'
  | '\x7b' => some '\x7d'
  | _ => none

def isCloser (c : Char) : Bool :=
  c == ')' || c == ']' || c == '\x7d'

/-- Every bracket that is opened is closed by its own closing bracket, and what stands between the two is well nested. -/
inductive WellNested : List Char → Prop where
  | nil : WellNested []
  | other {c : Char} {cs : List Char} (hopen : closer? c = none) (hclose : isCloser c = false) (h : WellNested cs) :
      WellNested (c :: cs)
  | pair {c d : Char} {inner rest : List Char} (hopen : closer? c = some d) (hinner : WellNested inner)
      (hrest : WellNested rest) : WellNested (c :: (inner ++ d :: rest))

/-- Takes a character in where the brackets `due` are still to come, the next one first. -/
def follow (due : List Char) (c : Char) : Option (List Char) :=
  match closer? c with
  | some d => some (d :: due)
  | none => if isCloser c then if due.head? = some c then some due.tail else none else some due

/-- A character opens a bracket, closes the one that is due next, or is none. -/
theorem follow_eq_some_iff {due due' : List Char} {c : Char} : follow due c = some due' ↔
    (∃ d, closer? c = some d ∧ due' = d :: due) ∨ (closer? c = none ∧ isCloser c = true ∧ due = c :: due') ∨
      (closer? c = none ∧ isCloser c = false ∧ due' = due) := by
  unfold follow
  cases closer? c with
  | some d => simp [eq_comm (a := due')]
  | none =>
    cases isCloser c with
    | false => simp [eq_comm (a := due')]
    | true =>
      cases due with
      | nil => simp
      | cons d due =>
        by_cases hd : d = c
        · simp [hd]
        · simp [hd]

/-- What follows up to the end with a bracket due has that bracket, behind something well nested. -/
theorem exists_close (n : Nat) {cs : List Char} (hn : cs.length ≤ n) {d : Char} {due : List Char}
    (h : cs.foldlM follow (d :: due) = some []) :
    ∃ inner rest, cs = inner ++ d :: rest ∧ WellNested inner ∧ rest.foldlM follow due = some [] := by
  induction n generalizing cs d due with
  | zero =>
    cases List.length_eq_zero_iff.mp (Nat.le_zero.mp hn)
    cases h
  | succ n ih =>
    cases cs with
    | nil => cases h
    | cons c cs =>
      have hn : cs.length ≤ n := Nat.le_of_succ_le_succ hn
      obtain ⟨due', hc, h⟩ := Option.bind_eq_some_iff.mp (List.foldlM_cons.symm.trans h)
      rcases follow_eq_some_iff.mp hc with ⟨e, hopen, rfl⟩ | ⟨-, -, hdue⟩ | ⟨hopen, hclose, rfl⟩
      · -- The bracket that is opened here is closed first, and behind it the one that was due is found.
        obtain ⟨first, behind, rfl, hfirst, hbehind⟩ := ih hn h
        have hlength : behind.length ≤ n := by
          simp only [List.length_append, List.length_cons] at hn
          omega
        obtain ⟨inner, rest, rfl, hinner, hrest⟩ := ih hlength hbehind
        exact ⟨c :: (first ++ e :: inner), rest, by simp, .pair hopen hfirst hinner, hrest⟩
      · cases hdue
        exact ⟨[], cs, rfl, .nil, h⟩
      · obtain ⟨inner, rest, rfl, hinner, hrest⟩ := ih hn h
        exact ⟨c :: inner, rest, rfl, .other hopen hclose hinner, hrest⟩

theorem WellNested.of_foldlM (n : Nat) {cs : List Char} (hn : cs.length ≤ n) (h : cs.foldlM follow [] = some []) :
    WellNested cs := by
  induction n generalizing cs with
  | zero =>
    cases List.length_eq_zero_iff.mp (Nat.le_zero.mp hn)
    exact .nil
  | succ n ih =>
    cases cs with
    | nil => exact .nil
    | cons c cs =>
      have hn : cs.length ≤ n := Nat.le_of_succ_le_succ hn
      obtain ⟨due', hc, h⟩ := Option.bind_eq_some_iff.mp (List.foldlM_cons.symm.trans h)
      rcases follow_eq_some_iff.mp hc with ⟨d, hopen, rfl⟩ | ⟨-, -, hdue⟩ | ⟨hopen, hclose, rfl⟩
      · obtain ⟨inner, rest, rfl, hinner, hrest⟩ := exists_close cs.length le_rfl h
        have hlength : rest.length ≤ n := by
          simp only [List.length_append, List.length_cons] at hn
          omega
        exact .pair hopen hinner (ih hlength hrest)
      · cases hdue
      · exact .other hopen hclose (ih hn h)

/-! ### String literals -/

/-- Where a character of C text stands: outside of string literals, inside one, or behind a backslash inside one. -/
inductive Mode where
  | code
  | literal
  | escaped
deriving DecidableEq

def Mode.next : Mode → Char → Mode
  | .code, c => if c = '"' then .literal else .code
  | .literal, c => if c = '"' then .code else if c = '\\' then .escaped else .literal
  | .escaped, _ => .literal

/-- The text without its string literals. -/
def outside : Mode → List Char → List Char
  | _, [] => []
  | .code, c :: cs => if c = '"' then outside .literal cs else c :: outside .code cs
  | mode, c :: cs => outside (mode.next c) cs

/-- C text in which all string literals end and that is well nested without them. -/
structure Bracketed (text : String) : Prop where
  literals : text.toList.foldl Mode.next .code = .code
  nested : WellNested (outside .code text.toList)

/-! ### Reading -/

/-- How far a text is read: the mode, and the closing brackets that are still to come. -/
structure Place where
  mode : Mode
  due : List Char
deriving DecidableEq

def Place.step (p : Place) (c : Char) : Option Place :=
  match p.mode with
  | .code => if c = '"' then some ⟨.literal, p.due⟩ else (follow p.due c).map fun due => ⟨.code, due⟩
  | mode => some ⟨mode.next c, p.due⟩

/-- The text leads from one place to another. -/
def Passes (s : String) (p q : Place) : Prop :=
  s.toList.foldlM Place.step p = some q

instance (s : String) (p q : Place) : Decidable (Passes s p q) :=
  inferInstanceAs (Decidable (_ = _))

theorem of_foldlM_step {cs : List Char} {p q : Place} (h : cs.foldlM Place.step p = some q) :
    cs.foldl Mode.next p.mode = q.mode ∧ (outside p.mode cs).foldlM follow p.due = some q.due := by
  induction cs generalizing p with
  | nil =>
    cases h
    cases q.mode <;> exact ⟨rfl, rfl⟩
  | cons c cs ih =>
    rw [List.foldlM_cons] at h
    obtain ⟨mode, due⟩ := p
    cases mode with
    | code =>
      by_cases hc : c = '"'
      · subst hc
        exact ih h
      · simp only [Place.step, if_neg hc] at h
        cases hfollow : follow due c with
        | none =>
          rw [hfollow] at h
          cases h
        | some due' =>
          rw [hfollow] at h
          simp only [List.foldl_cons, Mode.next, outside, if_neg hc, List.foldlM_cons, hfollow]
          exact ih h
    | literal => exact ih h
    | escaped => exact ih h

theorem Bracketed.of_passes {text : String} (h : Passes text ⟨.code, []⟩ ⟨.code, []⟩) : Bracketed text :=
  ⟨(of_foldlM_step h).1, .of_foldlM _ le_rfl (of_foldlM_step h).2⟩

section
variable {a b s : String} {p q r : Place} {mode mode' : Mode} {due due' : List Char}

/-- The characters of a text decide where it leads to. -/
theorem Passes.chars {cs : List Char} (h : cs.foldlM Place.step p = some q) : Passes (String.ofList cs) p q := by
  rw [Passes, String.toList_ofList]
  exact h

theorem Passes.append (ha : Passes a p q) (hb : Passes b q r) : Passes (a ++ b) p r := by
  rw [Passes, String.toList_append, List.foldlM_append, ha]
  exact hb

theorem follow_append {c : Char} (h : follow due c = some due') (more : List Char) :
    follow (due ++ more) c = some (due' ++ more) := by
  rw [follow_eq_some_iff] at h ⊢
  rcases h with ⟨d, hopen, rfl⟩ | ⟨hopen, hclose, rfl⟩ | ⟨hopen, hclose, rfl⟩
  · exact .inl ⟨d, hopen, rfl⟩
  · exact .inr (.inl ⟨hopen, hclose, rfl⟩)
  · exact .inr (.inr ⟨hopen, hclose, rfl⟩)

/-- Brackets that are due further out do not matter to a text. -/
theorem Passes.under (h : Passes s ⟨mode, due⟩ ⟨mode', due'⟩) (more : List Char) :
    Passes s ⟨mode, due ++ more⟩ ⟨mode', due' ++ more⟩ := by
  unfold Passes at h ⊢
  generalize s.toList = cs at h ⊢
  induction cs generalizing mode due with
  | nil =>
    cases h
    rfl
  | cons c cs ih =>
    rw [List.foldlM_cons] at h ⊢
    cases mode with
    | code =>
      by_cases hc : c = '"'
      · subst hc
        exact ih h
      · simp only [Place.step, if_neg hc] at h ⊢
        cases hfollow : follow due c with
        | none =>
          rw [hfollow] at h
          cases h
        | some due₁ =>
          rw [hfollow] at h
          rw [follow_append hfollow more]
          exact ih h
    | literal => exact ih h
    | escaped => exact ih h

end

/-- A text that closes what it opens, outside of literals. -/
def Balanced (s : String) : Prop :=
  Passes s ⟨.code, []⟩ ⟨.code, []⟩

instance : DecidablePred Balanced := fun s =>
  inferInstanceAs (Decidable (Passes s _ _))

theorem Balanced.passes {s : String} (h : Balanced s) (due : List Char) : Passes s ⟨.code, due⟩ ⟨.code, due⟩ :=
  Passes.under h due

/-! ### Plain texts -/

/-- The characters that the reader heeds. -/
def marks : List Char :=
  ['(', ')', '[', ']', '\x7b', '\x7d', '"', '\\']

/-- A text without brackets, quotes and backslashes. -/
def Plain (s : String) : Prop :=
  ∀ c ∈ s.toList, c ∉ marks

instance : DecidablePred Plain := fun s =>
  inferInstanceAs (Decidable (∀ c ∈ s.toList, c ∉ marks))

@[simp] theorem plain_append {a b : String} : Plain (a ++ b) ↔ Plain a ∧ Plain b := by
  simp [Plain, or_imp, forall_and]

theorem step_eq_self {c : Char} (hc : c ∉ marks) {mode : Mode} (hmode : mode ≠ .escaped) (due : List Char) :
    Place.step ⟨mode, due⟩ c = some ⟨mode, due⟩ := by
  simp only [marks, List.mem_cons, List.not_mem_nil, or_false, not_or] at hc
  obtain ⟨h₁, h₂, h₃, h₄, h₅, h₆, hquote, hbackslash⟩ := hc
  have hopen : closer? c = none := by
    unfold closer?
    split <;> simp_all
  have hclose : isCloser c = false := by simp [isCloser, h₂, h₄, h₆]
  cases mode with
  | code => simp [Place.step, follow, hquote, hopen, hclose]
  | literal => simp [Place.step, Mode.next, hquote, hbackslash]
  | escaped => exact absurd rfl hmode

theorem Plain.passes {s : String} (h : Plain s) {mode : Mode} (hmode : mode ≠ .escaped) (due : List Char) :
    Passes s ⟨mode, due⟩ ⟨mode, due⟩ := by
  unfold Plain at h
  unfold Passes
  generalize s.toList = cs at h ⊢
  induction cs with
  | nil => rfl
  | cons c cs ih =>
    obtain ⟨hc, hcs⟩ := List.forall_mem_cons.mp h
    rw [List.foldlM_cons, step_eq_self hc hmode]
    exact ih hcs

theorem Plain.inCode {s : String} (h : Plain s) (due : List Char) : Passes s ⟨.code, due⟩ ⟨.code, due⟩ :=
  h.passes (by decide) due

theorem Plain.inLiteral {s : String} (h : Plain s) (due : List Char) : Passes s ⟨.literal, due⟩ ⟨.literal, due⟩ :=
  h.passes (by decide) due

theorem Plain.balanced {s : String} (h : Plain s) : Balanced s :=
  h.inCode []

/-- A plain text between two others leaves the place where they meet as it is. -/
theorem Plain.between {a s b : String} {p r : Place} (h : Plain s) (q : Place) (ha : Passes a p q)
    (hq : q.mode ≠ .escaped) (hb : Passes b q r) : Passes (a ++ s ++ b) p r :=
  (ha.append (h.passes hq q.due)).append hb

/-- Escaped text does not leave its literal. -/
theorem passes_escape (s : String) (due : List Char) : Passes (Text.Escape.escape s) ⟨.literal, due⟩ ⟨.literal, due⟩ := by
  rw [Passes, Text.Escape.escape, String.toList_ofList, Text.Escape.encode]
  induction s.toList with
  | nil => rfl
  | cons c cs ih =>
    rw [List.flatMap_cons, List.foldlM_append]
    suffices hchar : (Text.Escape.encodeChar c).foldlM Place.step ⟨.literal, due⟩ = some ⟨.literal, due⟩ by
      rw [hchar]
      exact ih
    unfold Text.Escape.encodeChar
    cases hmark : Text.Escape.mark? c with
    | some m => rfl
    | none =>
      -- Quotes and backslashes have marks.
      have hquote : c ≠ '"' := by
        rintro rfl
        cases hmark
      have hbackslash : c ≠ '\\' := by
        rintro rfl
        cases hmark
      simp [Place.step, Mode.next, hquote, hbackslash]

theorem balanced_quote (s : String) : Balanced (Text.Escape.quote s) :=
  (Passes.append (.chars rfl) (passes_escape s [])).append (.chars rfl)

/-! ### Lines -/

/-- The brackets that are due behind a line which starts and ends outside of literals. -/
def dueBehind (due : List Char) (l : String) : Option (List Char) := do
  let q ← l.toList.foldlM Place.step ⟨.code, due⟩
  if q.mode = .code then some q.due else none

/-- The brackets that are due before and behind some lines. -/
def Lines (ls : List String) (due due' : List Char) : Prop :=
  ls.foldlM dueBehind due = some due'

instance (ls : List String) (due due' : List Char) : Decidable (Lines ls due due') :=
  inferInstanceAs (Decidable (_ = _))

section
variable {l : String} {ls ls' : List String} {due due' due'' : List Char}

theorem dueBehind_eq_some_iff : dueBehind due l = some due' ↔ Passes l ⟨.code, due⟩ ⟨.code, due'⟩ := by
  unfold dueBehind Passes
  cases l.toList.foldlM Place.step ⟨.code, due⟩ with
  | none => simp
  | some q =>
    obtain ⟨mode, due₁⟩ := q
    cases mode <;> simp [bind, Option.bind]

theorem Lines.nil : Lines [] due due := rfl

theorem Lines.cons (hl : Passes l ⟨.code, due⟩ ⟨.code, due'⟩) (hls : Lines ls due' due'') : Lines (l :: ls) due due'' := by
  rw [Lines, List.foldlM_cons, dueBehind_eq_some_iff.mpr hl]
  exact hls

theorem Lines.of_cons (h : Lines (l :: ls) due due'') :
    ∃ due', Passes l ⟨.code, due⟩ ⟨.code, due'⟩ ∧ Lines ls due' due'' := by
  rw [Lines, List.foldlM_cons] at h
  cases hl : dueBehind due l with
  | none =>
    rw [hl] at h
    cases h
  | some due' =>
    rw [hl] at h
    exact ⟨due', dueBehind_eq_some_iff.mp hl, h⟩

theorem Lines.append (ha : Lines ls due due') (hb : Lines ls' due' due'') : Lines (ls ++ ls') due due'' := by
  rw [Lines, List.foldlM_append, ha]
  exact hb

theorem Lines.under (h : Lines ls due due') (more : List Char) : Lines ls (due ++ more) (due' ++ more) := by
  induction ls generalizing due with
  | nil =>
    cases h
    rfl
  | cons l ls ih =>
    obtain ⟨due₁, hl, hls⟩ := h.of_cons
    exact .cons (hl.under more) (ih hls)

theorem Lines.indented (h : Lines ls due due') : Lines (ls.map indented) due due' := by
  induction ls generalizing due with
  | nil => exact h
  | cons l ls ih =>
    obtain ⟨due₁, hl, hls⟩ := h.of_cons
    have hblanks : Plain "    " := by decide
    exact .cons ((hblanks.inCode due).append hl) (ih hls)

theorem Lines.flatten {rows : List (List String)} (h : ∀ ls ∈ rows, Lines ls [] []) : Lines rows.flatten [] [] := by
  induction rows with
  | nil => rfl
  | cons ls rows ih =>
    obtain ⟨hls, hrows⟩ := List.forall_mem_cons.mp h
    exact hls.append (ih hrows)

theorem Lines.of_balanced (h : ∀ l ∈ ls, Balanced l) : Lines ls [] [] := by
  induction ls with
  | nil => rfl
  | cons l ls ih =>
    obtain ⟨hl, hls⟩ := List.forall_mem_cons.mp h
    exact .cons hl (ih hls)

theorem Lines.passes_linesText (h : Lines ls due due') : Passes (linesText ls) ⟨.code, due⟩ ⟨.code, due'⟩ := by
  induction ls generalizing due with
  | nil =>
    cases h
    rfl
  | cons l ls ih =>
    obtain ⟨due₁, hl, hls⟩ := h.of_cons
    have hfeed : Plain "\n" := by decide
    exact (hl.append (hfeed.inCode due₁)).append (ih hls)

end

theorem Bracketed.of_lines {ls : List String} (h : Lines ls [] []) : Bracketed (linesText ls) :=
  .of_passes h.passes_linesText

/-- The brace of a block is due behind the lines that open it. -/
theorem lines_heading {head : String} (h : Balanced head) (style : Style) : Lines (style.heading head) [] ['\x7d'] := by
  have hbehind : Passes (head ++ " \x7b") ⟨.code, []⟩ ⟨.code, ['\x7d']⟩ := h.append (.chars rfl)
  cases style with
  | bsd => exact .cons h (.cons (.chars rfl) .nil)
  | _ => exact .cons hbehind .nil

theorem Lines.blank : Lines [""] [] [] :=
  .cons (.chars rfl) .nil

/-- A block whose closing brace has more behind it on its line. -/
theorem Lines.blockWith {inner : List String} (hinner : Lines inner [] []) {head ending : String} (hhead : Balanced head)
    (hending : Plain ending) (style : Style) :
    Lines (style.heading head ++ inner.map CodeBridge.indented ++ ["\x7d" ++ ending]) [] [] :=
  ((lines_heading hhead style).append (hinner.indented.under ['\x7d'])).append
    (.cons (Passes.append (.chars rfl) hending.balanced) .nil)

theorem Lines.block {inner : List String} (hinner : Lines inner [] []) {head : String} (hhead : Balanced head)
    (style : Style) : Lines (style.heading head ++ inner.map CodeBridge.indented ++ ["\x7d"]) [] [] :=
  ((lines_heading hhead style).append (hinner.indented.under ['\x7d'])).append (.cons (.chars rfl) .nil)

end Nesting

/-! ### Macro calls -/

namespace Macro

open Nesting

/-- All values of a call are balanced, and all its names are plain. -/
def Balanced (m : Macro) : Prop :=
  m.Every (fun v => ∀ text, v.text? = .ok text → Nesting.Balanced text) Plain

@[simp] theorem balanced_text {text : String} : (Macro.text text).Balanced ↔ Nesting.Balanced text := by
  rw [Balanced, every_text]
  exact ⟨fun h => h text rfl, by rintro h _ ⟨⟩; exact h⟩

@[simp] theorem balanced_call {name : String} {arguments : List Macro} :
    (Macro.call name arguments).Balanced ↔ Plain name ∧ ∀ m ∈ arguments, m.Balanced :=
  every_call

/-- Lines with a last one that is not ended, from the brackets `due` to the brackets `due'`. -/
def Spans (ls : List String) (last : String) (due due' : List Char) : Prop :=
  ∃ open', Lines ls due open' ∧ Passes last ⟨.code, open'⟩ ⟨.code, due'⟩

theorem Spans.indented {ls : List String} {last : String} {due due' : List Char} (h : Spans ls last due due') :
    Spans (ls.map indented) (CodeBridge.indented last) due due' := by
  obtain ⟨between, hls, hlast⟩ := h
  have hblanks : Plain "    " := by decide
  exact ⟨between, hls.indented, (hblanks.inCode between).append hlast⟩

mutual

theorem spans_lines : ∀ (m : Macro) {ls : List String} {last : String}, m.Balanced → m.lines = .ok (ls, last) →
    Spans ls last [] []
  | .value v, ls, last, hm, h => by
    obtain ⟨shown, hshown, h⟩ := exists_of_bind_eq_ok h
    cases h
    exact ⟨[], .nil, hm _ hshown⟩
  | .call name [], ls, last, hm, h => by
    cases h
    have hname : Plain name := hm.1
    exact ⟨[')'], .cons (hname.balanced.append (.chars rfl)) .nil, by decide⟩
  | .call name (argument :: rest), ls, last, hm, h => by
    obtain ⟨hname, hall⟩ := balanced_call.mp hm
    obtain ⟨hargument, hrest⟩ := List.forall_mem_cons.mp hall
    obtain ⟨⟨ls', last'⟩, hlines, h⟩ := exists_of_bind_eq_ok h
    obtain ⟨⟨ls₁, last₁⟩, h₁, hlines⟩ := exists_of_bind_eq_ok hlines
    obtain ⟨⟨ls₂, last₂⟩, h₂, hlines⟩ := exists_of_bind_eq_ok hlines
    cases h
    cases hlines
    obtain ⟨between, hls₁, hlast₁⟩ := spans_lines argument hargument h₁
    obtain ⟨between', hls₂, hlast₂⟩ := spans_furtherLines rest (hlast₁.under [')']) hrest h₂
    obtain ⟨due, hls, hlast⟩ := Spans.indented ⟨between', (hls₁.under [')']).append hls₂, hlast₂⟩
    have hopen : Passes (name ++ "(") ⟨.code, []⟩ ⟨.code, [')']⟩ := hname.balanced.append (.chars rfl)
    exact ⟨due, .cons hopen hls, hlast⟩

/-- The arguments behind one whose line is not ended: the parenthesis of the call is due behind that line. -/
theorem spans_furtherLines : ∀ (arguments : List Macro) {pending : String} {due : List Char} {ls : List String}
    {last : String}, Passes pending ⟨.code, due⟩ ⟨.code, [')']⟩ → (∀ m ∈ arguments, m.Balanced) →
    furtherLines pending arguments = .ok (ls, last) → Spans ls last due []
  | [], pending, due, ls, last, hpending, hall, h => by
    cases h
    exact ⟨due, .nil, hpending.append (.chars rfl)⟩
  | argument :: rest, pending, due, ls, last, hpending, hall, h => by
    obtain ⟨hargument, hrest⟩ := List.forall_mem_cons.mp hall
    obtain ⟨⟨ls', last'⟩, hlines, h⟩ := exists_of_bind_eq_ok h
    obtain ⟨⟨ls₁, last₁⟩, h₁, hlines⟩ := exists_of_bind_eq_ok hlines
    obtain ⟨⟨ls₂, last₂⟩, h₂, hlines⟩ := exists_of_bind_eq_ok hlines
    cases h
    cases hlines
    obtain ⟨between, hls₁, hlast₁⟩ := spans_lines argument hargument h₁
    obtain ⟨between', hls₂, hlast₂⟩ := spans_furtherLines rest (hlast₁.under [')']) hrest h₂
    have hcomma : Passes (pending ++ ",") ⟨.code, due⟩ ⟨.code, [')']⟩ := hpending.append (.chars rfl)
    exact ⟨between', .cons hcomma ((hls₁.under [')']).append hls₂), hlast₂⟩

end

theorem lines_statementLines {m : Macro} (hm : m.Balanced) {ls : List String} (h : m.statementLines = .ok ls) :
    Lines ls [] [] := by
  obtain ⟨⟨init, last⟩, hinit, h⟩ := exists_of_bind_eq_ok h
  cases h
  obtain ⟨between, hls, hlast⟩ := spans_lines m hm hinit
  exact hls.append (.cons (hlast.append (.chars rfl)) .nil)

end Macro

end CodeBridge
