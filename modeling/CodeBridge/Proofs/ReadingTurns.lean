import CodeBridge.Proofs.HeaderSequence

/-! # How far reading gets

A text is read in turns. A turn of the loop over the text reads what starts at one place and goes on at another,
and a turn of the loop over a body takes in one line. In a text of whole lines every turn of either loop goes on
further ahead than it started, so both come to an end (`Ascent`): no body is read for ever, and the definitions
that are found start one behind the other. -/

namespace CodeBridge.Header

open Text
open BodyStep (readBody)
open Evaluator (readFrom)

/-! ### Places -/

/-- Where in the text `whole` the rest of it starts. -/
def index (whole rest : List Char) : Nat :=
  whole.length - rest.length

theorem index_lt_index {whole rest next : List Char} (hrest : rest <:+ whole) (h : next.length < rest.length) :
    index whole rest < index whole next := by
  have hle := hrest.length_le
  unfold index
  omega

theorem suffix_of_afterLine?_eq_some {cs rest : List Char} (h : afterLine? cs = some rest) : rest <:+ cs := by
  induction cs with
  | nil => cases h
  | cons c cs ih =>
    rw [afterLine?] at h
    split at h
    · rw [← Option.some.inj h]
      exact List.suffix_cons c cs
    · exact (ih h).trans (List.suffix_cons c cs)

/-! ### Loops that come to an end -/

/-- A loop over places of the text `whole` comes to an end: its turns lead along `trace` from `a` to a place where
it stops with the outcome `r`, and every place lies behind the one before. -/
structure Ascent {α ρ : Type} (whole : List Char) (turn : α → α → Prop) (stops : α → ρ → Prop) (place : α → List Char)
    (a : α) (r : ρ) (trace : List α) : Prop where
  start : trace.head? = some a
  chain : trace.IsChain turn
  places : ∀ p ∈ trace, place p <:+ whole
  rising : (trace.map fun p => index whole (place p)).Pairwise (· < ·)
  stop : ∃ b ∈ trace.getLast?, stops b r

namespace Ascent
variable {α ρ : Type} {whole : List Char} {turn : α → α → Prop} {stops : α → ρ → Prop} {place : α → List Char}
  {a b : α} {r : ρ} {trace : List α}

theorem single (hplace : place a <:+ whole) (hstop : stops a r) : Ascent whole turn stops place a r [a] where
  start := rfl
  chain := .singleton a
  places := by simpa using hplace
  rising := List.pairwise_singleton _ _
  stop := ⟨a, rfl, hstop⟩

theorem exists_cons (h : Ascent whole turn stops place a r trace) : ∃ rest, trace = a :: rest := by
  obtain ⟨rest, e⟩ := List.head?_eq_some_iff.mp h.start
  exact ⟨rest, e⟩

theorem cons (hplace : place a <:+ whole) (hturn : turn a b) (hlength : (place b).length < (place a).length)
    (h : Ascent whole turn stops place b r trace) : Ascent whole turn stops place a r (a :: trace) := by
  obtain ⟨rest, rfl⟩ := h.exists_cons
  refine ⟨rfl, .cons_cons hturn h.chain, List.forall_mem_cons.mpr ⟨hplace, h.places⟩, ?_, ?_⟩
  · have hlt : index whole (place a) < index whole (place b) := index_lt_index hplace hlength
    have hrising := h.rising
    rw [List.map_cons, List.pairwise_cons] at hrising ⊢
    refine ⟨fun i hi => ?_, List.pairwise_cons.mpr hrising⟩
    rcases List.mem_cons.mp hi with rfl | hi
    · exact hlt
    · exact hlt.trans (hrising.1 i hi)
  · obtain ⟨e, he, hstop⟩ := h.stop
    exact ⟨e, by rwa [List.getLast?_cons_cons], hstop⟩

end Ascent

/-! ### Bodies -/

section
variable {σ : Type}

/-- A turn of the loop over the lines of a body: a line without the closing brace is taken in. A last line that has
no line end sends the loop back to the start of the text. -/
inductive BodyTurn (whole : List Char) (step : List Char → σ → Except Fault σ) : σ × List Char → σ × List Char → Prop
  | line {s s' : σ} {rest next : List Char} (hne : rest ≠ []) (hopen : '\x7d' ∉ lineOf rest)
      (hstep : step rest s = .ok s') (hnext : afterLine? rest = some next) :
      BodyTurn whole step (s, rest) (s', next)
  | round {s s' : σ} {rest : List Char} (hne : rest ≠ []) (hopen : '\x7d' ∉ lineOf rest)
      (hstep : step rest s = .ok s') (hnext : afterLine? rest = none) :
      BodyTurn whole step (s, rest) (s', whole)

/-- Where the loop over the lines of a body stops: at the end of the text, at a closing brace, or with a fault. -/
inductive BodyStops (step : List Char → σ → Except Fault σ) : σ × List Char → Except Fault (σ × List Char) → Prop
  | finish (s : σ) : BodyStops step (s, []) (.ok (s, []))
  | brace {s : σ} {rest : List Char} (h : '\x7d' ∈ lineOf rest) : BodyStops step (s, rest) (.ok (s, rest))
  | fault {s : σ} {rest : List Char} {f : Fault} (hne : rest ≠ []) (hopen : '\x7d' ∉ lineOf rest)
      (h : step rest s = .error f) : BodyStops step (s, rest) (.error f)

/-- The loop over the lines of a body that starts at `rest` comes to an end, and that is how the body is read. -/
def BodyEnds (whole : List Char) (step : List Char → σ → Except Fault σ) (s : σ) (rest : List Char) : Prop :=
  ∃ r trace, Ascent whole (BodyTurn whole step) (BodyStops step) Prod.snd (s, rest) r trace ∧
    readBody whole step s rest = some r

variable {u whole : List Char}

theorem Detached.scan_ascends (h : Detached [] u) (hu : u <:+ whole) (step : List Char → σ → Except Fault σ) (s : σ) :
    ∃ r trace, Ascent whole (BodyTurn whole step) (BodyStops step) Prod.snd (s, u) r trace ∧
      scanBody step s u = r.map fun p => (p.1, some p.2) := by
  induction hn : u.length using Nat.strong_induction_on generalizing u s with
  | _ n ih =>
    subst hn
    by_cases hne : u = []
    · subst hne
      exact ⟨_, _, .single hu (.finish s), by rw [scanBody]; rfl⟩
    obtain ⟨l, rest, hl, rfl⟩ := h.exists_line hne
    have hline := lineOf_line hl rest
    by_cases hb : '\x7d' ∈ l
    · have hbrace := mem_trim (by decide) hb
      exact ⟨_, _, .single hu (.brace (by rwa [hline])), scanBody_close hl hbrace s rest⟩
    have hopen : '\x7d' ∉ lineOf (l ++ '\n' :: rest) := by
      rw [hline]
      exact fun hm => hb ((trim_isInfix l).subset hm)
    rw [scanBody_line hl hb]
    cases hstep : step (l ++ '\n' :: rest) s with
    | error f => exact ⟨.error f, _, .single hu (.fault hne hopen hstep), rfl⟩
    | ok s' =>
      -- What stands behind the line is shorter, and again made of whole lines.
      have hlength : rest.length < (l ++ '\n' :: rest).length := by
        rw [List.length_append, List.length_cons]
        omega
      have hafter := afterLine?_line hl rest
      obtain ⟨r, trace, hascent, hscan⟩ := ih rest.length hlength (h.behind (by decide) (by decide))
        ((suffix_of_afterLine?_eq_some hafter).trans hu) s' rfl
      exact ⟨r, _, .cons hu (.line hne hopen hstep hafter) hlength hascent, hscan⟩

theorem Detached.bodyEnds (h : Detached [] u) (hu : u <:+ whole) (step : List Char → σ → Except Fault σ) (s : σ) :
    BodyEnds whole step s u := by
  obtain ⟨r, trace, hascent, hscan⟩ := h.scan_ascends hu step s
  refine ⟨r, trace, hascent, ?_⟩
  cases r with
  | error f => exact readBody_of_fault hscan whole
  | ok p => exact readBody_of_scan hscan whole

theorem BodyStops.place_eq {step : List Char → σ → Except Fault σ} {p : σ × List Char} {s : σ} {v : List Char}
    (h : BodyStops step p (.ok (s, v))) : p.2 = v := by
  cases h with
  | finish => rfl
  | brace => rfl

/-- A body of whole lines fails, or it ends somewhere behind its start. -/
theorem Detached.readBody_cases (h : Detached [] u) (whole : List Char) (step : List Char → σ → Except Fault σ) (s : σ) :
    (∃ f, readBody whole step s u = some (.error f)) ∨
      ∃ s' v, v <:+ u ∧ scanBody step s u = .ok (s', some v) ∧ readBody whole step s u = some (.ok (s', v)) := by
  obtain ⟨r, trace, hascent, hscan⟩ := h.scan_ascends (List.suffix_refl u) step s
  cases r with
  | error f => exact .inl ⟨f, readBody_of_fault hscan whole⟩
  | ok p =>
    obtain ⟨s', v⟩ := p
    obtain ⟨b, hb, hstop⟩ := hascent.stop
    have hsuffix := hascent.places b (List.mem_of_getLast? hb)
    rw [hstop.place_eq] at hsuffix
    exact .inr ⟨s', v, hsuffix, hscan, readBody_of_scan hscan whole⟩

end

/-! ### Definitions -/

namespace Definitions

/-- The definitions with one more constant, if there is one. -/
def note (d : Definitions) : Option Entry → Definitions
  | some e => d.addConstant e
  | none => d

/-- The number of definitions. -/
def size (d : Definitions) : Nat :=
  d.constants.length + d.enumerations.length + d.structs.length

theorem size_addConstant (d : Definitions) (e : Entry) : (d.addConstant e).size = d.size + 1 := by
  simp only [size, addConstant, List.length_append, List.length_singleton]
  omega

theorem size_addEnumeration (d : Definitions) (g : Group) : (d.addEnumeration g).size = d.size + 1 := by
  simp only [size, addEnumeration, List.length_append, List.length_singleton]
  omega

theorem size_addStruct (d : Definitions) (g : Group) : (d.addStruct g).size = d.size + 1 := by
  simp only [size, addStruct, List.length_append, List.length_singleton]
  omega

end Definitions

/-- A kind of definition that has a body: its keyword, how the lines of the body are taken in, and where the group
of its members goes. -/
structure Kind where
  keyword : List Char
  State : Type
  step : List Char → State → Except Fault State
  start : State
  members : State → List Entry
  add : Definitions → Group → Definitions
  keyword_solid : Solid keyword
  keyword_line : '\n' ∉ keyword
  keyword_brace : '\x7d' ∉ keyword
  step_blank : ∀ rest s, lineOf rest = [] → step rest s = .ok s
  size_add : ∀ d g, (add d g).size = d.size + 1

namespace Kind

/-- Enumerations, for the values of their initialisers. -/
def enumeration (value : List Char → Counting → String → Except Fault (String × Int)) : Kind where
  keyword := "enum".toList
  State := Counting
  step line s := countMember (value line s) s (lineOf line)
  start := ⟨[], 0⟩
  members := Counting.members
  add := Definitions.addEnumeration
  keyword_solid := ⟨⟨'e', rfl, rfl⟩, ⟨'m', rfl, rfl⟩⟩
  keyword_line := by decide
  keyword_brace := by decide
  step_blank rest s h := by
    rw [h]
    rfl
  size_add := Definitions.size_addEnumeration

def struct : Kind where
  keyword := "struct".toList
  State := List Entry
  step := onLine addField
  start := []
  members := id
  add := Definitions.addStruct
  keyword_solid := ⟨⟨'s', rfl, rfl⟩, ⟨'t', rfl, rfl⟩⟩
  keyword_line := by decide
  keyword_brace := by decide
  step_blank rest s h := by
    rw [onLine, h]
    rfl
  size_add := Definitions.size_addStruct

/-- The group of a kind that opens at `rest`, and the text where its body ends. -/
def read (k : Kind) (whole rest : List Char) : Option (Except Fault (Option (Group × List Char))) :=
  readGroup k.keyword k.step k.start k.members whole rest

theorem read_eq (k : Kind) {rest inside : List Char} {name : String} (h : opening? k.keyword rest = some (name, inside))
    (whole : List Char) : k.read whole rest =
      (readBody whole k.step k.start inside).map fun r => r.map fun p => some (⟨name, k.members p.1, none⟩, p.2) := by
  simp only [read, readGroup, h]

/-- A group that is read has the members of its body and goes on where the body ends. -/
theorem of_read_eq_some {k : Kind} {whole rest inside v : List Char} {name : String} {g : Group}
    (hopen : opening? k.keyword rest = some (name, inside)) (h : k.read whole rest = some (.ok (some (g, v)))) :
    ∃ s, readBody whole k.step k.start inside = some (.ok (s, v)) ∧ g = ⟨name, k.members s, none⟩ := by
  rw [k.read_eq hopen] at h
  rcases hbody : readBody whole k.step k.start inside with _ | f | ⟨s, v'⟩
  · rw [hbody] at h
    cases h
  · rw [hbody] at h
    cases h
  · rw [hbody] at h
    cases h
    exact ⟨s, rfl, rfl⟩

theorem read_eq_error_iff {k : Kind} {whole rest inside : List Char} {name : String} {f : Fault}
    (hopen : opening? k.keyword rest = some (name, inside)) :
    k.read whole rest = some (.error f) ↔ readBody whole k.step k.start inside = some (.error f) := by
  rw [k.read_eq hopen]
  rcases readBody whole k.step k.start inside with _ | f' | p <;> simp [Except.map]

theorem read_ne_none {k : Kind} {rest inside : List Char} {name : String} (hopen : opening? k.keyword rest = some (name, inside))
    (whole : List Char) : k.read whole rest ≠ some (.ok none) := by
  rw [k.read_eq hopen]
  rcases readBody whole k.step k.start inside with _ | f | p <;> rintro ⟨⟩

end Kind

/-- A kind of group that is read at `rest` in the text `whole`, with the definitions `d` found before. -/
inductive KindAt (ev : Evaluator) (whole rest : List Char) (d : Definitions) : Kind → Prop
  | enumeration : KindAt ev whole rest d (.enumeration fun line s => ev ⟨whole, d, rest, line, s⟩)
  | struct : KindAt ev whole rest d .struct

/-- No body opens at this place. -/
structure Bodiless (rest : List Char) : Prop where
  enumeration : opening? "enum".toList rest = none
  struct : opening? "struct".toList rest = none

theorem KindAt.opening?_eq_none {ev : Evaluator} {whole rest : List Char} {d : Definitions} {k : Kind}
    (hk : KindAt ev whole rest d k) (h : Bodiless rest) : opening? k.keyword rest = none := by
  cases hk with
  | enumeration => exact h.enumeration
  | struct => exact h.struct

section
variable {add : Group → Definitions} {d d' : Definitions} {r : Option (Except Fault (Option (Group × List Char)))}

theorem taken_eq_error_iff {f : Fault} : r.map (taken add d) = some (.error f, d') ↔ r = some (.error f) ∧ d' = d := by
  rcases r with _ | f' | _ | ⟨g, rest⟩ <;> simp [taken, eq_comm]

theorem taken_eq_none_iff : r.map (taken add d) = some (.ok none, d') ↔ r = some (.ok none) ∧ d' = d := by
  rcases r with _ | f | _ | ⟨g, rest⟩ <;> simp [taken, eq_comm]

theorem taken_eq_some_iff {next : List Char} :
    r.map (taken add d) = some (.ok (some next), d') ↔ ∃ g, r = some (.ok (some (g, next))) ∧ d' = add g := by
  rcases r with _ | f | _ | ⟨g, rest⟩ <;> simp [taken, eq_comm]

end

theorem startsWith_iff {start cs : List Char} : startsWith start cs = true ↔ start <+: cs := by
  rw [startsWith, Option.isSome_iff_exists]
  constructor
  · rintro ⟨rest, h⟩
    exact ⟨rest, (behind?_eq_some_iff.mp h).symm⟩
  · rintro ⟨rest, h⟩
    exact ⟨rest, behind?_eq_some_iff.mpr h.symm⟩

theorem constant?_eq_none {line : List Char} (h : startsWith "#define".toList line = false) : constant? line = none := by
  have hnone : behind? "#define".toList line = none := by simpa [startsWith] using h
  rw [constant?, hnone]
  rfl

/-- A line on which a body opens starts with the keyword, even if its last character is cut. -/
theorem Kind.keyword_prefix_lineOf (k : Kind) {rest : List Char} {p : String × List Char}
    (h : opening? k.keyword rest = some p) : k.keyword <+: lineOf rest := by
  obtain ⟨gap, word, gap', hgap, -, -, -, rfl⟩ := opening?_eq_some_iff.mp h
  generalize htail : gap ++ (word ++ (gap' ++ '\x7b' :: p.2)) = tail
  by_cases hm : '\n' ∈ tail
  · obtain ⟨t, ht⟩ := lineOf_append k.keyword_solid k.keyword_line hm
    exact ⟨t, ht.symm⟩
  · have hne : tail ≠ [] := by
      rw [← htail]
      exact List.append_ne_nil_of_left_ne_nil hgap.1 _
    obtain ⟨t, ht⟩ := k.keyword_solid.trim_append tail.dropLast
    have hline : lineOf (k.keyword ++ tail) = trim (k.keyword ++ tail.dropLast) := by
      rw [lineOf, if_neg (by simp [k.keyword_line, hm]), List.dropLast_append_of_ne_nil hne]
    exact ⟨t, (hline.trans ht).symm⟩

section
variable {ev : Evaluator} {whole rest : List Char} {d d' : Definitions}

/-- Where a body opens its group is read. -/
theorem readDefinition_of_opening {k : Kind} (hk : KindAt ev whole rest d k) {p : String × List Char}
    (h : opening? k.keyword rest = some p) :
    readDefinition ev whole rest d = (k.read whole rest).map (taken (k.add d) d) := by
  obtain ⟨t, ht⟩ := k.keyword_prefix_lineOf h
  have hkeyword : startsWith k.keyword (lineOf rest) = true := startsWith_iff.mpr ⟨t, ht⟩
  have hdefine : startsWith "#define".toList (lineOf rest) = false := by
    rw [← ht]
    cases hk <;> rfl
  cases hk with
  | enumeration =>
    simp only [readDefinition, hdefine, show startsWith "enum".toList (lineOf rest) = true from hkeyword,
      Bool.false_eq_true, if_false, if_true]
    rfl
  | struct =>
    have hother : startsWith "enum".toList (lineOf rest) = false := by
      rw [← ht]
      rfl
    simp only [readDefinition, hdefine, hother, show startsWith "struct".toList (lineOf rest) = true from hkeyword,
      Bool.false_eq_true, if_false, if_true]
    rfl

/-- Where no body opens a macro is noted, if the line is one. -/
theorem Bodiless.readDefinition (h : Bodiless rest) (ev : Evaluator) (whole : List Char) (d : Definitions) :
    Header.readDefinition ev whole rest d = some (.ok none, d.note (constant? (lineOf rest))) := by
  have henum : readEnumeration ev d whole rest = some (.ok none) := by rw [readEnumeration, readGroup, h.enumeration]
  have hstruct : readStruct whole rest = some (.ok none) := by rw [readStruct, readGroup, h.struct]
  simp only [Header.readDefinition, henum, hstruct]
  by_cases hdefine : startsWith "#define".toList (lineOf rest) = true
  · rw [if_pos hdefine]
    cases constant? (lineOf rest) with
    | some e => rfl
    | none => rfl
  · rw [if_neg hdefine, constant?_eq_none (Bool.not_eq_true _ ▸ hdefine)]
    split
    · rfl
    split
    · rfl
    · rfl

/-- At a place a body opens, of one of the two kinds, or none does. -/
theorem bodiless_or_opening (ev : Evaluator) (whole rest : List Char) (d : Definitions) :
    Bodiless rest ∨ ∃ k name inside, KindAt ev whole rest d k ∧ opening? k.keyword rest = some (name, inside) := by
  cases henum : opening? "enum".toList rest with
  | some p => exact .inr ⟨_, p.1, p.2, .enumeration, henum⟩
  | none =>
    cases hstruct : opening? "struct".toList rest with
    | some p => exact .inr ⟨_, p.1, p.2, .struct, hstruct⟩
    | none => exact .inl ⟨henum, hstruct⟩

/-- What was read at a place without a failure: a group whose body ends at the next place, or a line. -/
theorem of_readDefinition_eq_ok {next : Option (List Char)} (h : readDefinition ev whole rest d = some (.ok next, d')) :
    (∃ k, KindAt ev whole rest d k ∧ ∃ name inside g v, opening? k.keyword rest = some (name, inside) ∧
      k.read whole rest = some (.ok (some (g, v))) ∧ next = some v ∧ d' = k.add d g) ∨
    (Bodiless rest ∧ next = none ∧ d' = d.note (constant? (lineOf rest))) := by
  rcases bodiless_or_opening ev whole rest d with hnone | ⟨k, name, inside, hk, hopen⟩
  · rw [hnone.readDefinition] at h
    cases h
    exact .inr ⟨hnone, rfl, rfl⟩
  · rw [readDefinition_of_opening hk hopen] at h
    cases next with
    | none => exact absurd (taken_eq_none_iff.mp h).1 (k.read_ne_none hopen whole)
    | some v =>
      obtain ⟨g, hgroup, rfl⟩ := taken_eq_some_iff.mp h
      exact .inl ⟨k, hk, name, inside, g, v, hopen, hgroup, rfl, rfl⟩

theorem bodiless_of_readDefinition (h : readDefinition ev whole rest d = some (.ok none, d')) : Bodiless rest := by
  rcases of_readDefinition_eq_ok h with ⟨_, _, _, _, _, _, _, _, hsome, _⟩ | ⟨hnone, -, -⟩
  · cases hsome
  · exact hnone

/-- What fails at a place is a group, and the definitions stay as they were. -/
theorem of_readDefinition_eq_error {f : Fault} (h : readDefinition ev whole rest d = some (.error f, d')) :
    (∃ k, KindAt ev whole rest d k ∧ ∃ name inside, opening? k.keyword rest = some (name, inside) ∧
      k.read whole rest = some (.error f)) ∧ d' = d := by
  rcases bodiless_or_opening ev whole rest d with hnone | ⟨k, name, inside, hk, hopen⟩
  · rw [hnone.readDefinition] at h
    cases h
  · rw [readDefinition_of_opening hk hopen] at h
    obtain ⟨hgroup, rfl⟩ := taken_eq_error_iff.mp h
    exact ⟨⟨k, hk, name, inside, hopen, hgroup⟩, rfl⟩

/-- At a place at most one definition is found. -/
theorem size_of_readDefinition {next : Option (List Char)} (h : readDefinition ev whole rest d = some (.ok next, d')) :
    d' = d ∨ d'.size = d.size + 1 := by
  rcases of_readDefinition_eq_ok h with ⟨k, -, -, -, g, -, -, -, -, rfl⟩ | ⟨-, -, rfl⟩
  · exact .inr (k.size_add d g)
  · cases constant? (lineOf rest) with
    | none => exact .inl rfl
    | some e => exact .inr (d.size_addConstant e)

/-- In a text of whole lines what starts at a place fails, is a line, or ends further ahead. -/
theorem Detached.readDefinition_cases {u : List Char} (h : Detached [] u) (ev : Evaluator) (whole : List Char) (d : Definitions) :
    (∃ f, readDefinition ev whole u d = some (.error f, d)) ∨ (∃ d', readDefinition ev whole u d = some (.ok none, d')) ∨
      ∃ v d', v <:+ u ∧ v.length < u.length ∧ readDefinition ev whole u d = some (.ok (some v), d') := by
  rcases bodiless_or_opening ev whole u d with hnone | ⟨k, name, inside, hk, hopen⟩
  · exact .inr (.inl ⟨_, hnone.readDefinition ev whole d⟩)
  have hread := readDefinition_of_opening hk hopen
  rw [k.read_eq hopen] at hread
  obtain ⟨start, -, rfl, -⟩ := brace_not_mem_opening k.keyword_brace hopen
  rcases (h.behind (by decide) (by decide)).readBody_cases whole k.step k.start with ⟨f, hbody⟩ | ⟨s, v, hv, -, hbody⟩
  · rw [hbody] at hread
    exact .inl ⟨f, hread⟩
  · rw [hbody] at hread
    refine .inr (.inr ⟨v, _, hv.trans ((List.suffix_cons _ _).trans (List.suffix_append _ _)), ?_, hread⟩)
    have hle := hv.length_le
    rw [List.length_append, List.length_cons]
    omega

end

/-! ### Whole headers -/

/-- A turn of the loop over a text: what starts at a place is read, and reading goes on where its body ends or, if it
has none, on the next line. -/
inductive Turn (ev : Evaluator) (whole : List Char) : Definitions × List Char → Definitions × List Char → Prop
  | body {d d' : Definitions} {rest next : List Char} (hne : rest ≠ [])
      (hread : readDefinition ev whole rest d = some (.ok (some next), d')) : Turn ev whole (d, rest) (d', next)
  | line {d d' : Definitions} {rest next : List Char} (hne : rest ≠ [])
      (hread : readDefinition ev whole rest d = some (.ok none, d')) (hnext : afterLine? rest = some next) :
      Turn ev whole (d, rest) (d', next)

/-- Where the loop over a text stops: at its end, behind a last line that has no line end, or with a fault. -/
inductive Stops (ev : Evaluator) (whole : List Char) : Definitions × List Char → Except Fault Unit × Definitions → Prop
  | finish (d : Definitions) : Stops ev whole (d, []) (.ok (), d)
  | unended {d d' : Definitions} {rest : List Char} (hne : rest ≠ [])
      (hread : readDefinition ev whole rest d = some (.ok none, d')) (hnext : afterLine? rest = none) :
      Stops ev whole (d, rest) (.ok (), d')
  | fault {d d' : Definitions} {rest : List Char} {f : Fault} (hne : rest ≠ [])
      (hread : readDefinition ev whole rest d = some (.error f, d')) : Stops ev whole (d, rest) (.error f, d')

/-- The places at which the turns of a trace have found a definition. -/
def starts (whole : List Char) : List (Definitions × List Char) → List Nat
  | p :: q :: trace => if p.1 = q.1 then starts whole (q :: trace) else index whole p.2 :: starts whole (q :: trace)
  | _ => []

theorem starts_sublist (whole : List Char) (trace : List (Definitions × List Char)) :
    (starts whole trace).Sublist (trace.map fun p => index whole p.2) := by
  fun_induction starts whole trace with
  | case1 p q trace h ih => exact ih.cons _
  | case2 p q trace h ih => exact ih.cons_cons _
  | case3 => exact List.nil_sublist _

section
variable {ev : Evaluator} {whole : List Char}

theorem Turn.size {p q : Definitions × List Char} (h : Turn ev whole p q) : q.1 = p.1 ∨ q.1.size = p.1.size + 1 := by
  cases h with
  | body hne hread => exact size_of_readDefinition hread
  | line hne hread hnext => exact size_of_readDefinition hread

/-- Along a trace there are as many starts as definitions found. -/
theorem length_starts {p q : Definitions × List Char} {trace : List (Definitions × List Char)}
    (hchain : (p :: trace).IsChain (Turn ev whole)) (hlast : (p :: trace).getLast? = some q) :
    p.1.size + (starts whole (p :: trace)).length = q.1.size := by
  induction trace generalizing p with
  | nil =>
    cases hlast
    rfl
  | cons r trace ih =>
    rw [List.isChain_cons_cons] at hchain
    rw [List.getLast?_cons_cons] at hlast
    have hrest := ih hchain.2 hlast
    rw [starts]
    split
    · next e => rw [e, hrest]
    · next hne =>
      rcases hchain.1.size with e | hsize
      · exact absurd e.symm hne
      · rw [List.length_cons]
        omega

theorem Detached.of_isSuffix {u v : List Char} (h : Detached [] u) (hv : v <:+ u) : Detached [] v where
  lines hne := by
    obtain ⟨a, rfl⟩ := hv
    have hlast := h.lines (List.append_ne_nil_of_right_ne_nil a hne)
    rwa [List.getLast?_append_of_ne_nil a hne] at hlast
  closed _ hmore := absurd rfl hmore

theorem Detached.ascends {u : List Char} (h : Detached [] u) (ev : Evaluator) (hu : u <:+ whole) (d : Definitions) :
    ∃ r trace, Ascent whole (Turn ev whole) (Stops ev whole) Prod.snd (d, u) r trace ∧ readFrom ev whole u d = some r := by
  induction hn : u.length using Nat.strong_induction_on generalizing u d with
  | _ n ih =>
    subst hn
    by_cases hne : u = []
    · subst hne
      exact ⟨_, _, .single hu (.finish d), readFrom_nil ev whole d⟩
    -- A turn either raises a fault, or passes a line, or goes on at the end of a body.
    have next : ∀ {v : List Char} {d' : Definitions}, v <:+ u → v.length < u.length → Turn ev whole (d, u) (d', v) →
        readFrom ev whole u d = readFrom ev whole v d' →
        ∃ r trace, Ascent whole (Turn ev whole) (Stops ev whole) Prod.snd (d, u) r trace ∧ readFrom ev whole u d = some r := by
      intro v d' hv hlength hstep hfrom
      obtain ⟨r, trace, hascent, hr⟩ := ih v.length hlength (h.of_isSuffix hv) (hv.trans hu) d' rfl
      exact ⟨r, _, .cons hu hstep hlength hascent, hfrom.trans hr⟩
    rcases h.readDefinition_cases ev whole d with ⟨f, hread⟩ | ⟨d', hread⟩ | ⟨v, d', hv, hlength, hread⟩
    · exact ⟨_, _, .single hu (.fault hne hread), readFrom_of_error hne hread⟩
    · obtain ⟨l, rest, hl, rfl⟩ := h.exists_line hne
      have hafter := afterLine?_line hl rest
      exact next (suffix_of_afterLine?_eq_some hafter) (length_of_afterLine?_eq_some hafter) (.line hne hread hafter)
        (readFrom_of_none hne hread hafter)
    · exact next hv hlength (.body hne hread) (readFrom_of_some hne hread)

/-- In a text of whole lines the loop stops with the definitions it has come with. -/
theorem Detached.state_of_stops {rest : List Char} {d d' : Definitions} {r : Except Fault Unit} (h : Detached [] rest)
    (hstop : Stops ev whole (d, rest) (r, d')) : d' = d := by
  cases hstop with
  | finish => rfl
  | unended hne hread hnext =>
    obtain ⟨l, more, hl, rfl⟩ := h.exists_line hne
    rw [afterLine?_line hl] at hnext
    cases hnext
  | fault hne hread => exact (of_readDefinition_eq_error hread).2

end

/-- A text of whole lines is read in finitely many turns, of the loop over the text as of the loop over each body, whatever
its initialisers stand for: the place goes up with every turn, reading ends with what has been found or with a fault, and
every definition that is found starts behind the one found before. -/
theorem reading_ends (ev : Evaluator) {c : List Char} (h : c = [] ∨ c.getLast? = some '\n') (d : Definitions) :
    ∃ r d' trace, read ev (unifyLineEnds c) d = some (r, d') ∧
      Ascent (unifyLineEnds c) (Turn ev (unifyLineEnds c)) (Stops ev (unifyLineEnds c)) Prod.snd (d, unifyLineEnds c) (r, d')
        trace ∧
      (starts (unifyLineEnds c) trace).Pairwise (· < ·) ∧
      d.size + (starts (unifyLineEnds c) trace).length = d'.size ∧
      ∀ rest, rest <:+ unifyLineEnds c → ∀ found k, KindAt ev (unifyLineEnds c) rest found k → ∀ name inside,
        opening? k.keyword rest = some (name, inside) → BodyEnds (unifyLineEnds c) k.step k.start inside := by
  have hlines : Detached [] (unifyLineEnds c) := by
    rcases h with rfl | h
    · exact .nil []
    · exact .of_suffix_line (unifyLineEnds_lines (List.singleton_suffix_iff_getLast?_eq_some.mpr h))
  obtain ⟨⟨r, d'⟩, trace, hascent, hread⟩ := hlines.ascends ev (List.suffix_refl _) d
  obtain ⟨⟨e, rest⟩, hlast, hstop⟩ := hascent.stop
  have hrest : rest <:+ unifyLineEnds c := hascent.places _ (List.mem_of_getLast? hlast)
  obtain rfl := (hlines.of_isSuffix hrest).state_of_stops hstop
  refine ⟨r, d', trace, hread, hascent, hascent.rising.sublist (starts_sublist _ trace), ?_, ?_⟩
  · obtain ⟨more, rfl⟩ := hascent.exists_cons
    exact length_starts hascent.chain hlast
  · intro rest hrest found k _ name inside hopen
    obtain ⟨start, -, rfl, -⟩ := brace_not_mem_opening k.keyword_brace hopen
    have hinside : inside <:+ unifyLineEnds c :=
      ((List.suffix_cons '\x7b' inside).trans (List.suffix_append start _)).trans hrest
    exact (hlines.of_isSuffix hinside).bodyEnds hinside k.step k.start

/-- A struct that opens in the middle of a line and an enumeration inside it, neither of which is closed. -/
def unclosedText : List Char :=
  "#define N 3\nstruct S \x7bint x;\nenum E \x7b\n  A = 1\n".toList

theorem reading_ends_unclosed : unclosedText.getLast? = some '\n' ∧
    ∃ r d' trace, read (.ofText Initializer.evaluate) (unifyLineEnds unclosedText) {} = some (r, d') ∧
      Ascent (unifyLineEnds unclosedText) (Turn (.ofText Initializer.evaluate) (unifyLineEnds unclosedText))
        (Stops (.ofText Initializer.evaluate) (unifyLineEnds unclosedText)) Prod.snd ({}, unifyLineEnds unclosedText) (r, d') trace ∧
      (starts (unifyLineEnds unclosedText) trace).Pairwise (· < ·) ∧
      (starts (unifyLineEnds unclosedText) trace).length = d'.size := by
  have hlast : unclosedText.getLast? = some '\n' := rfl
  obtain ⟨r, d', trace, hread, hascent, hstarts, hsize, -⟩ := reading_ends (.ofText Initializer.evaluate) (.inr hlast) {}
  exact ⟨hlast, r, d', trace, hread, hascent, hstarts, (Nat.zero_add _).symm.trans hsize⟩

end CodeBridge.Header
