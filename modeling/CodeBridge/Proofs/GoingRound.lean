import CodeBridge.Proofs.ReadingTurns

/-! # Bodies that go round the text

What is read is what a finite run of turns comes to (`readFrom_eq_some_iff`). Where a turn leads does not hang on what
has been found before, nor on what initialisers stand for: only braces end a body (`bodyEnd`).

A body that meets a last line without a line end goes on at the start of the text. If it then comes to a closing
brace, reading goes on from there and comes to the place of the same body again. So reading such a text can fail, or
go on for ever, but it never comes to the end of the text (`Unended.not_returns`). -/

namespace CodeBridge.Header

open Text Relation
open BodyStep (readBody)
open Evaluator (readFrom)

/-! ### Runs -/

section
variable {ev : Evaluator} {whole : List Char}

theorem Turn.unique {a b c : Definitions × List Char} (hb : Turn ev whole a b) (hc : Turn ev whole a c) : b = c := by
  cases hb with
  | body hne hread =>
    cases hc with
    | body hne' hread' =>
      cases hread.symm.trans hread'
      rfl
    | line hne' hread' hnext => cases hread.symm.trans hread'
  | line hne hread hnext =>
    cases hc with
    | body hne' hread' => cases hread.symm.trans hread'
    | line hne' hread' hnext' =>
      cases hread.symm.trans hread'
      cases hnext.symm.trans hnext'
      rfl

theorem Turn.readFrom {a b : Definitions × List Char} (h : Turn ev whole a b) :
    Evaluator.readFrom ev whole a.2 a.1 = Evaluator.readFrom ev whole b.2 b.1 := by
  cases h with
  | body hne hread => exact readFrom_of_some hne hread
  | line hne hread hnext => exact readFrom_of_none hne hread hnext

theorem readFrom_of_path {a b : Definitions × List Char} (h : ReflTransGen (Turn ev whole) a b) :
    readFrom ev whole a.2 a.1 = readFrom ev whole b.2 b.1 := by
  induction h with
  | refl => rfl
  | tail _ hturn ih => exact ih.trans hturn.readFrom

theorem Stops.readFrom {a : Definitions × List Char} {r : Except Fault Unit × Definitions} (h : Stops ev whole a r) :
    Evaluator.readFrom ev whole a.2 a.1 = some r := by
  cases h with
  | finish d => exact readFrom_nil ev whole d
  | unended hne hread hnext => exact readFrom_of_last hne hread hnext
  | fault hne hread => exact readFrom_of_error hne hread

/-- What is read from a place on is what a run of turns that starts there stops with. -/
theorem readFrom_eq_some_iff {rest : List Char} {d : Definitions} {r : Except Fault Unit × Definitions} :
    readFrom ev whole rest d = some r ↔ ∃ b, ReflTransGen (Turn ev whole) (d, rest) b ∧ Stops ev whole b r := by
  constructor
  · refine Evaluator.readFrom.partial_correctness ev whole
      (fun rest d r => ∃ b, ReflTransGen (Turn ev whole) (d, rest) b ∧ Stops ev whole b r) ?_ rest d r
    intro recur ih rest d r h
    by_cases hne : rest = []
    · subst hne
      cases h
      exact ⟨_, .refl, .finish d⟩
    have hturn : ∀ {next : List Char} {d' : Definitions}, Turn ev whole (d, rest) (d', next) → recur next d' = some r →
        ∃ b, ReflTransGen (Turn ev whole) (d, rest) b ∧ Stops ev whole b r := by
      intro next d' hturn hrec
      obtain ⟨b, hpath, hstop⟩ := ih next d' r hrec
      exact ⟨b, hpath.head hturn, hstop⟩
    rw [if_neg (by simpa using hne)] at h
    rcases hread : readDefinition ev whole rest d with _ | ⟨fault | _ | next, d'⟩
    · rw [hread] at h
      cases h
    · rw [hread] at h
      cases h
      exact ⟨_, .refl, .fault hne hread⟩
    · rw [hread] at h
      cases hafter : afterLine? rest with
      | some next =>
        simp only [Option.bind_eq_bind, Option.bind_some, hafter] at h
        exact hturn (.line hne hread hafter) h
      | none =>
        simp only [Option.bind_eq_bind, Option.bind_some, hafter] at h
        cases h
        exact ⟨_, .refl, .unended hne hread hafter⟩
    · rw [hread] at h
      exact hturn (.body hne hread) h
  · rintro ⟨b, hpath, hstop⟩
    exact (readFrom_of_path hpath).trans hstop.readFrom

end

/-! ### Definitions that are added -/

/-- `d'` has the rows of `d` and perhaps more behind them. -/
structure Definitions.Grown (d d' : Definitions) : Prop where
  constants : d.constants <+: d'.constants
  enumerations : d.enumerations <+: d'.enumerations
  structs : d.structs <+: d'.structs

namespace Definitions.Grown
variable {d e f : Definitions}

theorem refl (d : Definitions) : d.Grown d :=
  ⟨List.prefix_rfl, List.prefix_rfl, List.prefix_rfl⟩

theorem trans (h₁ : d.Grown e) (h₂ : e.Grown f) : d.Grown f :=
  ⟨h₁.constants.trans h₂.constants, h₁.enumerations.trans h₂.enumerations, h₁.structs.trans h₂.structs⟩

theorem note (d : Definitions) (e : Option Entry) : d.Grown (d.note e) := by
  cases e with
  | none => exact refl d
  | some e => exact ⟨List.prefix_append _ _, List.prefix_rfl, List.prefix_rfl⟩

theorem add {ev : Evaluator} {whole rest : List Char} {k : Kind} (hk : KindAt ev whole rest d k) (g : Group) :
    d.Grown (k.add d g) := by
  cases hk with
  | enumeration => exact ⟨List.prefix_rfl, List.prefix_append _ _, List.prefix_rfl⟩
  | struct => exact ⟨List.prefix_rfl, List.prefix_rfl, List.prefix_append _ _⟩

end Definitions.Grown

section
variable {ev : Evaluator} {whole : List Char}

theorem grown_of_readDefinition {rest : List Char} {d d' : Definitions} {next : Option (List Char)}
    (h : readDefinition ev whole rest d = some (.ok next, d')) : d.Grown d' := by
  rcases of_readDefinition_eq_ok h with ⟨k, hk, _, _, g, _, _, _, _, rfl⟩ | ⟨-, -, rfl⟩
  · exact .add hk g
  · exact .note d _

theorem Turn.grown {a b : Definitions × List Char} (h : Turn ev whole a b) : a.1.Grown b.1 := by
  cases h with
  | body hne hread => exact grown_of_readDefinition hread
  | line hne hread hnext => exact grown_of_readDefinition hread

/-- Rows that were found stay as they are. -/
theorem grown_of_path {a b : Definitions × List Char} (h : ReflTransGen (Turn ev whole) a b) : a.1.Grown b.1 := by
  induction h with
  | refl => exact .refl _
  | tail _ hturn ih => exact ih.trans hturn.grown

theorem grown_of_readFrom {rest : List Char} {d d' : Definitions} {r : Except Fault Unit}
    (h : readFrom ev whole rest d = some (r, d')) : d.Grown d' := by
  obtain ⟨b, hpath, hstop⟩ := readFrom_eq_some_iff.mp h
  refine (grown_of_path hpath).trans ?_
  cases hstop with
  | finish => exact .refl _
  | unended hne hread hnext => exact grown_of_readDefinition hread
  | fault hne hread =>
    rw [(of_readDefinition_eq_error hread).2]
    exact .refl _

end

/-! ### Lines with a closing brace -/

/-- The line at this place has a closing brace. -/
def Closes (rest : List Char) : Prop :=
  '\x7d' ∈ lineOf rest

theorem closes_line {l : List Char} (hl : '\n' ∉ l) (rest : List Char) : Closes (l ++ '\n' :: rest) ↔ '\x7d' ∈ l := by
  rw [Closes, lineOf_line hl]
  exact ⟨fun h => (trim_isInfix l).subset h, mem_trim (by decide)⟩

theorem lineOf_of_not_mem {u : List Char} (hl : '\n' ∉ u) : lineOf u = trim u.dropLast := by
  rw [lineOf, if_neg (by simpa using hl)]

theorem closes_last {u : List Char} (hl : '\n' ∉ u) : Closes u ↔ '\x7d' ∈ u.dropLast := by
  rw [Closes, lineOf_of_not_mem hl]
  exact ⟨fun h => (trim_isInfix _).subset h, mem_trim (by decide)⟩

theorem afterLine?_of_not_mem {u : List Char} (hl : '\n' ∉ u) : afterLine? u = none := by
  cases h : afterLine? u with
  | none => rfl
  | some rest =>
    induction u with
    | nil => cases h
    | cons c u ih =>
      rw [List.mem_cons, not_or] at hl
      rw [afterLine?, if_neg (by simpa using Ne.symm hl.1)] at h
      exact ih hl.2 h

/-- A text is one line, or it has a first line. -/
theorem exists_line_or_not_mem (u : List Char) : '\n' ∉ u ∨ ∃ l rest, '\n' ∉ l ∧ u = l ++ '\n' :: rest := by
  by_cases h : '\n' ∈ u
  · obtain ⟨l, rest, e, hl⟩ := List.eq_append_cons_of_mem h
    exact .inr ⟨l, rest, hl, e⟩
  · exact .inl h

theorem Closes.ne_nil {x : List Char} (h : Closes x) : x ≠ [] := by
  rintro rfl
  cases h

/-- A brace that closes a line stands before the last character of the text. -/
theorem Closes.mem_dropLast {x : List Char} (h : Closes x) {u : List Char} (hx : x <:+ u) : '\x7d' ∈ u.dropLast := by
  obtain ⟨a, rfl⟩ := hx
  rw [List.dropLast_append_of_ne_nil h.ne_nil]
  refine List.mem_append_right a ?_
  rcases exists_line_or_not_mem x with hl | ⟨l, rest, hl, rfl⟩
  · exact (closes_last hl).mp h
  · rw [List.dropLast_append_of_ne_nil (List.cons_ne_nil _ _)]
    exact List.mem_append_left _ ((closes_line hl rest).mp h)

/-- What stands on the line before its closing brace can be left away. -/
theorem Closes.behind {x start inside : List Char} {c : Char} (h : Closes x) (e : x = start ++ c :: inside)
    (hstart : '\x7d' ∉ start) (hc : c ≠ '\x7d') : Closes inside ∧ afterLine? inside = afterLine? x := by
  rcases exists_line_or_not_mem x with hlast | ⟨l, rest, hline, rfl⟩
  · subst e
    have hinside : '\n' ∉ inside := fun hm => hlast (List.mem_append_right _ (List.mem_cons_of_mem _ hm))
    refine ⟨(closes_last hinside).mpr ?_, by rw [afterLine?_of_not_mem hinside, afterLine?_of_not_mem hlast]⟩
    have hbrace := (closes_last hlast).mp h
    rw [List.dropLast_append_of_ne_nil (List.cons_ne_nil _ _)] at hbrace
    rcases List.mem_append.mp hbrace with hm | hm
    · exact absurd hm hstart
    · cases inside with
      | nil => cases hm
      | cons b inside =>
        rw [List.dropLast_cons_cons] at hm
        exact (List.mem_cons.mp hm).resolve_left (Ne.symm hc)
  · have hbrace := (closes_line hline rest).mp h
    have e' : l ++ '\n' :: rest = (start ++ [c]) ++ inside := by rw [e, List.append_assoc]; rfl
    have hshort : '\x7d' ∉ start ++ [c] := by simp [hstart, Ne.symm hc]
    rcases List.append_eq_append_iff.mp e' with ⟨a, ha, -⟩ | ⟨a, rfl, rfl⟩
    · exact absurd (ha ▸ List.mem_append_left a hbrace) hshort
    · have ha : '\n' ∉ a := fun hm => hline (List.mem_append_right _ hm)
      refine ⟨(closes_line ha rest).mpr ((List.mem_append.mp hbrace).resolve_left hshort), ?_⟩
      rw [afterLine?_line ha, afterLine?_line hline]

/-! ### Where a body ends -/

/-- Where the lines of a body end: at the first closing brace or at the end of the text. It is missing if the last line
comes first and has no line end. -/
def bodyEnd (rest : List Char) : Option (List Char) :=
  if rest.isEmpty then some []
  else if (lineOf rest).contains '\x7d' then some rest
  else
    match _h : afterLine? rest with
    | some next => bodyEnd next
    | none => none
termination_by rest.length
decreasing_by exact length_of_afterLine?_eq_some _h

theorem Closes.bodyEnd {x : List Char} (h : Closes x) : Header.bodyEnd x = some x := by
  have hne : x.isEmpty = false := by simpa using h.ne_nil
  have hbrace : (lineOf x).contains '\x7d' = true := by simpa [Closes] using h
  rw [Header.bodyEnd]
  simp only [hne, hbrace, Bool.false_eq_true, if_false, if_true]

theorem bodyEnd_line {l : List Char} (hl : '\n' ∉ l) (hb : '\x7d' ∉ l) (rest : List Char) :
    bodyEnd (l ++ '\n' :: rest) = bodyEnd rest := by
  have hbrace : '\x7d' ∉ trim l := fun m => hb ((trim_isInfix l).subset m)
  have hafter := afterLine?_line hl rest
  have hne : (l ++ '\n' :: rest).isEmpty = false := by simp
  rw [bodyEnd]
  simp only [hne, lineOf_line hl, List.contains_eq_mem, hbrace, decide_false, Bool.false_eq_true, if_false]
  split
  · next next hn =>
    obtain rfl : rest = next := Option.some.inj (hafter.symm.trans hn)
    rfl
  · next hn => cases hafter.symm.trans hn

theorem bodyEnd_last {u : List Char} (hne : u ≠ []) (hl : '\n' ∉ u) (hopen : ¬Closes u) : bodyEnd u = none := by
  have hempty : u.isEmpty = false := by simpa using hne
  have hbrace : (lineOf u).contains '\x7d' = false := by simpa [Closes] using hopen
  have hafter := afterLine?_of_not_mem hl
  rw [bodyEnd]
  simp only [hempty, hbrace, Bool.false_eq_true, if_false]
  split
  · next next hn => cases hafter.symm.trans hn
  · rfl

section
variable {σ : Type} {step : List Char → σ → Except Fault σ} {s s' : σ} {rest v whole : List Char}

/-- Where a scan ends does not hang on what it takes in. -/
theorem eq_bodyEnd_of_scanBody {v : Option (List Char)} (h : scanBody step s rest = .ok (s', v)) : v = bodyEnd rest := by
  fun_induction scanBody step s rest with
  | case1 s rest hempty =>
    cases h
    rw [bodyEnd, if_pos hempty]
  | case2 s rest hempty hbrace =>
    cases h
    rw [bodyEnd, if_neg hempty, if_pos hbrace]
  | case3 s rest hempty hbrace fault hfault => cases h
  | case4 s rest hempty hbrace s₁ hs next hnext ih =>
    rw [ih h]
    conv_rhs => rw [bodyEnd, if_neg hempty, if_neg hbrace]
    split
    · next next' hn => rw [Option.some.inj (hnext.symm.trans hn)]
    · next hn => cases hnext.symm.trans hn
  | case5 s rest hempty hbrace s₁ hs hnext =>
    cases h
    rw [bodyEnd, if_neg hempty, if_neg hbrace]
    split
    · next next' hn => cases hnext.symm.trans hn
    · rfl

theorem Closes.scanBody (h : Closes rest) (step : List Char → σ → Except Fault σ) (s : σ) :
    Header.scanBody step s rest = .ok (s, some rest) := by
  have hne : rest.isEmpty = false := by simpa using h.ne_nil
  have hbrace : (lineOf rest).contains '\x7d' = true := by simpa [Closes] using h
  rw [Header.scanBody]
  simp only [hne, hbrace, Bool.false_eq_true, if_false, if_true]

/-- A body ends where its lines do, or where those from the start of the text on do if it has gone round. -/
theorem bodyEnd_of_readBody (h : readBody whole step s rest = some (.ok (s', v))) :
    bodyEnd rest = some v ∨ (bodyEnd rest = none ∧ bodyEnd whole = some v) := by
  refine BodyStep.readBody.partial_correctness whole step
    (fun _ rest r => ∀ s' v, r = .ok (s', v) → bodyEnd rest = some v ∨ (bodyEnd rest = none ∧ bodyEnd whole = some v))
    ?_ s rest _ h s' v rfl
  intro recur ih s rest r h s' v hr
  subst hr
  rcases hscan : Header.scanBody step s rest with f | ⟨s₁, _ | v₁⟩
  · rw [hscan] at h
    cases h
  · rw [hscan] at h
    refine .inr ⟨(eq_bodyEnd_of_scanBody hscan).symm, ?_⟩
    exact (ih s₁ whole _ h s' v rfl).elim id And.right
  · rw [hscan] at h
    cases h
    exact .inl (eq_bodyEnd_of_scanBody hscan).symm

theorem eq_of_readBody {τ : Type} {step' : List Char → τ → Except Fault τ} {t t' : τ} {v' : List Char}
    (h : readBody whole step s rest = some (.ok (s', v))) (h' : readBody whole step' t rest = some (.ok (t', v'))) : v = v' := by
  rcases bodyEnd_of_readBody h with hend | ⟨hround, hend⟩
  · rcases bodyEnd_of_readBody h' with hend' | ⟨hround', -⟩
    · exact Option.some.inj (hend.symm.trans hend')
    · cases hend.symm.trans hround'
  · rcases bodyEnd_of_readBody h' with hend' | ⟨-, hend'⟩
    · cases hround.symm.trans hend'
    · exact Option.some.inj (hend.symm.trans hend')

end

/-! ### Where a turn leads -/

/-- A turn leads from one place to another, with some definitions found before. -/
def Goes (ev : Evaluator) (whole x y : List Char) : Prop :=
  ∃ d d', Turn ev whole (d, x) (d', y)

section
variable {ev : Evaluator} {whole x y : List Char}

theorem goes_of_path {a b : Definitions × List Char} (h : ReflTransGen (Turn ev whole) a b) :
    ReflTransGen (Goes ev whole) a.2 b.2 := by
  induction h with
  | refl => exact .refl
  | tail _ hturn ih => exact ih.tail ⟨_, _, hturn⟩

/-- A place at which a body opens has one keyword. -/
theorem KindAt.keyword_eq {ev' : Evaluator} {whole' rest : List Char} {d d' : Definitions} {k k' : Kind}
    (hk : KindAt ev whole rest d k) (hk' : KindAt ev' whole' rest d' k') {p p' : String × List Char}
    (h : opening? k.keyword rest = some p) (h' : opening? k'.keyword rest = some p') : k.keyword = k'.keyword := by
  have hstart := k.keyword_prefix_lineOf h
  have hstart' := k'.keyword_prefix_lineOf h'
  generalize lineOf rest = line at hstart hstart'
  obtain ⟨t, rfl⟩ := hstart
  obtain ⟨t', e⟩ := hstart'
  cases hk with
  | enumeration =>
    cases hk' with
    | enumeration => rfl
    | struct => cases (List.cons.inj e).1
  | struct =>
    cases hk' with
    | enumeration => cases (List.cons.inj e).1
    | struct => rfl

theorem Goes.ne_nil (h : Goes ev whole x y) : x ≠ [] := by
  obtain ⟨d, d', hturn⟩ := h
  cases hturn with
  | body hne hread => exact hne
  | line hne hread hnext => exact hne

/-- From a place a turn leads behind the body that opens there, or to the next line if none does. -/
theorem Goes.cases (h : Goes ev whole x y) :
    (∃ d k name inside s, KindAt ev whole x d k ∧ opening? k.keyword x = some (name, inside) ∧
      readBody whole k.step k.start inside = some (.ok (s, y))) ∨ (Bodiless x ∧ afterLine? x = some y) := by
  obtain ⟨d, d', hturn⟩ := h
  cases hturn with
  | body hne hread =>
    rcases of_readDefinition_eq_ok hread with ⟨k, hk, name, inside, g, v, hopen, hgroup, hnext, -⟩ | ⟨-, hnone, -⟩
    · cases hnext
      obtain ⟨s, hbody, -⟩ := Kind.of_read_eq_some hopen hgroup
      exact .inl ⟨d, k, name, inside, s, hk, hopen, hbody⟩
    · cases hnone
  | line hne hread hnext => exact .inr ⟨bodiless_of_readDefinition hread, hnext⟩

/-- Where a turn leads hangs only on the place. -/
theorem Goes.unique {y' : List Char} (h : Goes ev whole x y) (h' : Goes ev whole x y') : y = y' := by
  rcases h.cases with ⟨d, k, name, inside, s, hk, hopen, hbody⟩ | ⟨hnone, hnext⟩
  · rcases h'.cases with ⟨d', k', name', inside', s', hk', hopen', hbody'⟩ | ⟨hnone, -⟩
    · rw [← hk.keyword_eq hk' hopen hopen', hopen] at hopen'
      cases hopen'
      exact eq_of_readBody hbody hbody'
    · cases (hk.opening?_eq_none hnone).symm.trans hopen
  · rcases h'.cases with ⟨d', k', name', inside', s', hk', hopen', -⟩ | ⟨-, hnext'⟩
    · cases (hk'.opening?_eq_none hnone).symm.trans hopen'
    · exact Option.some.inj (hnext.symm.trans hnext')

/-- Reading does not come to its end at a place from which a turn leads on, whatever has been found before. -/
theorem Goes.not_stops (h : Goes ev whole x y) {d d' : Definitions} : ¬Stops ev whole (d, x) (.ok (), d') := by
  intro hstop
  cases hstop with
  | finish => exact h.ne_nil rfl
  | unended hne hread hnext =>
    rcases h.cases with ⟨d', k', name', inside', s', hk', hopen', -⟩ | ⟨-, hnext'⟩
    · cases (hk'.opening?_eq_none (bodiless_of_readDefinition hread)).symm.trans hopen'
    · cases hnext.symm.trans hnext'

/-- Reading that can come to its place again does not come to its end. -/
theorem not_returns_of_cycle (hgo : Goes ev whole x y) (hback : ReflTransGen (Goes ev whole) y x) (d d' : Definitions) :
    readFrom ev whole x d ≠ some (.ok (), d') := by
  intro h
  obtain ⟨⟨e, z⟩, hpath, hstop⟩ := readFrom_eq_some_iff.mp h
  -- All places that are come to lie on the circle, so that a turn leads on from each.
  have hcircle : ∀ {z : List Char}, ReflTransGen (Goes ev whole) x z →
      ∃ w, Goes ev whole z w ∧ ReflTransGen (Goes ev whole) w x := by
    intro z hz
    induction hz with
    | refl => exact ⟨y, hgo, hback⟩
    | @tail a b hpath hab ih =>
      obtain ⟨w, hw, hrest⟩ := ih
      obtain rfl := hab.unique hw
      rcases ReflTransGen.cases_head hrest with rfl | ⟨v, hv, hv'⟩
      · exact ⟨y, hgo, hback⟩
      · exact ⟨v, hv, hv'⟩
  obtain ⟨w, hw, -⟩ := hcircle (goes_of_path hpath)
  exact hw.not_stops hstop

end

/-! ### Passing a line with a closing brace -/

section
variable {ev : Evaluator} {whole x : List Char}

/-- A body that opens before the closing brace of its line ends at once. -/
theorem Closes.read (h : Closes x) {k : Kind} {p : String × List Char} (hopen : opening? k.keyword x = some p)
    (whole : List Char) :
    (Closes p.2 ∧ afterLine? p.2 = afterLine? x) ∧ p.2.length < x.length ∧ ∃ g, k.read whole x = some (.ok (some (g, p.2))) := by
  obtain ⟨start, hstart, e, -⟩ := brace_not_mem_opening k.keyword_brace hopen
  have hinside := h.behind e hstart (by decide)
  refine ⟨hinside, ?_, ⟨p.1, k.members k.start, none⟩, ?_⟩
  · rw [e, List.length_append, List.length_cons]
    omega
  · rw [k.read_eq hopen, readBody_of_scan (hinside.1.scanBody k.step k.start)]
    rfl

/-- From a line with a closing brace reading goes on behind some of it or on the next line. -/
theorem Closes.goes_cases (h : Closes x) {y : List Char} (hgo : Goes ev whole x y) :
    (Closes y ∧ afterLine? y = afterLine? x) ∨ afterLine? x = some y := by
  rcases hgo.cases with ⟨d, k, name, inside, s, -, hopen, hbody⟩ | ⟨-, hnext⟩
  · obtain ⟨hinside, -, -⟩ := h.read hopen whole
    rw [readBody_of_scan (hinside.1.scanBody k.step k.start)] at hbody
    cases hbody
    exact .inl hinside
  · exact .inr hnext

/-- Bodies that open on the line have no members, so nothing keeps reading from the next line. -/
theorem Closes.passes (h : Closes x) {q : List Char} (hq : afterLine? x = some q) (d : Definitions) :
    ∃ d', ReflTransGen (Turn ev whole) (d, x) (d', q) := by
  induction hn : x.length using Nat.strong_induction_on generalizing x d with
  | _ n ih =>
    subst hn
    rcases bodiless_or_opening ev whole x d with hnone | ⟨k, name, inside, hk, hopen⟩
    · exact ⟨_, .single (.line h.ne_nil (hnone.readDefinition ev whole d) hq)⟩
    · obtain ⟨⟨hclosed, hafter⟩, hlength, g, hgroup⟩ := h.read hopen whole
      have hturn : Turn ev whole (d, x) (k.add d g, inside) :=
        .body h.ne_nil (by rw [readDefinition_of_opening hk hopen, hgroup]; rfl)
      obtain ⟨d', hpath⟩ := ih _ hlength hclosed (hafter.trans hq) (k.add d g) rfl
      exact ⟨d', hpath.head hturn⟩

/-- Reading that passes a line with a closing brace comes to the line behind it. -/
theorem Closes.exists_path (h : Closes x) {b : List Char} (hpath : ReflTransGen (Goes ev whole) x b)
    (hopen : '\x7d' ∉ b.dropLast) : ∃ q, afterLine? x = some q ∧ ReflTransGen (Goes ev whole) q b := by
  induction hpath using ReflTransGen.head_induction_on with
  | refl => exact absurd (h.mem_dropLast (List.suffix_refl _)) hopen
  | @head a c hgo hrest ih =>
    rcases h.goes_cases hgo with ⟨hclosed, hafter⟩ | hnext
    · rw [← hafter]
      exact ih hclosed
    · exact ⟨c, hnext, hrest⟩

end

/-! ### From the start of the text to the first closing brace -/

/-- Between `w` and `p` there are only lines without closing braces. -/
def OpenUpTo (p w : List Char) : Prop :=
  ∃ ls, (∀ l ∈ ls, '\n' ∉ l ∧ '\x7d' ∉ l) ∧ w = unlines ls ++ p

section
variable {ev : Evaluator} {whole p w : List Char}

theorem OpenUpTo.refl (p : List Char) : OpenUpTo p p := ⟨[], by simp, rfl⟩

theorem OpenUpTo.cons {l : List Char} (hl : '\n' ∉ l) (hb : '\x7d' ∉ l) (h : OpenUpTo p w) : OpenUpTo p (l ++ '\n' :: w) := by
  obtain ⟨ls, hls, rfl⟩ := h
  exact ⟨l :: ls, List.forall_mem_cons.mpr ⟨⟨hl, hb⟩, hls⟩, by simp⟩

theorem OpenUpTo.isSuffix (h : OpenUpTo p w) : p <:+ w := by
  obtain ⟨ls, -, rfl⟩ := h
  exact List.suffix_append _ _

/-- A body ends with the first line that has a closing brace. -/
theorem OpenUpTo.bodyEnd (h : OpenUpTo p w) (hp : Closes p) : Header.bodyEnd w = some p := by
  obtain ⟨ls, hls, rfl⟩ := h
  induction ls with
  | nil => exact hp.bodyEnd
  | cons l ls ih =>
    obtain ⟨⟨hl, hb⟩, hls⟩ := List.forall_mem_cons.mp hls
    rw [unlines_cons, List.append_assoc, List.cons_append, bodyEnd_line hl hb]
    exact ih hls

theorem openUpTo_of_bodyEnd {cs v : List Char} (h : bodyEnd cs = some v) : OpenUpTo v cs ∧ (v = [] ∨ Closes v) := by
  induction hn : cs.length using Nat.strong_induction_on generalizing cs with
  | _ n ih =>
    subst hn
    by_cases hclosed : Closes cs
    · cases hclosed.bodyEnd.symm.trans h
      exact ⟨.refl _, .inr hclosed⟩
    rcases exists_line_or_not_mem cs with hlast | ⟨l, rest, hl, rfl⟩
    · by_cases hne : cs = []
      · subst hne
        rw [bodyEnd] at h
        cases h
        exact ⟨.refl [], .inl rfl⟩
      · cases (bodyEnd_last hne hlast hclosed).symm.trans h
    · have hb : '\x7d' ∉ l := fun hm => hclosed ((closes_line hl rest).mpr hm)
      rw [bodyEnd_line hl hb] at h
      obtain ⟨hopen, hv⟩ := ih rest.length (by simp; omega) h rfl
      exact ⟨hopen.cons hl hb, hv⟩

/-- What is behind a brace that opens is open up to the same closing brace, or on its line. -/
theorem OpenUpTo.behind (h : OpenUpTo p w) (hp : Closes p) {start inside : List Char} (e : w = start ++ '\x7b' :: inside)
    (hstart : '\x7d' ∉ start) : OpenUpTo p inside ∨ (Closes inside ∧ afterLine? inside = afterLine? p) := by
  obtain ⟨ls, hls, hw⟩ := h
  induction ls generalizing w start with
  | nil =>
    obtain rfl : w = p := hw
    exact .inr (hp.behind e hstart (by decide))
  | cons l ls ih =>
    obtain ⟨⟨hl, hb⟩, hrest⟩ := List.forall_mem_cons.mp hls
    have hmore : OpenUpTo p (unlines ls ++ p) := ⟨ls, hrest, rfl⟩
    rw [unlines_cons, List.append_assoc, List.cons_append] at hw
    have e' : l ++ '\n' :: (unlines ls ++ p) = (start ++ ['\x7b']) ++ inside := by
      rw [← hw, e, List.append_assoc]
      rfl
    rcases List.append_eq_append_iff.mp e' with ⟨a, ha, hinside⟩ | ⟨a, rfl, rfl⟩
    · -- The brace stands behind the first line.
      rcases List.eq_nil_or_concat a with rfl | ⟨a, z, rfl⟩
      · rw [List.nil_append] at hinside
        rw [← hinside]
        exact .inl (.cons (l := []) List.not_mem_nil List.not_mem_nil hmore)
      rw [List.concat_eq_append, ← List.append_assoc] at ha
      obtain ⟨rfl, hz⟩ := List.append_inj' ha rfl
      obtain rfl : '\x7b' = z := (List.cons.inj hz).1
      cases a with
      | nil => cases hinside
      | cons c a =>
        have hrest' : unlines ls ++ p = a ++ '\x7b' :: inside := by simpa using (List.cons.inj hinside).2
        exact ih hrest' (fun hm => hstart (List.mem_append_right _ (List.mem_cons_of_mem _ hm))) hrest rfl
    · refine .inl (.cons ?_ ?_ hmore)
      · exact fun hm => hl (List.mem_append_right _ hm)
      · exact fun hm => hb (List.mem_append_right _ hm)

/-- A turn before the first closing brace does not pass its line. -/
theorem OpenUpTo.goes_cases (h : OpenUpTo p w) (hp : Closes p) (hw : w ≠ p) {v : List Char} (hgo : Goes ev whole w v) :
    OpenUpTo p v ∨ (Closes v ∧ afterLine? v = afterLine? p) := by
  rcases hgo.cases with ⟨d, k, name, inside, s, -, hopen, hbody⟩ | ⟨-, hnext⟩
  · obtain ⟨start, hstart, e, -⟩ := brace_not_mem_opening k.keyword_brace hopen
    -- The body ends with the line of the brace, or on it if it starts there.
    rcases h.behind hp e hstart with hbefore | hclosed
    · rcases bodyEnd_of_readBody hbody with hend | ⟨hround, -⟩
      · cases (hbefore.bodyEnd hp).symm.trans hend
        exact .inl (.refl p)
      · cases (hbefore.bodyEnd hp).symm.trans hround
    · rcases bodyEnd_of_readBody hbody with hend | ⟨hround, -⟩
      · cases hclosed.1.bodyEnd.symm.trans hend
        exact .inr hclosed
      · cases hclosed.1.bodyEnd.symm.trans hround
  · obtain ⟨ls, hls, rfl⟩ := h
    cases ls with
    | nil => exact absurd rfl hw
    | cons l ls =>
      obtain ⟨⟨hl, -⟩, hrest⟩ := List.forall_mem_cons.mp hls
      rw [unlines_cons, List.append_assoc, List.cons_append, afterLine?_line hl] at hnext
      rw [← Option.some.inj hnext]
      exact .inl ⟨ls, hrest, rfl⟩

/-- Reading that passes the first closing brace comes to a place on its line. -/
theorem OpenUpTo.exists_path (h : OpenUpTo p w) (hp : Closes p) {b : List Char} (hpath : ReflTransGen (Goes ev whole) w b)
    (hopen : '\x7d' ∉ b.dropLast) :
    ∃ x, Closes x ∧ afterLine? x = afterLine? p ∧ ReflTransGen (Goes ev whole) x b := by
  induction hpath using ReflTransGen.head_induction_on with
  | refl => exact absurd (hp.mem_dropLast h.isSuffix) hopen
  | @head a c hgo hrest ih =>
    by_cases hw : a = p
    · subst hw
      exact ⟨a, hp, rfl, hrest.head hgo⟩
    rcases h.goes_cases hp hw hgo with hbefore | ⟨hclosed, hafter⟩
    · exact ih hbefore
    · exact ⟨c, hclosed, hafter, hrest⟩

end

/-! ### Texts that do not end with a line end -/

/-- A text whose last line has no line end. -/
structure Unended (u : List Char) : Prop where
  ne_nil : u ≠ []
  last : u.getLast? ≠ some '\n'

theorem Unended.of_isSuffix {u v : List Char} (h : Unended u) (hv : v <:+ u) (hne : v ≠ []) : Unended v where
  ne_nil := hne
  last hlast := by
    obtain ⟨a, rfl⟩ := hv
    exact h.last (by rwa [List.getLast?_append_of_ne_nil a hne])

theorem Unended.ne_nil_of_openUpTo {u v : List Char} (h : Unended u) (hv : OpenUpTo v u) : v ≠ [] := by
  rintro rfl
  obtain ⟨ls, -, rfl⟩ := hv
  rcases List.eq_nil_or_concat ls with rfl | ⟨ls, l, rfl⟩
  · exact h.ne_nil rfl
  · exact h.last (by simp)

theorem Unended.closes_of_bodyEnd {u v : List Char} (hu : Unended u) (h : bodyEnd u = some v) : Closes v ∧ v <:+ u := by
  obtain ⟨hupTo, hv⟩ := openUpTo_of_bodyEnd h
  exact ⟨hv.resolve_left (hu.ne_nil_of_openUpTo hupTo), hupTo.isSuffix⟩

/-- A body that comes to a last line without a line end does not end on its way there. -/
theorem Unended.bodyEnd_open {b : List Char} (hb : Unended b) (hopen : '\x7d' ∉ b.dropLast) : bodyEnd b = none := by
  cases hend : bodyEnd b with
  | none => rfl
  | some v =>
    obtain ⟨hclosed, hv⟩ := hb.closes_of_bodyEnd hend
    exact absurd (hclosed.mem_dropLast hv) hopen

/-- Where a body that goes round is passed reading does not come to its end any more. -/
theorem Unended.not_returns {ev : Evaluator} {c u : List Char} (hc : Unended c) (hpath : ReflTransGen (Goes ev c) c u)
    {k : Kind} {e : Definitions} (hk : KindAt ev c u e k) {name : String} {b : List Char}
    (hopen : opening? k.keyword u = some (name, b)) (hb : Unended b) (hbrace : '\x7d' ∉ b.dropLast) {g : Group} {p : List Char}
    (hread : k.read c u = some (.ok (some (g, p)))) (d d' : Definitions) : readFrom ev c u d ≠ some (.ok (), d') := by
  obtain ⟨start, hstart, eu, -⟩ := brace_not_mem_opening k.keyword_brace hopen
  have hgo : Goes ev c u p := by
    refine ⟨e, k.add e g, .body ?_ (by rw [readDefinition_of_opening hk hopen, hread]; rfl)⟩
    rw [eu]
    simp
  have hu : '\x7d' ∉ u.dropLast := by
    rw [eu, List.dropLast_append_of_ne_nil (List.cons_ne_nil _ _), List.dropLast_cons_of_ne_nil hb.ne_nil]
    simp [hstart, hbrace]
  -- The body has gone round, and stands at the first closing brace of the whole text.
  obtain ⟨s, hbody, -⟩ := Kind.of_read_eq_some hopen hread
  have hround : bodyEnd c = some p := by
    rcases bodyEnd_of_readBody hbody with hend | ⟨-, hend⟩
    · cases (hb.bodyEnd_open hbrace).symm.trans hend
    · exact hend
  obtain ⟨hupTo, hp⟩ := openUpTo_of_bodyEnd hround
  have hp := hp.resolve_left (hc.ne_nil_of_openUpTo hupTo)
  obtain ⟨x, hx, hsame, hrest⟩ := hupTo.exists_path hp hpath hu
  obtain ⟨q, hq, hback⟩ := hx.exists_path hrest hu
  obtain ⟨e', hleads⟩ := hp.passes (hsame ▸ hq) {}
  exact not_returns_of_cycle hgo ((goes_of_path hleads).trans hback) d d'

end CodeBridge.Header
