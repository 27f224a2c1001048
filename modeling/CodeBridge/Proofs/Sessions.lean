import CodeBridge.Proofs.Acceptance

/-! # Sessions with a generator

A generator is asked to write a whole module or single items, any number of times and in any order, and whoever asks
may go on after a failure. Its text is given out as long as nothing has failed. After a failure the level is raised
for good, and the text is refused. -/

namespace CodeBridge.Emit

/-- A generator as its callers see it: it is asked to write things of sort `ρ`, and then for what it has written. -/
structure Generator (ρ σ α : Type) where
  start : σ
  perform : ρ → EStateM Fault σ Unit
  result : EStateM Fault σ α

namespace Generator

variable {ρ σ α : Type}

/-- Requests in turn, each from where the one before it ended, whether it failed or not: the failure of each of them,
if it failed, and the state in the end. -/
def session (g : Generator ρ σ α) : List ρ → σ → List (Option Fault) × σ
  | [], s => ([], s)
  | r :: rest, s =>
    match g.perform r s with
    | .ok _ t => (none :: (g.session rest t).1, (g.session rest t).2)
    | .error fault t => (some fault :: (g.session rest t).1, (g.session rest t).2)

/-- After every session the text is given out exactly if no request has failed. Otherwise it is refused as a wrong
value. -/
def Honest (g : Generator ρ σ α) : Prop :=
  ∀ requests : List ρ,
    let (failures, last) := g.session requests g.start
    ((∃ text t, g.result last = .ok text t) ↔ ∀ failure ∈ failures, failure = none) ∧
      ((∃ failure ∈ failures, failure ≠ none) →
        ∃ fault t, g.result last = .error fault t ∧ fault.label = "ValueError")

/-- A generator of which all requests raise the level when they fail, and which gives its text out at level 0 only. -/
structure Guarded (g : Generator ρ σ α) (gauge : Gauge σ) : Prop where
  sound : gauge.Sound g.start
  ground : gauge.level g.start = 0
  settles : ∀ r, ∃ accepted, Settles gauge 1 (g.perform r) accepted
  given : ∀ s, gauge.Sound s → gauge.level s = 0 → ∃ text, g.result s = .ok text s
  refused : ∀ s, gauge.level s ≠ 0 → ∃ fault t, g.result s = .error fault t ∧ fault.label = "ValueError"

variable {g : Generator ρ σ α} {gauge : Gauge σ}

/-- The level never comes back down below where a session started, and it is that level as long as nothing fails. -/
theorem Guarded.session (h : g.Guarded gauge) (requests : List ρ) {s : σ} (hs : gauge.Sound s) :
    gauge.Sound (g.session requests s).2 ∧ gauge.level s ≤ gauge.level (g.session requests s).2 ∧
      (gauge.level (g.session requests s).2 = gauge.level s ↔ ∀ failure ∈ (g.session requests s).1, failure = none) := by
  induction requests generalizing s with
  | nil => simp [Generator.session, hs]
  | cons r rest ih =>
    obtain ⟨accepted, hsettles⟩ := h.settles r
    have hends := hsettles s hs
    unfold Generator.session
    generalize g.perform r s = outcome at hends ⊢
    cases hends with
    | ok _ ht hl =>
      obtain ⟨hsound, hle, hiff⟩ := ih ht
      rw [hl] at hle hiff
      exact ⟨hsound, hle, by simpa using hiff⟩
    | error _ ht hl =>
      obtain ⟨hsound, hle, -⟩ := ih ht
      refine ⟨hsound, by simp only; omega, ?_⟩
      -- One failure has raised the level, and nothing that follows takes it back.
      simp only [List.forall_mem_cons, reduceCtorEq, false_and, iff_false]
      omega

theorem Guarded.honest (h : g.Guarded gauge) : g.Honest := by
  intro requests
  obtain ⟨hsound, -, hiff⟩ := h.session requests h.sound
  rw [h.ground] at hiff
  have hrefused : (∃ failure ∈ (g.session requests g.start).1, failure ≠ none) →
      ∃ fault t, g.result (g.session requests g.start).2 = .error fault t ∧ fault.label = "ValueError" := by
    rintro ⟨failure, hmem, hne⟩
    exact h.refused _ fun hl => hne (hiff.mp hl failure hmem)
  refine ⟨⟨?_, fun hnone => ?_⟩, hrefused⟩
  · rintro ⟨text, t, htext⟩
    by_contra hsome
    push Not at hsome
    obtain ⟨fault, t', hfault, -⟩ := hrefused hsome
    cases htext.symm.trans hfault
  · obtain ⟨text, htext⟩ := h.given _ hsound (hiff.mpr hnone)
    exact ⟨text, _, htext⟩

/-- The text after a single request is given out if the request is accepted. -/
theorem Guarded.outcome_iff (h : g.Guarded gauge) {r : ρ} {accepted : Prop} (hr : Settles gauge 1 (g.perform r) accepted) :
    (∃ text, outcome (g.perform r *> g.result) g.start = .ok text) ↔ accepted := by
  have hends := hr g.start h.sound
  rw [seqRight_eq_bind]
  simp only [outcome, bind, EStateM.bind]
  generalize g.perform r g.start = ending at hends ⊢
  cases hends with
  | ok haccepted ht hl =>
    obtain ⟨text, htext⟩ := h.given _ ht (hl.trans h.ground)
    simp [htext, haccepted]
  | error hrefused _ _ => simp [hrefused]

end Generator

/-! ### What the generators are asked for -/

/-- What a generator is asked for that writes one text for each item. -/
inductive Request where
  | run
  | enumeration (e : Enumeration) (h : Named e.name e.suffix)
  | struct (s : Struct) (h : Named s.name s.suffix)

/-- The generator of the header of a module. -/
def Header.generator (style : Style) (m : Module) : Generator Request Writer String where
  start := .braced
  perform
    | .run => run style m
    | .enumeration e _ => enumeration style e
    | .struct s _ => struct style s
  result := Writing.result

/-- The generator of the classes of a module. -/
def Dataclasses.generator (m : Module) : Generator Request State String where
  start := ⟨.bare, []⟩
  perform
    | .run => run m
    | .enumeration e _ => writing fun _ => enumeration e
    | .struct s _ => writing fun written => struct written s
  result := writing fun _ => Writing.result

/-- The generator of the printers of a module. -/
def Printers.generator (style : Style) (m : Module) : Generator Request Sources (String × String) where
  start := ⟨.braced, .braced⟩
  perform
    | .run => run style m
    | .enumeration e _ => enumeration style e
    | .struct s _ => struct style s
  result := Sourcing.result

namespace Conversion

/-- What the generator of conversions is asked for. Each direction is written on its own. -/
inductive Request where
  | run
  | enumerationToC (e : Enumeration) (h : Named e.name e.suffix)
  | enumerationToPython (e : Enumeration) (h : Named e.name e.suffix)
  | structToC (s : Struct) (h : Named s.name s.suffix)
  | structToPython (s : Struct) (h : Named s.name s.suffix)

/-- The generator of the conversions of a module. -/
def generator (package : String) (m : Module) : Generator Request Sources (String × String) where
  start := ⟨.braced, .braced⟩
  perform
    | .run => run package m
    | .enumerationToC e _ => enumerationToC e
    | .enumerationToPython e _ => enumerationToPython (classPath package m) e
    | .structToC s _ => structToC s
    | .structToPython s _ => structToPython (classPath package m) s
  result := Sourcing.result

end Conversion

/-! ### What they guard -/

theorem Sourcing.result_eq {t : Sources} (hheader : t.header.level = 0) (hcode : t.code.level = 0) :
    Sourcing.result t = .ok (t.header.text, t.code.text) t := by
  simp only [Sourcing.result, inHeader, inCode, bind, EStateM.bind, Writing.result_eq hheader, Writing.result_eq hcode]
  rfl

theorem Sourcing.result_refused {t : Sources} (hcode : t.code.level ≠ 0) :
    ∃ fault t', Sourcing.result t = .error fault t' ∧ fault.label = "ValueError" := by
  by_cases hheader : t.header.level = 0
  · refine ⟨.resultAtLevel t.code.level, t, ?_, rfl⟩
    simp only [Sourcing.result, inHeader, inCode, bind, EStateM.bind, Writing.result_eq hheader,
      Writing.result_refused hcode]
  · refine ⟨.resultAtLevel t.header.level, t, ?_, rfl⟩
    simp only [Sourcing.result, inHeader, bind, EStateM.bind, Writing.result_refused hheader]

variable {style : Style} {m : Module}

theorem Header.guarded (hstyle : style = .knr ∨ style = .bsd) (hm : m.Orderly) :
    (generator style m).Guarded Writer.gauge where
  sound := ⟨Int.le_refl 0, _, rfl⟩
  ground := rfl
  settles
    | .run => ⟨_, settles_run hstyle hm⟩
    | .enumeration _ h => ⟨_, settles_enumeration hstyle h.name⟩
    | .struct _ h => ⟨_, settles_struct hstyle h.name⟩
  given _ _ hl := ⟨_, Writing.result_eq hl⟩
  refused _ hl := ⟨_, _, Writing.result_refused hl, rfl⟩

theorem Dataclasses.guarded (m : Module) : (generator m).Guarded State.gauge where
  sound := ⟨Int.le_refl 0, _, rfl⟩
  ground := rfl
  settles
    | .run => ⟨_, settles_run m⟩
    | .enumeration e _ => ⟨_, settles_writing fun _ => settles_enumeration e⟩
    | .struct s _ => ⟨_, settles_writing fun written => settles_struct written s⟩
  given s _ hl := ⟨s.writer.text, by simp only [generator, writing, Writing.result_eq (w := s.writer) hl]⟩
  refused s hl := ⟨_, _, by simp only [generator, writing, Writing.result_refused (w := s.writer) hl]; rfl, rfl⟩

theorem Printers.guarded (hstyle : style = .knr ∨ style = .bsd) (hm : m.Orderly) :
    (generator style m).Guarded Sources.gauge where
  sound := ⟨rfl, Int.le_refl 0, _, rfl⟩
  ground := rfl
  settles
    | .run => ⟨_, settles_run hstyle hm⟩
    | .enumeration _ h => ⟨_, settles_enumeration hstyle h.name⟩
    | .struct _ h => ⟨_, settles_struct hstyle h.name⟩
  given _ hs hl := ⟨_, Sourcing.result_eq hs.1 hl⟩
  refused _ hl := Sourcing.result_refused hl

theorem Conversion.guarded (package : String) (hm : m.Orderly) : (generator package m).Guarded Sources.gauge where
  sound := ⟨rfl, Int.le_refl 0, _, rfl⟩
  ground := rfl
  settles
    | .run => ⟨_, settles_run package hm⟩
    | .enumerationToC _ h => ⟨_, settles_enumerationToC h.name⟩
    | .enumerationToPython _ h => ⟨_, settles_enumerationToPython _ h.name⟩
    | .structToC _ h => ⟨_, settles_structToC h.name⟩
    | .structToPython _ h => ⟨_, settles_structToPython _ h.name⟩
  given _ hs hl := ⟨_, Sourcing.result_eq hs.1 hl⟩
  refused _ hl := Sourcing.result_refused hl

/-- No generator hands out the text of a session in which something failed, and none withholds the text of any
other session. -/
theorem generators_honest (hstyle : style = .knr ∨ style = .bsd) (hm : m.Orderly) (package : String) :
    (Header.generator style m).Honest ∧ (Dataclasses.generator m).Honest ∧
      (Conversion.generator package m).Honest ∧ (Printers.generator style m).Honest :=
  ⟨(Header.guarded hstyle hm).honest, (Dataclasses.guarded m).honest, (Conversion.guarded package hm).honest,
    (Printers.guarded hstyle hm).honest⟩

def grade : Enumeration :=
  ⟨"Grade", ["LOW", "HIGH"], .int 1, .bool true, .text "e"⟩

/-- A struct with a set, which has no spelling in C. -/
def tagged : Struct :=
  ⟨"Tagged", [⟨"grade", .enumeration grade, none⟩, ⟨"tags", .set "Tags" (.primitive .int8) [], none⟩], .bool false,
    .text "t"⟩

def ledger : Module :=
  ⟨"ledger", [⟨"LIMIT", .int 3⟩], [tagged], [grade]⟩

theorem ledger_orderly : ledger.Orderly where
  enumerations := by simpa [ledger] using ⟨by decide, _, rfl⟩
  structs := by simpa [ledger] using ⟨by decide, _, rfl⟩
  typed := by simp [ledger, Constant.typeOf?]
  short := by
    rintro c hc n hn
    cases List.mem_singleton.mp hc
    cases hn
    exact Decimal.tooLong_eq_false 1 (by decide) (by decide)

/-- An enumeration can be written before and after a struct that fails. Only before it is the text given out. -/
theorem generators_honest_ledger : ledger.Orderly ∧
    let requests := [Request.enumeration grade (ledger_orderly.enumerations grade List.mem_cons_self)]
    let header := Header.generator .knr ledger
    (∃ text t, header.result (header.session requests header.start).2 = .ok text t) ∧
      ∃ fault t, header.result (header.session (requests ++ .run :: requests) header.start).2 = .error fault t ∧
        fault.label = "ValueError" := by
  have hhonest := (generators_honest (.inl rfl) ledger_orderly "").1
  refine ⟨ledger_orderly, (hhonest _).1.mpr ?_, (hhonest _).2 ⟨some (.unspelledType "Tags"), ?_⟩⟩
  · decide +kernel
  · decide +kernel

end CodeBridge.Emit
