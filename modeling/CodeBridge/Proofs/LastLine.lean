import CodeBridge.Proofs.CutLines
import CodeBridge.Proofs.GoingRound

/-! # The end of the last line

A text that does not end with a line end is compared with the same text and one more line end. Both are read alike up
to the last line. There the shorter one loses a character, which changes what a macro says unless it is a blank, and
a body that is open there goes round the text instead of ending. An initialiser can look at the text, so that an
enumeration may come out otherwise even before the last line. Reading both gives the same just if nothing on the way
makes such a difference (`read_append_lineEnd_iff`). -/

namespace CodeBridge.Header

open Text Relation
open BodyStep (readBody)
open Evaluator (readFrom)

/-! ### Bodies -/

theorem Unended.behind_line {l rest : List Char} (h : Unended (l ++ '\n' :: rest)) : Unended rest := by
  refine h.of_isSuffix ((List.suffix_cons _ _).trans (List.suffix_append _ _)) ?_
  rintro rfl
  exact h.last (by simp)

section
variable {σ : Type}

theorem scanBody_nil (step : List Char → σ → Except Fault σ) (s : σ) : scanBody step s [] = .ok (s, some []) := by
  rw [scanBody]
  rfl

theorem scanBody_lineEnd {step : List Char → σ → Except Fault σ} {s : σ} (hblank : step ['\n'] s = .ok s) :
    scanBody step s ([] ++ ['\n']) = .ok (s, some []) := by
  refine (scanBody_line List.not_mem_nil List.not_mem_nil s []).trans ?_
  rw [List.nil_append, hblank]
  exact scanBody_nil step s

/-- A body that is closed before the last character is read alike, if it looks only at its lines. -/
theorem Unended.scanBody_closed {b : List Char} (hb : Unended b) (hbrace : '\x7d' ∈ b.dropLast)
    (f : σ → List Char → Except Fault σ) (s : σ) :
    (∃ fault, scanBody (onLine f) s b = .error fault ∧ scanBody (onLine f) s (b ++ ['\n']) = .error fault) ∨
      ∃ s' v, Unended v ∧ v.length ≤ b.length ∧ scanBody (onLine f) s b = .ok (s', some v) ∧
        scanBody (onLine f) s (b ++ ['\n']) = .ok (s', some (v ++ ['\n'])) := by
  induction hn : b.length using Nat.strong_induction_on generalizing b s with
  | _ n ih =>
    subst hn
    rcases exists_line_or_not_mem b with hlast | ⟨l, rest, hl, rfl⟩
    · have hclosed : Closes b := (closes_last hlast).mpr hbrace
      have hclosed' : Closes (b ++ ['\n']) := (closes_line hlast []).mpr ((List.dropLast_subset b) hbrace)
      exact .inr ⟨s, b, hb, Nat.le_refl _, hclosed.scanBody _ s, hclosed'.scanBody _ s⟩
    rw [List.append_assoc, List.cons_append]
    by_cases hm : '\x7d' ∈ l
    · have hclosed : Closes (l ++ '\n' :: rest) := (closes_line hl rest).mpr hm
      have hclosed' : Closes (l ++ '\n' :: (rest ++ ['\n'])) := (closes_line hl _).mpr hm
      refine .inr ⟨s, _, hb, Nat.le_refl _, hclosed.scanBody _ s, ?_⟩
      rw [hclosed'.scanBody _ s, List.append_assoc, List.cons_append]
    rw [scanBody_line hl hm, scanBody_line hl hm, onLine_line hl, onLine_line hl]
    cases f s (trim l) with
    | error fault => exact .inl ⟨fault, rfl, rfl⟩
    | ok s₁ =>
      have hrest := hb.behind_line
      have hbrace' : '\x7d' ∈ rest.dropLast := by
        rw [List.dropLast_append_of_ne_nil (List.cons_ne_nil _ _), List.dropLast_cons_of_ne_nil hrest.ne_nil] at hbrace
        simpa [hm] using hbrace
      have hlength : rest.length < (l ++ '\n' :: rest).length := by
        rw [List.length_append, List.length_cons]
        omega
      rcases ih rest.length hlength hrest hbrace' s₁ rfl with hfault | ⟨s', v, hv, hle, e⟩
      · exact .inl hfault
      · exact .inr ⟨s', v, hv, by omega, e⟩

section
variable {step : List Char → σ → Except Fault σ} (hstep : ∀ rest s f, step rest s ≠ .error f)
include hstep

theorem scanBody_ne_error (s : σ) (u : List Char) (f : Fault) : scanBody step s u ≠ .error f := by
  intro h
  fun_induction scanBody step s u with
  | case1 s rest hempty => cases h
  | case2 s rest hempty hbrace => cases h
  | case3 s rest hempty hbrace fault hfault => exact hstep rest s fault hfault
  | case4 s rest hempty hbrace s' hs next hnext ih => exact ih h
  | case5 s rest hempty hbrace s' hs hnext => cases h

theorem readBody_ne_fault (whole : List Char) (s : σ) (u : List Char) (f : Fault) :
    readBody whole step s u ≠ some (.error f) := by
  intro h
  refine BodyStep.readBody.partial_correctness whole step (fun _ _ r => r ≠ .error f) ?_ s u _ h rfl
  intro recur ih s rest r h hr
  subst hr
  rcases hscan : scanBody step s rest with g | ⟨s', _ | v⟩
  · exact scanBody_ne_error hstep s rest g hscan
  · rw [hscan] at h
    exact ih s' whole _ h rfl
  · rw [hscan] at h
    cases h

end

end

/-- A body that is closed before the last character ends at the same place. -/
theorem Unended.bodyEnd_closed {b : List Char} (hb : Unended b) (hbrace : '\x7d' ∈ b.dropLast) :
    ∃ v, Unended v ∧ v.length ≤ b.length ∧ bodyEnd b = some v ∧ bodyEnd (b ++ ['\n']) = some (v ++ ['\n']) := by
  rcases hb.scanBody_closed hbrace (fun (s : Unit) _ => .ok s) () with ⟨f, hscan, -⟩ | ⟨s, v, hv, hle, hscan, hscan'⟩
  · exact absurd hscan (scanBody_ne_error (fun _ _ _ h => by cases h) () b f)
  · exact ⟨v, hv, hle, (eq_bodyEnd_of_scanBody hscan).symm, (eq_bodyEnd_of_scanBody hscan').symm⟩

/-- A body that is still open on the last line ends on it if that line has a line end. -/
theorem Unended.bodyEnd_lineEnd {b v : List Char} (hbrace : '\x7d' ∉ b.dropLast) (h : bodyEnd (b ++ ['\n']) = some v) :
    v = [] ∨ (Closes v ∧ afterLine? v = some []) := by
  obtain ⟨hupTo, hv⟩ := openUpTo_of_bodyEnd h
  refine hv.imp id fun hclosed => ⟨hclosed, ?_⟩
  obtain ⟨a, e⟩ := hupTo.isSuffix
  rcases exists_line_or_not_mem v with hlast | ⟨l, rest, hl, rfl⟩
  · have hmem := congrArg List.getLast? e
    rw [List.getLast?_append_of_ne_nil a hclosed.ne_nil, List.getLast?_concat] at hmem
    exact absurd (List.mem_of_getLast? hmem) hlast
  rw [afterLine?_line hl]
  rcases List.eq_nil_or_concat rest with rfl | ⟨rest, z, rfl⟩
  · rfl
  -- More lines behind it would leave its brace before the last character.
  rw [List.concat_eq_append, ← List.cons_append, ← List.append_assoc, ← List.append_assoc] at e
  refine absurd ?_ hbrace
  rw [← (List.append_inj' e rfl).1, List.append_assoc, List.dropLast_append_of_ne_nil (by simp),
    List.dropLast_append_of_ne_nil (List.cons_ne_nil _ _)]
  exact List.mem_append_right _ (List.mem_append_left _ ((closes_line hl _).mp hclosed))

/-- A line of a struct is never a fault. -/
theorem struct_read_ne_fault {whole rest : List Char} {p : String × List Char}
    (hopen : opening? Kind.struct.keyword rest = some p) (f : Fault) : Kind.struct.read whole rest ≠ some (.error f) := by
  have hstep : ∀ (rest : List Char) s f, onLine addField rest s ≠ .error f := by
    intro rest s f h
    rw [onLine, addField] at h
    cases hfield : fieldLine? (lineOf rest) with
    | none =>
      rw [hfield] at h
      cases h
    | some e =>
      rw [hfield] at h
      cases h
  rw [Ne, Kind.read_eq_error_iff hopen]
  exact readBody_ne_fault hstep whole _ p.2 f

/-! ### Definitions -/

/-- A line end behind the text opens and shuts no body. -/
theorem opening?_append_lineEnd {keyword : List Char} (hk : '\x7d' ∉ keyword) (u : List Char) :
    opening? keyword (u ++ ['\n']) = (opening? keyword u).map fun p => (p.1, p.2 ++ ['\n']) := by
  cases hopen : opening? keyword u with
  | some p =>
    obtain ⟨start, -, rfl, hall⟩ := brace_not_mem_opening hk hopen
    rw [List.append_assoc, List.cons_append, hall]
    rfl
  | none =>
    by_contra hsome
    obtain ⟨⟨name, inside⟩, hmore⟩ := Option.ne_none_iff_exists'.mp hsome
    obtain ⟨start, -, e, hall⟩ := brace_not_mem_opening hk hmore
    rcases List.eq_nil_or_concat inside with rfl | ⟨b, z, rfl⟩
    · have hlast := congrArg List.getLast? e
      simp at hlast
    · rw [List.concat_eq_append, ← List.cons_append, ← List.append_assoc] at e
      rw [(List.append_inj' e rfl).1, hall] at hopen
      cases hopen

theorem Bodiless.append_lineEnd {u : List Char} (h : Bodiless u) : Bodiless (u ++ ['\n']) where
  enumeration := by
    rw [opening?_append_lineEnd (by decide), h.enumeration]
    rfl
  struct := by
    rw [opening?_append_lineEnd (by decide), h.struct]
    rfl

section
variable {ev : Evaluator} {whole rest b v : List Char} {d : Definitions} {k : Kind}

theorem turn_of_read (hk : KindAt ev whole rest d k) {p : String × List Char} (hopen : opening? k.keyword rest = some p) {g : Group}
    (hread : k.read whole rest = some (.ok (some (g, v)))) : Turn ev whole (d, rest) (k.add d g, v) := by
  refine .body ?_ (by rw [readDefinition_of_opening hk hopen, hread]; rfl)
  obtain ⟨start, -, rfl, -⟩ := brace_not_mem_opening k.keyword_brace hopen
  simp

theorem fault_of_read (hk : KindAt ev whole rest d k) {p : String × List Char} (hopen : opening? k.keyword rest = some p) {f : Fault}
    (hread : k.read whole rest = some (.error f)) : readDefinition ev whole rest d = some (.error f, d) := by
  rw [readDefinition_of_opening hk hopen, hread]
  rfl

end

theorem Definitions.note_inj {d : Definitions} {a b : Option Entry} : d.note a = d.note b ↔ a = b := by
  refine ⟨fun h => ?_, fun h => h ▸ rfl⟩
  have hconstants := congrArg Definitions.constants h
  cases a with
  | none =>
    cases b with
    | none => rfl
    | some e => simp [Definitions.note, Definitions.addConstant] at hconstants
  | some e =>
    cases b with
    | none => simp [Definitions.note, Definitions.addConstant] at hconstants
    | some e' => simpa [Definitions.note, Definitions.addConstant] using hconstants

/-! ### The way through the text -/

section
variable {ev : Evaluator} {text : List Char}

theorem forall_path_of_turn {a b : Definitions × List Char} (h : Turn ev text a b) {P : Definitions × List Char → Prop} :
    (∀ c, ReflTransGen (Turn ev text) a c → P c) ↔ P a ∧ ∀ c, ReflTransGen (Turn ev text) b c → P c := by
  constructor
  · exact fun hall => ⟨hall a .refl, fun c hc => hall c (hc.head h)⟩
  · rintro ⟨ha, hall⟩ c hc
    rcases ReflTransGen.cases_head hc with rfl | ⟨b', hb', hrest⟩
    · exact ha
    · rw [← h.unique hb'] at hrest
      exact hall c hrest

theorem forall_path_of_stop {a : Definitions × List Char} (h : ∀ b, ¬ Turn ev text a b) {P : Definitions × List Char → Prop} :
    (∀ c, ReflTransGen (Turn ev text) a c → P c) ↔ P a := by
  constructor
  · exact fun hall => hall a .refl
  · intro ha c hc
    rcases ReflTransGen.cases_head hc with rfl | ⟨b, hb, -⟩
    · exact ha
    · exact absurd hb (h b)

variable {rest : List Char} {d : Definitions}

theorem not_turn_nil (d : Definitions) (b : Definitions × List Char) : ¬ Turn ev text (d, []) b := by
  intro h
  cases h with
  | body hne hread => exact hne rfl
  | line hne hread hnext => exact hne rfl

theorem not_turn_of_error {f : Fault} {d' : Definitions} (h : readDefinition ev text rest d = some (.error f, d'))
    (b : Definitions × List Char) : ¬ Turn ev text (d, rest) b := by
  intro hturn
  cases hturn with
  | body hne hread => cases h.symm.trans hread
  | line hne hread hnext => cases h.symm.trans hread

theorem not_turn_of_last {d' : Definitions} (h : readDefinition ev text rest d = some (.ok none, d')) (hafter : afterLine? rest = none)
    (b : Definitions × List Char) : ¬ Turn ev text (d, rest) b := by
  intro hturn
  cases hturn with
  | body hne hread => cases h.symm.trans hread
  | line hne hread hnext => cases hafter.symm.trans hnext

end

/-! ### Places that make no difference -/

/-- Two outcomes of reading a group, in a text and in the text with a line end behind it: the same failure, or the same
group with its end at the same place. -/
inductive Matched : Option (Except Fault (Option (Group × List Char))) → Option (Except Fault (Option (Group × List Char))) → Prop
  | fault (f : Fault) : Matched (some (.error f)) (some (.error f))
  | finish (g : Group) : Matched (some (.ok (some (g, [])))) (some (.ok (some (g, []))))
  | group (g : Group) (v : List Char) : Matched (some (.ok (some (g, v)))) (some (.ok (some (g, v ++ ['\n']))))

/-- It does not matter to what is read at a place whether the text ends with a line end: no macro on its last line ends
with what is cut, no struct is still open there, and an enumeration comes out the same, be it as a fault. -/
structure Indifferent (ev : Evaluator) (text : List Char) (e : Definitions) (w : List Char) : Prop where
  cut : '\n' ∉ w → (constant? (trim w)).isSome → ∃ z ∈ w.getLast?, isBlank z = true
  struct : ∀ name b, opening? "struct".toList w = some (name, b) → b = [] ∨ '\x7d' ∈ b.dropLast
  enumeration : ∀ name b, opening? "enum".toList w = some (name, b) →
    Matched (readEnumeration ev e text w) (readEnumeration ev e (text ++ ['\n']) (w ++ ['\n']))

/-- The same if initialisers stand for the same wherever they are seen: then an enumeration that ends before the last
character comes out the same, and any other one has to fail. -/
structure Unaffected (value : String → Except Fault (String × Int)) (text : List Char) (e : Definitions) (w : List Char) :
    Prop where
  cut : '\n' ∉ w → (constant? (trim w)).isSome → ∃ z ∈ w.getLast?, isBlank z = true
  struct : ∀ name b, opening? "struct".toList w = some (name, b) → b = [] ∨ '\x7d' ∈ b.dropLast
  enumeration : ∀ name b, opening? "enum".toList w = some (name, b) → (b = [] ∨ '\x7d' ∈ b.dropLast) ∨
    ∃ f, readEnumeration (.ofText value) e text w = some (.error f) ∧
      readEnumeration (.ofText value) e (text ++ ['\n']) (w ++ ['\n']) = some (.error f)

section
variable {ev : Evaluator} {text u : List Char} {e : Definitions}

theorem constant?_eq_none_of_opening {k : Kind} (hk : KindAt ev text u e k) {p : String × List Char}
    (hopen : opening? k.keyword u = some p) : constant? (trim u) = none := by
  obtain ⟨gap, word, gap', -, -, -, -, hu⟩ := opening?_eq_some_iff.mp hopen
  obtain ⟨t, ht⟩ := k.keyword_solid.trim_append (gap ++ (word ++ (gap' ++ '\x7b' :: p.2)))
  rw [hu, ht]
  cases hk with
  | enumeration => exact constant?_eq_none rfl
  | struct => exact constant?_eq_none rfl

theorem Indifferent.of_bodiless (h : Bodiless u)
    (hcut : '\n' ∉ u → (constant? (trim u)).isSome → ∃ z ∈ u.getLast?, isBlank z = true) : Indifferent ev text e u where
  cut := hcut
  struct _ _ hopen := by cases h.struct.symm.trans hopen
  enumeration _ _ hopen := by cases h.enumeration.symm.trans hopen

theorem Indifferent.nil (ev : Evaluator) (text : List Char) (e : Definitions) : Indifferent ev text e [] :=
  .of_bodiless ⟨rfl, rfl⟩ fun _ h => by cases h

end

/-! ### Groups with and without the last line end -/

theorem detached_concat (b : List Char) : Detached [] (b ++ ['\n']) :=
  .of_suffix_line (List.suffix_append b _)

theorem opening?_lineEnd {k : Kind} {u b : List Char} {name : String} (h : opening? k.keyword u = some (name, b)) :
    opening? k.keyword (u ++ ['\n']) = some (name, b ++ ['\n']) := by
  rw [opening?_append_lineEnd k.keyword_brace, h]
  rfl

theorem Unended.of_opening {k : Kind} {u b : List Char} {name : String} (hu : Unended u)
    (h : opening? k.keyword u = some (name, b)) (hb : b ≠ []) : Unended b := by
  obtain ⟨start, -, rfl, -⟩ := brace_not_mem_opening k.keyword_brace h
  exact hu.of_isSuffix ((List.suffix_cons _ _).trans (List.suffix_append _ _)) hb

/-- A group in a text of whole lines ends or fails. -/
theorem Kind.read_ne_endless {k : Kind} {whole u b : List Char} {name : String}
    (hopen : opening? k.keyword (u ++ ['\n']) = some (name, b ++ ['\n'])) : k.read whole (u ++ ['\n']) ≠ none := by
  rw [k.read_eq hopen]
  rcases (detached_concat b).readBody_cases whole k.step k.start with ⟨f, hbody⟩ | ⟨s, v, -, -, hbody⟩
  · rw [hbody]
    rintro ⟨⟩
  · rw [hbody]
    rintro ⟨⟩

/-- A body that ends before the last character comes out the same, if it looks only at its lines. -/
theorem matched_of_closed {σ : Type} {k : Kind} {f : σ → List Char → Except Fault σ} {s : σ} {members : σ → List Entry}
    (hblank : f s [] = .ok s) {u b : List Char} {name : String} (hu : Unended u) (hopen : opening? k.keyword u = some (name, b))
    (hclosed : b = [] ∨ '\x7d' ∈ b.dropLast) (text : List Char) :
    Matched (readGroup k.keyword (onLine f) s members text u)
      (readGroup k.keyword (onLine f) s members (text ++ ['\n']) (u ++ ['\n'])) := by
  have hopen' := opening?_lineEnd hopen
  by_cases hb : b = []
  · -- A body that opens at the very end has no members, and no more text behind it.
    subst hb
    have hlineEnd : scanBody (onLine f) s ([] ++ ['\n']) = .ok (s, some []) := scanBody_lineEnd hblank
    rw [readGroup_of_opening hopen (readBody_of_scan (scanBody_nil _ s) text),
      readGroup_of_opening hopen' (readBody_of_scan hlineEnd _)]
    exact .finish _
  rcases (hu.of_opening hopen hb).scanBody_closed (hclosed.resolve_left hb) f s with
    ⟨fault, hscan, hscan'⟩ | ⟨s', v, -, -, hscan, hscan'⟩
  · simp only [readGroup, hopen, hopen', readBody_of_fault hscan, readBody_of_fault hscan']
    exact .fault fault
  · rw [readGroup_of_opening hopen (readBody_of_scan hscan text), readGroup_of_opening hopen' (readBody_of_scan hscan' _)]
    exact .group _ v

section
variable {k k' : Kind} {text u b v : List Char} {name : String}

/-- A group of whole lines ends where its lines do. -/
theorem bodyEnd_of_read_lineEnd (hopen : opening? k.keyword (u ++ ['\n']) = some (name, b ++ ['\n'])) {g : Group}
    (h : k.read text (u ++ ['\n']) = some (.ok (some (g, v)))) : bodyEnd (b ++ ['\n']) = some v := by
  obtain ⟨s, hbody, -⟩ := Kind.of_read_eq_some hopen h
  rcases (detached_concat b).readBody_cases text k.step k.start with ⟨f, hfault⟩ | ⟨s', v', -, hscan, hbody'⟩
  · cases hfault.symm.trans hbody
  · cases hbody'.symm.trans hbody
    exact (eq_bodyEnd_of_scanBody hscan).symm

/-- A group in a text without a last line end ends with a closing brace, before its start if it goes round. -/
theorem closes_of_read (htext : Unended text) (hopen : opening? k.keyword u = some (name, b)) (hb : Unended b) {g : Group}
    (h : k.read text u = some (.ok (some (g, v)))) : Closes v := by
  obtain ⟨s, hbody, -⟩ := Kind.of_read_eq_some hopen h
  rcases bodyEnd_of_readBody hbody with hend | ⟨-, hend⟩
  · exact (hb.closes_of_bodyEnd hend).1
  · exact (htext.closes_of_bodyEnd hend).1

/-- Groups that come out the same end before the last character, or else fail. -/
theorem Matched.closed_or_fault (htext : Unended text) (hu : Unended u) (hopen : opening? k.keyword u = some (name, b))
    (hopen' : opening? k'.keyword (u ++ ['\n']) = some (name, b ++ ['\n']))
    (h : Matched (k.read text u) (k'.read (text ++ ['\n']) (u ++ ['\n']))) :
    (b = [] ∨ '\x7d' ∈ b.dropLast) ∨
      ∃ f, k.read text u = some (.error f) ∧ k'.read (text ++ ['\n']) (u ++ ['\n']) = some (.error f) := by
  by_cases hb : b = []
  · exact .inl (.inl hb)
  have hbu := hu.of_opening hopen hb
  generalize hr : k.read text u = r, hr' : k'.read (text ++ ['\n']) (u ++ ['\n']) = r' at h
  cases h with
  | fault f => exact .inr ⟨f, rfl, rfl⟩
  | finish g => exact absurd rfl (closes_of_read htext hopen hbu hr).ne_nil
  | group g v =>
    obtain ⟨hupTo, -⟩ := openUpTo_of_bodyEnd (bodyEnd_of_read_lineEnd hopen' hr')
    obtain ⟨a, ha⟩ := hupTo.isSuffix
    rw [← List.append_assoc] at ha
    have hv : v <:+ b := ⟨a, (List.append_inj' ha rfl).1⟩
    exact .inl (.inr ((closes_of_read htext hopen hbu hr).mem_dropLast hv))

end

section
variable {ev : Evaluator} {text u : List Char} {e : Definitions} (htext : Unended text) (hu : Unended u)
include htext hu

/-- Where a struct opens only its end counts, and that is whether it comes out the same. -/
theorem indifferent_struct_iff {name : String} {b : List Char} (hopen : opening? "struct".toList u = some (name, b)) :
    Indifferent ev text e u ↔ Matched (readStruct text u) (readStruct (text ++ ['\n']) (u ++ ['\n'])) := by
  have hk : KindAt ev text u e .struct := .struct
  have hopen' := opening?_lineEnd (k := Kind.struct) hopen
  refine ⟨fun h => ?_, fun h => ⟨fun _ hsome => ?_, fun _ _ hother => ?_, fun _ _ hother => ?_⟩⟩
  · exact matched_of_closed (k := Kind.struct) rfl hu hopen (h.struct name b hopen) text
  · rw [constant?_eq_none_of_opening hk hopen] at hsome
    cases hsome
  · cases hopen.symm.trans hother
    have hmatched : Matched (Kind.struct.read text u) (Kind.struct.read (text ++ ['\n']) (u ++ ['\n'])) := h
    rcases hmatched.closed_or_fault htext hu hopen hopen' with hclosed | ⟨f, hf, -⟩
    · exact hclosed
    · exact absurd hf (struct_read_ne_fault hopen f)
  · have henum : KindAt ev text u e _ := .enumeration
    cases hk.keyword_eq henum hopen hother

omit htext hu in
/-- Where an enumeration opens it counts whether it comes out the same. -/
theorem indifferent_enumeration_iff {name : String} {b : List Char} (hopen : opening? "enum".toList u = some (name, b)) :
    Indifferent ev text e u ↔ Matched (readEnumeration ev e text u) (readEnumeration ev e (text ++ ['\n']) (u ++ ['\n'])) := by
  have hk : KindAt ev text u e _ := .enumeration
  refine ⟨fun h => h.enumeration name b hopen, fun h => ⟨fun _ hsome => ?_, fun _ _ hother => ?_, fun _ _ _ => h⟩⟩
  · rw [constant?_eq_none_of_opening hk hopen] at hsome
    cases hsome
  · have hstruct : KindAt ev text u e .struct := .struct
    cases hk.keyword_eq hstruct hopen hother

/-- If initialisers stand for the same wherever they are seen, then an enumeration comes out the same just if it ends
before the last character or fails in the same way. -/
theorem matched_ofText_iff (value : String → Except Fault (String × Int)) {name : String} {b : List Char}
    (hopen : opening? "enum".toList u = some (name, b)) :
    Matched (readEnumeration (.ofText value) e text u) (readEnumeration (.ofText value) e (text ++ ['\n']) (u ++ ['\n'])) ↔
      (b = [] ∨ '\x7d' ∈ b.dropLast) ∨ ∃ f, readEnumeration (.ofText value) e text u = some (.error f) ∧
        readEnumeration (.ofText value) e (text ++ ['\n']) (u ++ ['\n']) = some (.error f) := by
  have hopen' := opening?_lineEnd (k := Kind.enumeration fun _ _ => value) hopen
  constructor
  · intro h
    have hmatched : Matched ((Kind.enumeration fun _ _ => value).read text u)
      ((Kind.enumeration fun _ _ => value).read (text ++ ['\n']) (u ++ ['\n'])) := h
    exact hmatched.closed_or_fault htext hu hopen hopen'
  · rintro (hclosed | ⟨f, hf, hf'⟩)
    · exact matched_of_closed (k := Kind.enumeration fun _ _ => value) (f := countMember value) rfl hu hopen hclosed text
    · rw [hf, hf']
      exact .fault f

end

/-! ### Reading with and without the last line end -/

section
variable {ev : Evaluator} {text u : List Char} {e : Definitions}

/-- How reading goes on at the same place of a text without a last line end and of the text with it. -/
inductive Paired (ev : Evaluator) (text u : List Char) (e : Definitions) : Prop where
  /-- What is found differs. -/
  | differ (h : ¬Indifferent ev text e u) (hdiffer : readFrom ev (text ++ ['\n']) (u ++ ['\n']) e ≠ readFrom ev text u e)
  /-- Both stop at this place, in the same way. -/
  | stop (h : Indifferent ev text e u) (hstop : ∀ c, ¬Turn ev text (e, u) c)
      (hsame : readFrom ev (text ++ ['\n']) (u ++ ['\n']) e = readFrom ev text u e)
  /-- Both come to their ends. -/
  | finish (e' : Definitions) (h : Indifferent ev text e u) (hturn : Turn ev text (e, u) (e', []))
      (hturn' : Turn ev (text ++ ['\n']) (e, u ++ ['\n']) (e', []))
  /-- Both go on at the same place. -/
  | turn (e' : Definitions) {v : List Char} (hv : Unended v) (hlength : v.length < u.length) (h : Indifferent ev text e u)
      (hturn : Turn ev text (e, u) (e', v)) (hturn' : Turn ev (text ++ ['\n']) (e, u ++ ['\n']) (e', v ++ ['\n']))

theorem Definitions.Grown.size_le {d d' : Definitions} (h : d.Grown d') : d.size ≤ d'.size := by
  have h₁ := h.constants.length_le
  have h₂ := h.enumerations.length_le
  have h₃ := h.structs.length_le
  unfold Definitions.size
  omega

section
variable {whole : List Char} {k k' : Kind}

theorem KindAt.add_eq (hk : KindAt ev text u e k) {u' : List Char} (hk' : KindAt ev whole u' e k') (h : k.keyword = k'.keyword) :
    k.add = k'.add := by
  cases hk with
  | enumeration =>
    cases hk' with
    | enumeration => rfl
    | struct => cases h
  | struct =>
    cases hk' with
    | enumeration => cases h
    | struct => rfl

/-- The first group that is added behind the definitions stays what it is. -/
theorem KindAt.eq_of_grown (hk : KindAt ev text u e k) {g g' : Group} {d : Definitions} (h : (k.add e g).Grown d)
    (h' : (k.add e g').Grown d) : g = g' := by
  have hlast : ∀ {gs all : List Group}, gs ++ [g] <+: all → gs ++ [g'] <+: all → g = g' := by
    intro gs all hg hg'
    have heq := (List.prefix_of_prefix_length_le hg hg' (by simp)).eq_of_length (by simp)
    simpa using heq
  cases hk with
  | enumeration => exact hlast h.enumerations h'.enumerations
  | struct => exact hlast h.structs h'.structs

theorem KindAt.members_start (hk : KindAt ev text u e k) : k.members k.start = [] := by
  cases hk with
  | enumeration => rfl
  | struct => rfl

theorem KindAt.read_empty (hk : KindAt ev text u e k) {name : String} {inside : List Char}
    (hopen : opening? k.keyword u = some (name, inside)) (hscan : scanBody k.step k.start inside = .ok (k.start, some []))
    (whole : List Char) : k.read whole u = some (.ok (some (⟨name, [], none⟩, []))) := by
  rw [k.read_eq hopen, readBody_of_scan hscan]
  dsimp only [Option.map_some, Except.map]
  rw [hk.members_start]

end

section
variable {k k' : Kind} {name : String} {b : List Char}

/-- Where a body is still open on the last line reading does not come to its end. -/
theorem not_returns_of_unclosed (htext : Unended text) (hpath : ReflTransGen (Goes ev text) text u) (hk : KindAt ev text u e k)
    (hopen : opening? k.keyword u = some (name, b)) (hb : Unended b) (hbrace : '\x7d' ∉ b.dropLast) (d' : Definitions) :
    readFrom ev text u e ≠ some (.ok (), d') := by
  have hne : u ≠ [] := by
    obtain ⟨start, -, rfl, -⟩ := brace_not_mem_opening k.keyword_brace hopen
    simp
  rcases hread : k.read text u with _ | f | _ | ⟨g, v⟩
  · rw [readFrom_of_endless hne (by rw [readDefinition_of_opening hk hopen, hread]; rfl)]
    rintro ⟨⟩
  · rw [readFrom_of_error hne (fault_of_read hk hopen hread)]
    rintro ⟨⟩
  · exact absurd hread (k.read_ne_none hopen text)
  · exact htext.not_returns hpath hk hopen hb hbrace hread e d'

/-- With a line end behind it a body that is open on the last line ends there, and reading with it. -/
theorem returns_of_unclosed (hk : KindAt ev text (u ++ ['\n']) e k)
    (hopen : opening? k.keyword (u ++ ['\n']) = some (name, b ++ ['\n'])) (hbrace : '\x7d' ∉ b.dropLast) {g : Group} {v : List Char}
    (hread : k.read text (u ++ ['\n']) = some (.ok (some (g, v)))) :
    ∃ d', readFrom ev text (u ++ ['\n']) e = some (.ok (), d') := by
  have hturn := turn_of_read hk hopen hread
  rcases Unended.bodyEnd_lineEnd hbrace (bodyEnd_of_read_lineEnd hopen hread) with rfl | ⟨hclosed, hafter⟩
  · exact ⟨_, hturn.readFrom.trans (readFrom_nil _ _ _)⟩
  · obtain ⟨d', hpath⟩ := hclosed.passes hafter (k.add e g)
    exact ⟨d', hturn.readFrom.trans ((readFrom_of_path hpath).trans (readFrom_nil _ _ _))⟩

/-- A group that is found is missing where reading fails before. -/
theorem readFrom_ne_of_turn {whole rest v : List Char} {g : Group}
    (hturn : Turn ev whole (e, rest) (k.add e g, v)) (f : Fault) : readFrom ev whole rest e ≠ some (.error f, e) := by
  intro h
  have hsize := (grown_of_readFrom (hturn.readFrom.symm.trans h)).size_le
  rw [k.size_add] at hsize
  omega

/-- What the outcomes of a group with and without the last line end make of reading. -/
theorem paired_of_opening (htext : Unended text) (hu : Unended u) (hpath : ReflTransGen (Goes ev text) text u)
    (hend : readFrom ev text u e ≠ none) (hk : KindAt ev text u e k) (hk' : KindAt ev (text ++ ['\n']) (u ++ ['\n']) e k')
    (hkeyword : k.keyword = k'.keyword) (hopen : opening? k.keyword u = some (name, b))
    (hmatched : Indifferent ev text e u ↔ Matched (k.read text u) (k'.read (text ++ ['\n']) (u ++ ['\n']))) :
    Paired ev text u e := by
  have hne' : u ++ ['\n'] ≠ [] := by simp
  have hopen' : opening? k'.keyword (u ++ ['\n']) = some (name, b ++ ['\n']) := hkeyword ▸ opening?_lineEnd hopen
  have hdiffer : ∀ {r r'}, k.read text u = r → k'.read (text ++ ['\n']) (u ++ ['\n']) = r' → ¬Matched r r' →
      readFrom ev (text ++ ['\n']) (u ++ ['\n']) e ≠ readFrom ev text u e → Paired ev text u e := by
    rintro _ _ rfl rfl hnot hdiffer
    exact .differ (hmatched.not.mpr hnot) hdiffer
  rcases hread : k.read text u with _ | f | _ | ⟨g, v⟩
  · exact absurd (readFrom_of_endless hu.ne_nil (by rw [readDefinition_of_opening hk hopen, hread]; rfl)) hend
  · have hfault := fault_of_read hk hopen hread
    have hfrom := readFrom_of_error hu.ne_nil hfault
    rcases hread' : k'.read (text ++ ['\n']) (u ++ ['\n']) with _ | f' | _ | ⟨g', v'⟩
    · exact absurd hread' (k'.read_ne_endless hopen')
    · have hfrom' := readFrom_of_error hne' (fault_of_read hk' hopen' hread')
      by_cases hf : f' = f
      · subst hf
        exact .stop (hmatched.mpr (by rw [hread, hread']; exact .fault f')) (not_turn_of_error hfault) (hfrom'.trans hfrom.symm)
      · refine hdiffer hread hread' (fun h => ?_) fun h => ?_
        · cases h
          exact hf rfl
        · cases hfrom'.symm.trans (h.trans hfrom)
          exact hf rfl
    · exact absurd hread' (k'.read_ne_none hopen' _)
    · refine hdiffer hread hread' (fun h => by cases h) fun h => ?_
      exact readFrom_ne_of_turn (turn_of_read hk' hopen' hread') f (h.trans hfrom)
  · exact absurd hread (k.read_ne_none hopen text)
  · have hturn := turn_of_read hk hopen hread
    rcases hread' : k'.read (text ++ ['\n']) (u ++ ['\n']) with _ | f' | _ | ⟨g', v'⟩
    · exact absurd hread' (k'.read_ne_endless hopen')
    · have hfrom' := readFrom_of_error hne' (fault_of_read hk' hopen' hread')
      refine hdiffer hread hread' (fun h => by cases h) fun h => ?_
      exact readFrom_ne_of_turn hturn f' (h.symm.trans hfrom')
    · exact absurd hread' (k'.read_ne_none hopen' _)
    have hturn' := turn_of_read hk' hopen' hread'
    rw [← hk.add_eq hk' hkeyword] at hturn'
    by_cases hb : b = []
    · subst hb
      cases (hk.read_empty hopen (scanBody_nil _ _) text).symm.trans hread
      cases (hk'.read_empty hopen' (scanBody_lineEnd (k'.step_blank _ _ rfl)) _).symm.trans hread'
      exact .finish _ (hmatched.mpr (by rw [hread, hread']; exact .finish _)) hturn hturn'
    have hbu := hu.of_opening hopen hb
    have hlength : b.length < u.length := by
      obtain ⟨start, -, rfl, -⟩ := brace_not_mem_opening k.keyword_brace hopen
      rw [List.length_append, List.length_cons]
      omega
    by_cases hbrace : '\x7d' ∈ b.dropLast
    · -- The group ends at the same place, and only its members can differ.
      obtain ⟨w, hw, hle, hplace, hplace'⟩ := hbu.bodyEnd_closed hbrace
      obtain ⟨s, hbody, -⟩ := Kind.of_read_eq_some hopen hread
      have hv : v = w := by
        rcases bodyEnd_of_readBody hbody with h | ⟨h, -⟩
        · exact Option.some.inj (h.symm.trans hplace)
        · cases h.symm.trans hplace
      have hv' : v' = w ++ ['\n'] := Option.some.inj ((bodyEnd_of_read_lineEnd hopen' hread').symm.trans hplace')
      subst hv hv'
      by_cases hg : g = g'
      · subst hg
        exact .turn _ hw (by omega) (hmatched.mpr (by rw [hread, hread']; exact .group g v)) hturn hturn'
      · refine hdiffer hread hread' (fun h => ?_) fun h => ?_
        · cases h
          exact hg rfl
        · obtain ⟨⟨r, d⟩, hd⟩ := Option.ne_none_iff_exists'.mp hend
          exact hg (hk.eq_of_grown (grown_of_readFrom (hturn.readFrom.symm.trans hd))
            (grown_of_readFrom (hturn'.readFrom.symm.trans (h.trans hd))))
    · refine hdiffer hread hread' (fun h => ?_) fun h => ?_
      · rw [← hread, ← hread'] at h
        rcases h.closed_or_fault htext hu hopen hopen' with hclosed | ⟨f, hf, -⟩
        · exact hclosed.elim hb hbrace
        · cases hf.symm.trans hread
      · obtain ⟨d, hreturns⟩ := returns_of_unclosed hk' hopen' hbrace hread'
        exact not_returns_of_unclosed htext hpath hk hopen hbu hbrace d (h.symm.trans hreturns)

end

theorem readFrom_last (hne : u ≠ []) (hl : '\n' ∉ u) (hnone : Bodiless u) :
    readFrom ev text u e = some (.ok (), e.note (constant? (trim u.dropLast))) := by
  have hread := hnone.readDefinition ev text e
  rw [lineOf_of_not_mem hl] at hread
  exact readFrom_of_last hne hread (afterLine?_of_not_mem hl)

theorem readFrom_lineEnd (hl : '\n' ∉ u) (hnone : Bodiless u) :
    readFrom ev text (u ++ ['\n']) e = some (.ok (), e.note (constant? (trim u))) := by
  have hread := hnone.append_lineEnd.readDefinition ev text e
  rw [lineOf_line hl []] at hread
  rw [readFrom_of_none (by simp) hread (afterLine?_line hl [])]
  exact readFrom_nil ev text _

theorem paired_of_bodiless (hu : Unended u) (hnone : Bodiless u) : Paired ev text u e := by
  have hread := hnone.readDefinition ev text e
  rcases exists_line_or_not_mem u with hlast | ⟨l, rest, hl, rfl⟩
  · have hindifferent : Indifferent ev text e u ↔ constant? (trim u.dropLast) = constant? (trim u) := by
      rw [constant?_cut_iff hu.ne_nil hlast]
      exact ⟨fun h => h.cut hlast, fun h => .of_bodiless hnone fun _ => h⟩
    have hfrom : readFrom ev text u e = _ := readFrom_last hu.ne_nil hlast hnone
    have hfrom' : readFrom ev (text ++ ['\n']) (u ++ ['\n']) e = _ := readFrom_lineEnd hlast hnone
    by_cases h : Indifferent ev text e u
    · refine .stop h (not_turn_of_last hread (afterLine?_of_not_mem hlast)) ?_
      rw [hfrom, hfrom', hindifferent.mp h]
    · refine .differ h fun heq => h (hindifferent.mpr ?_)
      rw [hfrom, hfrom'] at heq
      have hnote : e.note (constant? (trim u)) = e.note (constant? (trim u.dropLast)) := (Prod.mk.inj (Option.some.inj heq)).2
      exact (Definitions.note_inj.mp hnote).symm
  · have hread' := hnone.append_lineEnd.readDefinition ev (text ++ ['\n']) e
    have hline : l ++ '\n' :: rest ++ ['\n'] = l ++ '\n' :: (rest ++ ['\n']) := by rw [List.append_assoc, List.cons_append]
    rw [hline, lineOf_line hl, ← lineOf_line hl rest, ← hline] at hread'
    have hafter' : afterLine? (l ++ '\n' :: rest ++ ['\n']) = some (rest ++ ['\n']) := by
      rw [hline]
      exact afterLine?_line hl _
    refine .turn _ hu.behind_line ?_ (.of_bodiless hnone fun hl' => ?_) (.line hu.ne_nil hread (afterLine?_line hl rest))
      (.line (by simp) hread' hafter')
    · rw [List.length_append, List.length_cons]
      omega
    · simp at hl'

theorem paired (htext : Unended text) (hu : Unended u) (hpath : ReflTransGen (Goes ev text) text u)
    (hend : readFrom ev text u e ≠ none) : Paired ev text u e := by
  cases henum : opening? "enum".toList u with
  | some p =>
    exact paired_of_opening htext hu hpath hend .enumeration .enumeration rfl henum (indifferent_enumeration_iff henum)
  | none =>
    cases hstruct : opening? "struct".toList u with
    | some p => exact paired_of_opening htext hu hpath hend .struct .struct rfl hstruct (indifferent_struct_iff htext hu hstruct)
    | none => exact paired_of_bodiless hu ⟨henum, hstruct⟩

/-- From a place on that reading comes to, both texts are read alike just if nothing on the way makes a difference. -/
theorem readFrom_append_lineEnd_iff (htext : Unended text) (hu : Unended u) (hpath : ReflTransGen (Goes ev text) text u)
    (hend : readFrom ev text u e ≠ none) :
    readFrom ev (text ++ ['\n']) (u ++ ['\n']) e = readFrom ev text u e ↔
      ∀ c, ReflTransGen (Turn ev text) (e, u) c → Indifferent ev text c.1 c.2 := by
  induction hn : u.length using Nat.strong_induction_on generalizing u e with
  | _ n ih =>
    subst hn
    cases paired htext hu hpath hend with
    | differ h hdiffer => exact iff_of_false hdiffer fun hall => h (hall _ .refl)
    | stop h hstop hsame => exact iff_of_true hsame ((forall_path_of_stop hstop).mpr h)
    | finish e' h hturn hturn' =>
      refine iff_of_true ?_ ((forall_path_of_turn hturn).mpr ⟨h, (forall_path_of_stop (not_turn_nil _)).mpr (.nil ev text e')⟩)
      exact (hturn'.readFrom.trans (readFrom_nil _ _ _)).trans (hturn.readFrom.trans (readFrom_nil _ _ _)).symm
    | turn e' hv hlength h hturn hturn' =>
      have hfrom : readFrom ev text u e = _ := hturn.readFrom
      have hfrom' : readFrom ev (text ++ ['\n']) (u ++ ['\n']) e = _ := hturn'.readFrom
      rw [hfrom] at hend
      rw [hfrom, hfrom', forall_path_of_turn hturn, ih _ hlength hv (hpath.tail ⟨e, e', hturn⟩) hend rfl]
      exact (and_iff_right h).symm

end

/-- Reading the text with the definitions `d` comes to the place `w` with the definitions `e`. -/
def Visits (ev : Evaluator) (text : List Char) (d e : Definitions) (w : List Char) : Prop :=
  ReflTransGen (Turn ev text) (d, text) (e, w)

theorem Goes.isSuffix {ev : Evaluator} {whole x y : List Char} (h : Goes ev whole x y) (hx : x <:+ whole) : y <:+ whole := by
  rcases h.cases with ⟨d, k, name, inside, s, -, hopen, hbody⟩ | ⟨-, hnext⟩
  · obtain ⟨start, -, rfl, -⟩ := brace_not_mem_opening k.keyword_brace hopen
    have hinside : inside <:+ whole := ((List.suffix_cons _ _).trans (List.suffix_append _ _)).trans hx
    rcases bodyEnd_of_readBody hbody with hend | ⟨-, hend⟩
    · exact (openUpTo_of_bodyEnd hend).1.isSuffix.trans hinside
    · exact (openUpTo_of_bodyEnd hend).1.isSuffix
  · exact (suffix_of_afterLine?_eq_some hnext).trans hx

theorem Visits.isSuffix {ev : Evaluator} {text w : List Char} {d e : Definitions} (h : Visits ev text d e w) : w <:+ text := by
  have hpath : ReflTransGen (Goes ev text) text w := goes_of_path h
  clear h
  induction hpath with
  | refl => exact List.suffix_rfl
  | tail _ hgo ih => exact hgo.isSuffix ih

/-- At the places that reading comes to, the two conditions are the same. -/
theorem Visits.indifferent_iff {value : String → Except Fault (String × Int)} {text w : List Char} {d e : Definitions}
    (h : Visits (.ofText value) text d e w) (htext : text.getLast? ≠ some '\n') :
    Indifferent (.ofText value) text e w ↔ Unaffected value text e w := by
  have hplace := fun (name : String) (b : List Char) (hopen : opening? "enum".toList w = some (name, b)) => by
    have hne : w ≠ [] := by
      rintro rfl
      cases hopen
    have hunended : Unended text := ⟨fun hnil => hne (List.suffix_nil.mp (hnil ▸ h.isSuffix)), htext⟩
    exact matched_ofText_iff (e := e) hunended (hunended.of_isSuffix h.isSuffix hne) value hopen
  constructor
  · intro hall
    exact ⟨hall.cut, hall.struct, fun name b hopen => (hplace name b hopen).mp (hall.enumeration name b hopen)⟩
  · intro hall
    exact ⟨hall.cut, hall.struct, fun name b hopen => (hplace name b hopen).mpr (hall.enumeration name b hopen)⟩

theorem Unended.read_append_iff {ev : Evaluator} {text : List Char} (h : Unended text) (d : Definitions)
    (hend : read ev text d ≠ none) :
    read ev (text ++ ['\n']) d = read ev text d ↔ ∀ e w, Visits ev text d e w → Indifferent ev text e w := by
  rw [Header.read, Header.read, readFrom_append_lineEnd_iff h h .refl hend]
  exact ⟨fun hall e w hvisits => hall (e, w) hvisits, fun hall c hpath => hall c.1 c.2 hpath⟩

theorem unifyLineEnds_concat_carriage (a : List Char) :
    unifyLineEnds (a ++ ['\r'] ++ ['\n']) = unifyLineEnds (a ++ ['\r']) := by
  have hboth : unifyLineEnds (a ++ "\r\n".toList) = unifyLineEnds a ++ ['\n'] := unifyLineEnds_append (.inr (by decide))
  have hone : unifyLineEnds (a ++ ['\r']) = unifyLineEnds a ++ ['\n'] := unifyLineEnds_append (.inr (by decide))
  rw [hone, List.append_assoc]
  exact hboth

theorem getLast?_unifyLineEnds_ne {c : List Char} (h : c.getLast? ≠ some '\n') (hcarriage : c.getLast? ≠ some '\r') :
    (unifyLineEnds c).getLast? ≠ some '\n' := by
  rcases List.eq_nil_or_concat' c with rfl | ⟨a, z, rfl⟩
  · rintro ⟨⟩
  · rw [List.getLast?_concat] at h hcarriage
    have hz : unifyLineEnds [z] = [z] := unifyLineEnds_of_not_mem (by simpa using fun e => hcarriage (congrArg some e.symm))
    rw [unifyLineEnds_append (.inr (by simpa using h)), hz, List.getLast?_concat]
    exact h

theorem read_unifyLineEnds_iff {ev : Evaluator} {c : List Char} (h : c.getLast? ≠ some '\n')
    (hcarriage : c.getLast? ≠ some '\r') (d : Definitions) (hend : read ev (unifyLineEnds c) d ≠ none) :
    read ev (unifyLineEnds (c ++ ['\n'])) d = read ev (unifyLineEnds c) d ↔
      ∀ e w, Visits ev (unifyLineEnds c) d e w → Indifferent ev (unifyLineEnds c) e w := by
  rw [unifyLineEnds_append (.inl hcarriage), show unifyLineEnds ['\n'] = ['\n'] from rfl]
  by_cases hnil : unifyLineEnds c = []
  · rw [hnil]
    refine iff_of_true ?_ fun e w hvisits => ?_
    · have hlineEnd : readFrom ev ['\n'] ([] ++ ['\n']) d = _ := readFrom_lineEnd List.not_mem_nil ⟨rfl, rfl⟩
      exact hlineEnd.trans (readFrom_nil ev [] d).symm
    · rw [List.suffix_nil.mp hvisits.isSuffix]
      exact .nil ev [] e
  · exact Unended.read_append_iff ⟨hnil, getLast?_unifyLineEnds_ne h hcarriage⟩ d hend

/-- A text that reading stops with is read like the same text with one more line end just if it ends with a carriage
return, which is a line end, or if nothing on the way makes a difference. If initialisers stand for the same wherever
they are seen, only enumerations that are still open on the last line make one, and only if they do not fail. -/
theorem read_append_lineEnd_iff (ev : Evaluator) {c : List Char} (h : c.getLast? ≠ some '\n') (d : Definitions)
    (hend : read ev (unifyLineEnds c) d ≠ none) :
    (read ev (unifyLineEnds (c ++ ['\n'])) d = read ev (unifyLineEnds c) d ↔
        c.getLast? = some '\r' ∨ ∀ e w, Visits ev (unifyLineEnds c) d e w → Indifferent ev (unifyLineEnds c) e w) ∧
      ∀ value, ev = .ofText value →
        (read ev (unifyLineEnds (c ++ ['\n'])) d = read ev (unifyLineEnds c) d ↔
          c.getLast? = some '\r' ∨ ∀ e w, Visits ev (unifyLineEnds c) d e w → Unaffected value (unifyLineEnds c) e w) := by
  by_cases hcarriage : c.getLast? = some '\r'
  · obtain ⟨a, rfl⟩ := List.getLast?_eq_some_iff.mp hcarriage
    have hsame := congrArg (fun text => read ev text d) (unifyLineEnds_concat_carriage a)
    exact ⟨iff_of_true hsame (.inl hcarriage), fun value _ => iff_of_true hsame (.inl hcarriage)⟩
  · have hiff := read_unifyLineEnds_iff h hcarriage d hend
    refine ⟨hiff.trans (or_iff_right hcarriage).symm, ?_⟩
    rintro value rfl
    rw [hiff, or_iff_right hcarriage]
    have hlast := getLast?_unifyLineEnds_ne h hcarriage
    constructor
    · exact fun hall e w hvisits => (hvisits.indifferent_iff hlast).mp (hall e w hvisits)
    · exact fun hall e w hvisits => (hvisits.indifferent_iff hlast).mpr (hall e w hvisits)

/-- A macro line with a blank behind its comment. -/
def blankEnded : List Char :=
  "#define A 12 // a dozen\t".toList

theorem read_append_lineEnd_blank : blankEnded.getLast? ≠ some '\n' ∧
    read (.ofText Initializer.evaluate) (unifyLineEnds blankEnded) {} ≠ none ∧
    read (.ofText Initializer.evaluate) (unifyLineEnds (blankEnded ++ ['\n'])) {} =
      read (.ofText Initializer.evaluate) (unifyLineEnds blankEnded) {} := by
  have hbodiless : Bodiless blankEnded := ⟨rfl, rfl⟩
  have hread : read (.ofText Initializer.evaluate) blankEnded {} = some (.ok (), _) := readFrom_last (by decide) (by decide) hbodiless
  have hend : read (.ofText Initializer.evaluate) (unifyLineEnds blankEnded) {} ≠ none := by
    intro h
    cases hread.symm.trans h
  have hindifferent : Indifferent (.ofText Initializer.evaluate) blankEnded {} blankEnded :=
    .of_bodiless hbodiless fun _ _ => ⟨'\t', rfl, rfl⟩
  refine ⟨by decide, hend, (read_append_lineEnd_iff _ (by decide) {} hend).1.mpr (.inr fun e w hvisits => ?_)⟩
  exact (forall_path_of_stop (P := fun p => Indifferent (.ofText Initializer.evaluate) blankEnded p.1 p.2)
    (not_turn_of_last (hbodiless.readDefinition _ _ _) rfl)).mpr hindifferent _ hvisits

/-- Without a line end behind it the macro loses its last digit. -/
theorem read_lineEnd_digit :
    read (.ofText Initializer.evaluate) (unifyLineEnds "#define A 12".toList) {} =
        some (.ok (), ⟨[⟨"A", some "1", some ""⟩], [], []⟩) ∧
      read (.ofText Initializer.evaluate) (unifyLineEnds ("#define A 12".toList ++ ['\n'])) {} =
        some (.ok (), ⟨[⟨"A", some "12", some ""⟩], [], []⟩) := by
  have hnone : Bodiless "#define A 12".toList := ⟨rfl, rfl⟩
  have hcut : constant? (trim "#define A 12".toList.dropLast) = some ⟨"A", some "1", some ""⟩ := by decide +kernel
  have hwhole : constant? (trim "#define A 12".toList) = some ⟨"A", some "12", some ""⟩ := by decide +kernel
  constructor
  · refine (readFrom_last (by decide) (by decide) hnone).trans ?_
    rw [hcut]
    rfl
  · refine (readFrom_lineEnd (by decide) hnone).trans ?_
    rw [hwhole]
    rfl

end CodeBridge.Header
