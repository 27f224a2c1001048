import CodeBridge.Proofs.HeaderReading

/-! # One header behind another

Nothing that is read in a text looks past a closing brace that ends it. So two texts of which the first ends
with such a brace are read as one text just as they are read one after the other: with the same definitions, and
with the same fault at the same place. One definition is compared with the same definition in front of more text
(`Alike`), and reading a whole text follows by induction on its length. -/

namespace CodeBridge.Header

open Text
open Evaluator (readFrom)

/-! ### Texts that stand for themselves -/

/-- A text that can be read without looking at what stands behind it: it is made of whole lines, and if more
stands behind it, then a brace that ends every body opened before. -/
structure Detached (more u : List Char) : Prop where
  lines : u ≠ [] → u.getLast? = some '\n'
  closed : u ≠ [] → more ≠ [] → "\x7d;\n".toList <:+ u

namespace Detached
variable {more u : List Char}

theorem nil (more : List Char) : Detached more [] :=
  ⟨fun h => absurd rfl h, fun h => absurd rfl h⟩

theorem of_suffix (h : "\x7d;\n".toList <:+ u) (more : List Char) : Detached more u := by
  obtain ⟨a, rfl⟩ := h
  exact ⟨fun _ => by simp, fun _ _ => List.suffix_append _ _⟩

theorem of_suffix_line (h : "\n".toList <:+ u) : Detached [] u := by
  obtain ⟨a, rfl⟩ := h
  exact ⟨fun _ => by simp, fun _ h => absurd rfl h⟩

theorem exists_line (h : Detached more u) (hne : u ≠ []) : ∃ l rest, '\n' ∉ l ∧ u = l ++ '\n' :: rest := by
  obtain ⟨l, rest, e, hl⟩ := List.eq_append_cons_of_mem (List.mem_of_getLast? (h.lines hne))
  exact ⟨l, rest, hl, e⟩

theorem brace (h : Detached more u) (hne : u ≠ []) (hm : more ≠ []) : '\x7d' ∈ u :=
  (h.closed hne hm).subset (by decide)

/-- Behind any other character than those of the last closing brace the text stays closed. -/
theorem behind {a rest : List Char} {c : Char} (h : Detached more (a ++ c :: rest)) (hbrace : c ≠ '\x7d')
    (hsemicolon : c ≠ ';') : Detached more rest where
  lines hne := by
    have hlast := h.lines (by simp)
    rwa [List.getLast?_append_cons, List.getLast?_cons_of_ne_nil hne] at hlast
  closed hne hm := by
    have hclosed := h.closed (by simp) hm
    rcases List.suffix_or_suffix_of_suffix hclosed (List.suffix_append a (c :: rest)) with hs | hs
    · rcases List.suffix_cons_iff.mp hs with e | hs
      · exact absurd (List.cons.inj e).1.symm hbrace
      · exact hs
    · -- The rest would begin inside the closing brace and its semicolon.
      have hc : c :: rest <:+ ['\x7d', ';', '\n'] := hs
      simp only [List.suffix_cons_iff, List.cons.injEq, List.suffix_nil] at hc
      rcases hc with hc | hc | hc | hc
      · exact absurd hc.1 hbrace
      · exact absurd hc.1 hsemicolon
      · exact absurd hc.2 hne
      · cases hc

end Detached

/-! ### Bodies -/

section
variable {σ : Type} {more u : List Char}

/-- Scanning a body does not look at what stands behind the text that it is in. -/
theorem Detached.scanBody_append (h : Detached more u) (hne : u = [] → more = []) (f : σ → List Char → Except Fault σ) (s : σ) :
    (∃ fault, scanBody (onLine f) s u = .error fault ∧ scanBody (onLine f) s (u ++ more) = .error fault) ∨
      ∃ s' v, Detached more v ∧ v.length ≤ u.length ∧ scanBody (onLine f) s u = .ok (s', some v) ∧
        scanBody (onLine f) s (u ++ more) = .ok (s', some (v ++ more)) := by
  induction hn : u.length using Nat.strong_induction_on generalizing u s with
  | _ n ih =>
    subst hn
    by_cases hu : u = []
    · obtain rfl := hne hu
      subst hu
      exact .inr ⟨s, [], h, Nat.le_refl _, by rw [scanBody]; rfl, by rw [scanBody]; rfl⟩
    · obtain ⟨l, rest, hl, rfl⟩ := h.exists_line hu
      rw [List.append_assoc, List.cons_append]
      by_cases hb : '\x7d' ∈ l
      · have hbrace := mem_trim (by decide) hb
        refine .inr ⟨s, _, h, Nat.le_refl _, scanBody_close hl hbrace s rest, ?_⟩
        rw [scanBody_close hl hbrace, List.append_assoc, List.cons_append]
      · -- A line without a brace is not the last one, unless nothing stands behind the text.
        have hrest : rest = [] → more = [] := by
          rintro rfl
          by_contra hm
          have hmem := h.brace hu hm
          simp [hb] at hmem
        have hlength : rest.length < (l ++ '\n' :: rest).length := by
          rw [List.length_append, List.length_cons]
          omega
        rw [scanBody_line hl hb, scanBody_line hl hb, onLine_line hl, onLine_line hl]
        cases f s (trim l) with
        | error fault => exact .inl ⟨fault, rfl, rfl⟩
        | ok s₁ =>
          rcases ih rest.length hlength (h.behind (by decide) (by decide)) hrest s₁ rfl with
            hfault | ⟨s', v, hv, hlen, e⟩
          · exact .inl hfault
          · exact .inr ⟨s', v, hv, by omega, e⟩

end

/-! ### Definitions -/

section
variable {σ : Type} {more u keyword : List Char}

theorem brace_not_mem_opening {name : String} {rest : List Char} (hk : '\x7d' ∉ keyword)
    (h : opening? keyword u = some (name, rest)) : ∃ start, '\x7d' ∉ start ∧ u = start ++ '\x7b' :: rest ∧
      ∀ more, opening? keyword (start ++ '\x7b' :: more) = some (name, more) := by
  obtain ⟨gap, word, gap', hgap, hword, hgap', rfl, rfl⟩ := opening?_eq_some_iff.mp h
  refine ⟨keyword ++ (gap ++ (word ++ gap')), ?_, by simp only [List.append_assoc], ?_⟩
  · simp only [List.mem_append, not_or]
    exact ⟨hk, not_mem_of_forall hgap.2 rfl, not_mem_of_forall hword.2 rfl, not_mem_of_forall hgap' rfl⟩
  · intro more
    exact opening?_eq_some_iff.mpr ⟨gap, word, gap', hgap, hword, hgap', rfl, by simp only [List.append_assoc]⟩

theorem Detached.opening?_append_eq_none (h : Detached more u) (hne : u ≠ []) (hk : '\x7d' ∉ keyword)
    (hnone : opening? keyword u = none) : opening? keyword (u ++ more) = none := by
  by_contra hsome
  obtain ⟨⟨name, rest⟩, hopen⟩ := Option.ne_none_iff_exists'.mp hsome
  obtain ⟨start, hstart, e, hall⟩ := brace_not_mem_opening hk hopen
  by_cases hm : more = []
  · rw [hm, List.append_nil, hnone] at hopen
    cases hopen
  · -- The text holds a brace, and what opens a body does not: it ends inside the text or is not there.
    have e' : u ++ more = (start ++ ['\x7b']) ++ rest := by rw [e, List.append_assoc]; rfl
    rcases List.append_eq_append_iff.mp e' with ⟨a, ha, -⟩ | ⟨a, ha, -⟩
    · have hmem : '\x7d' ∈ start ++ ['\x7b'] := ha ▸ List.mem_append_left a (h.brace hne hm)
      simp [hstart] at hmem
    · rw [ha, List.append_assoc, List.singleton_append, hall] at hnone
      cases hnone

theorem Detached.readGroup_append (h : Detached more u) (hne : u ≠ []) (hk : '\x7d' ∉ keyword)
    (f : σ → List Char → Except Fault σ) (s : σ) (members : σ → List Entry) (whole whole' : List Char) :
    (∃ fault, readGroup keyword (onLine f) s members whole u = some (.error fault) ∧
        readGroup keyword (onLine f) s members whole' (u ++ more) = some (.error fault)) ∨
      (readGroup keyword (onLine f) s members whole u = some (.ok none) ∧
        readGroup keyword (onLine f) s members whole' (u ++ more) = some (.ok none)) ∨
      ∃ g v, Detached more v ∧ v.length < u.length ∧ readGroup keyword (onLine f) s members whole u = some (.ok (some (g, v))) ∧
        readGroup keyword (onLine f) s members whole' (u ++ more) = some (.ok (some (g, v ++ more))) := by
  cases hopen : opening? keyword u with
  | none =>
    have hmore := h.opening?_append_eq_none hne hk hopen
    exact .inr (.inl ⟨by simp only [readGroup, hopen], by simp only [readGroup, hmore]⟩)
  | some p =>
    obtain ⟨name, body⟩ := p
    obtain ⟨start, -, rfl, hall⟩ := brace_not_mem_opening hk hopen
    have hbody : body = [] → more = [] := by
      rintro rfl
      have hlast := h.lines hne
      simp at hlast
    have hmore : opening? keyword (start ++ '\x7b' :: body ++ more) = some (name, body ++ more) := by
      rw [List.append_assoc, List.cons_append]
      exact hall _
    rcases (h.behind (by decide) (by decide)).scanBody_append hbody f s with
      ⟨fault, e, e'⟩ | ⟨s', v, hv, hlen, e, e'⟩
    · refine .inl ⟨fault, ?_, ?_⟩
      · simp only [readGroup, hopen, readBody_of_fault e]
        rfl
      · simp only [readGroup, hmore, readBody_of_fault e']
        rfl
    · refine .inr (.inr ⟨⟨name, members s', none⟩, v, hv, ?_, ?_, ?_⟩)
      · rw [List.length_append, List.length_cons]
        omega
      · exact readGroup_of_opening hopen (readBody_of_scan e whole) members
      · exact readGroup_of_opening hmore (readBody_of_scan e' whole') members

end

/-- Two outcomes of reading one definition, at a text and at the same text with `more` behind it: the same failure,
or the same definitions and the same place to go on. -/
inductive Alike (u more : List Char) : Option (Except Fault (Option (List Char)) × Definitions) →
    Option (Except Fault (Option (List Char)) × Definitions) → Prop
  | fault (f : Fault) (d : Definitions) : Alike u more (some (.error f, d)) (some (.error f, d))
  | line (d : Definitions) : Alike u more (some (.ok none, d)) (some (.ok none, d))
  | body {v : List Char} (hv : Detached more v) (hlength : v.length < u.length) (d : Definitions) :
      Alike u more (some (.ok (some v), d)) (some (.ok (some (v ++ more)), d))

theorem Detached.taken_append {σ : Type} {more u keyword : List Char} (h : Detached more u) (hne : u ≠ []) (hk : '\x7d' ∉ keyword)
    (f : σ → List Char → Except Fault σ) (s : σ) (members : σ → List Entry) (whole whole' : List Char)
    (add : Group → Definitions) (d : Definitions) :
    Alike u more ((readGroup keyword (onLine f) s members whole u).map (taken add d))
      ((readGroup keyword (onLine f) s members whole' (u ++ more)).map (taken add d)) := by
  rcases h.readGroup_append hne hk f s members whole whole' with ⟨f, e, e'⟩ | ⟨e, e'⟩ | ⟨g, v, hv, hlen, e, e'⟩
  · rw [e, e']
    exact .fault f d
  · rw [e, e']
    exact .line d
  · rw [e, e']
    exact .body hv hlen _

section
variable {value : String → Except Fault (String × Int)} {more u : List Char}

variable (value) in
theorem Detached.readDefinition_append (h : Detached more u) (hne : u ≠ []) (whole whole' : List Char) (d : Definitions) :
    Alike u more (readDefinition (.ofText value) whole u d) (readDefinition (.ofText value) whole' (u ++ more) d) := by
  have hline : lineOf (u ++ more) = lineOf u := by
    obtain ⟨l, rest, hl, rfl⟩ := h.exists_line hne
    rw [List.append_assoc, List.cons_append, lineOf_line hl, lineOf_line hl]
  simp only [readDefinition, hline]
  split
  · split
    · exact .line _
    · exact .line _
  split
  · have hk : '\x7d' ∉ "enum".toList := by decide
    exact h.taken_append hne hk (countMember value) ⟨[], 0⟩ Counting.members whole whole' d.addEnumeration d
  split
  · have hk : '\x7d' ∉ "struct".toList := by decide
    exact h.taken_append hne hk addField [] id whole whole' d.addStruct d
  · exact .line d

/-! ### Whole headers -/

variable (value) in
/-- The text is read to its end or up to a fault, and reading goes on with what stands behind it. -/
theorem Detached.readFrom_append (h : Detached more u) (whole whole' : List Char) (d : Definitions) :
    (∃ f d', readFrom (.ofText value) whole u d = some (.error f, d') ∧
        readFrom (.ofText value) whole' (u ++ more) d = some (.error f, d')) ∨
      ∃ d', readFrom (.ofText value) whole u d = some (.ok (), d') ∧
        readFrom (.ofText value) whole' (u ++ more) d = readFrom (.ofText value) whole' more d' := by
  induction hn : u.length using Nat.strong_induction_on generalizing u d with
  | _ n ih =>
    subst hn
    by_cases hu : u = []
    · subst hu
      exact .inr ⟨d, readFrom_nil _ whole d, rfl⟩
    have hmore : u ++ more ≠ [] := by simp [hu]
    have hstep := h.readDefinition_append value hu whole whole' d
    generalize hr : readDefinition (.ofText value) whole u d = r,
      hr' : readDefinition (.ofText value) whole' (u ++ more) d = r' at hstep
    cases hstep with
    | fault f d' => exact .inl ⟨f, d', readFrom_of_error hu hr, readFrom_of_error hmore hr'⟩
    | line d' =>
      obtain ⟨l, rest, hl, rfl⟩ := h.exists_line hu
      have hafter' : afterLine? (l ++ '\n' :: rest ++ more) = some (rest ++ more) := by
        rw [List.append_assoc, List.cons_append, afterLine?_line hl]
      rw [readFrom_of_none hu hr (afterLine?_line hl rest), readFrom_of_none hmore hr' hafter']
      rw [List.length_append, List.length_cons] at ih
      exact ih rest.length (by omega) (h.behind (by decide) (by decide)) d' rfl
    | body hv hlength d' =>
      rw [readFrom_of_some hu hr, readFrom_of_some hmore hr']
      exact ih _ hlength hv d' rfl

/-- What is read of whole lines does not hang on the text they stand in. -/
theorem readFrom_eq_read (h : Detached [] u) (whole : List Char) (d : Definitions) :
    readFrom (.ofText value) whole u d = read (.ofText value) u d := by
  rcases h.readFrom_append value u whole d with ⟨f, d', e, e'⟩ | ⟨d', e, e'⟩
  · rw [List.append_nil] at e'
    rw [e', read, e]
  · rw [List.append_nil, readFrom_nil] at e'
    rw [e', read, e]

theorem read_ne_none (h : Detached more u) (d : Definitions) : read (.ofText value) u d ≠ none := by
  rcases h.readFrom_append value u u d with ⟨f, d', e, -⟩ | ⟨d', e, -⟩
  · rw [read, e]
    rintro ⟨⟩
  · rw [read, e]
    rintro ⟨⟩

section
variable {α β : Type} {x : Reading α} {d d' : Definitions}

theorem Reading.bind_of_ok {a : α} (h : x d = some (.ok a, d')) (f : α → Reading β) : (x >>= f) d = f a d' := by
  show (x d).bind _ = _
  rw [h]
  rfl

theorem Reading.bind_of_error {fault : Fault} (h : x d = some (.error fault, d')) (f : α → Reading β) :
    (x >>= f) d = some (.error fault, d') := by
  show (x d).bind _ = _
  rw [h]
  rfl

end

theorem read_append (h : Detached more u) (hmore : Detached [] more) (d : Definitions) :
    read (.ofText value) (u ++ more) d = (do read (.ofText value) u; read (.ofText value) more : Reading Unit) d := by
  rcases h.readFrom_append value u (u ++ more) d with ⟨f, d', e, e'⟩ | ⟨d', e, e'⟩
  · exact e'.trans (Reading.bind_of_error e _).symm
  · rw [readFrom_eq_read hmore] at e'
    exact e'.trans (Reading.bind_of_ok e fun _ => read (.ofText value) more).symm

end

/-! ### Files -/

theorem unifyLineEnds_closed {c : List Char} (h : "\x7d;\n".toList <:+ c ∨ "\x7d;\r\n".toList <:+ c) :
    "\x7d;\n".toList <:+ unifyLineEnds c := by
  rcases h with ⟨a, rfl⟩ | ⟨a, rfl⟩
  · rw [unifyLineEnds_append (.inr (by decide))]
    exact List.suffix_append _ _
  · rw [unifyLineEnds_append (.inr (by decide))]
    exact List.suffix_append _ _

theorem unifyLineEnds_lines {c : List Char} (h : "\n".toList <:+ c) : "\n".toList <:+ unifyLineEnds c := by
  obtain ⟨a, rfl⟩ := h
  by_cases ha : a.getLast? = some '\r'
  · obtain ⟨b, rfl⟩ := List.getLast?_eq_some_iff.mp ha
    rw [List.append_assoc, unifyLineEnds_append (.inr (by decide))]
    exact List.suffix_append _ _
  · rw [unifyLineEnds_append (.inl ha)]
    exact List.suffix_append _ _

/-- Two files of which the first ends with a closing brace on a line are read as one, with every fault and every
definition in its place, if the values of initialisers hang on nothing but their texts. -/
theorem read_unifyLineEnds_append (value : String → Except Fault (String × Int)) {c₁ c₂ : List Char}
    (h₁ : "\x7d;\n".toList <:+ c₁ ∨ "\x7d;\r\n".toList <:+ c₁) (h₂ : c₂ = [] ∨ "\n".toList <:+ c₂) (d : Definitions) :
    read (.ofText value) (unifyLineEnds (c₁ ++ c₂)) d =
        (do read (.ofText value) (unifyLineEnds c₁); read (.ofText value) (unifyLineEnds c₂) : Reading Unit) d ∧
      read (.ofText value) (unifyLineEnds (c₁ ++ c₂)) d ≠ none := by
  have hseam : c₁.getLast? ≠ some '\r' := by
    rcases h₁ with ⟨a, rfl⟩ | ⟨a, rfl⟩
    · simp
    · simp
  have hlines : Detached [] (unifyLineEnds c₂) := by
    rcases h₂ with rfl | h₂
    · exact .nil []
    · exact .of_suffix_line (unifyLineEnds_lines h₂)
  have hclosed : Detached (unifyLineEnds c₂) (unifyLineEnds c₁) := .of_suffix (unifyLineEnds_closed h₁) _
  rw [unifyLineEnds_append (.inl hseam), read_append hclosed hlines]
  refine ⟨rfl, ?_⟩
  rcases hr : read (.ofText value) (unifyLineEnds c₁) d with _ | ⟨fault | _, d₁⟩
  · exact absurd hr (read_ne_none hclosed d)
  · rw [Reading.bind_of_error hr]
    rintro ⟨⟩
  · rw [Reading.bind_of_ok hr]
    exact read_ne_none hlines d₁

theorem read_enumeration_and_struct :
    ("\x7d;\n".toList <:+ "enum Kind\r\n\x7b\rA = -2, // first\nB\n\x7d;\n".toList ∧
        "\n".toList <:+ "struct Pair \x7b\nint x;\n".toList) ∧
      read (.ofText Initializer.evaluate)
          (unifyLineEnds ("enum Kind\r\n\x7b\rA = -2, // first\nB\n\x7d;\n".toList ++ "struct Pair \x7b\nint x;\n".toList)) {} =
        (do read (.ofText Initializer.evaluate) (unifyLineEnds "enum Kind\r\n\x7b\rA = -2, // first\nB\n\x7d;\n".toList)
            read (.ofText Initializer.evaluate) (unifyLineEnds "struct Pair \x7b\nint x;\n".toList) : Reading Unit) {} :=
  ⟨⟨by decide, by decide⟩, (read_unifyLineEnds_append Initializer.evaluate (.inl (by decide)) (.inr (by decide)) {}).1⟩

end CodeBridge.Header
