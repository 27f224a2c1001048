import CodeBridge.Header.Reader
import CodeBridge.Proofs.HeaderEntries

/-! # Reading line by line

A text made of whole lines is read one line after the other: the lines of a body are folded by the step of the
body, and a definition turns the definitions found so far into others, whatever follows it (`Reads`). What is
read one after the other adds up. -/

namespace CodeBridge.Header

open Text
open BodyStep (readBody)
open Evaluator (readFrom)

/-! ### Lines -/

theorem lineOf_line {l : List Char} (h : '\n' ∉ l) (rest : List Char) : lineOf (l ++ '\n' :: rest) = trim l := by
  have htake : (l ++ '\n' :: rest).takeWhile (· != '\n') = l := by
    rw [List.takeWhile_append_of_pos (bne_of_not_mem h)]
    simp
  simp [lineOf, htake]

theorem lineOf_append {start : List Char} (hs : Solid start) (hl : '\n' ∉ start) {cs : List Char} (h : '\n' ∈ cs) :
    ∃ tail, lineOf (start ++ cs) = start ++ tail := by
  rw [lineOf, if_pos (by simp [h]), List.takeWhile_append_of_pos (bne_of_not_mem hl)]
  exact hs.trim_append _

theorem afterLine?_line {l : List Char} (h : '\n' ∉ l) (rest : List Char) :
    afterLine? (l ++ '\n' :: rest) = some rest := by
  induction l with
  | nil => rfl
  | cons c l ih =>
    have hc : c ≠ '\n' := fun e => h (e ▸ List.mem_cons_self)
    simp [afterLine?, hc, ih fun m => h (List.mem_cons_of_mem _ m)]

/-! ### Bodies -/

/-- A line that can stand in a body: nothing in it ends the line or the body. -/
structure BodyLine (l : List Char) : Prop where
  line : '\n' ∉ l
  carriage : '\r' ∉ l
  brace : '\x7d' ∉ l

instance : DecidablePred BodyLine := fun l =>
  decidable_of_iff ('\n' ∉ l ∧ '\r' ∉ l ∧ '\x7d' ∉ l) ⟨fun h => ⟨h.1, h.2.1, h.2.2⟩, fun h => ⟨h.line, h.carriage, h.brace⟩⟩

theorem BodyLine.of_forall {p : Char → Bool} {l : List Char} (h : ∀ c ∈ l, p c = true) (hline : p '\n' = false)
    (hcarriage : p '\r' = false) (hbrace : p '\x7d' = false) : BodyLine l :=
  ⟨not_mem_of_forall h hline, not_mem_of_forall h hcarriage, not_mem_of_forall h hbrace⟩

theorem BodyLine.append {a b : List Char} (ha : BodyLine a) (hb : BodyLine b) : BodyLine (a ++ b) where
  line := by simp [ha.line, hb.line]
  carriage := by simp [ha.carriage, hb.carriage]
  brace := by simp [ha.brace, hb.brace]

section
variable {σ : Type} {step : List Char → σ → Except Fault σ}

theorem scanBody_line {l : List Char} (hl : '\n' ∉ l) (hb : '\x7d' ∉ l) (s : σ) (rest : List Char) :
    scanBody step s (l ++ '\n' :: rest) = (do scanBody step (← step (l ++ '\n' :: rest) s) rest) := by
  have hbrace : '\x7d' ∉ trim l := fun m => hb ((trim_isInfix l).subset m)
  have hafter := afterLine?_line hl rest
  have hne : (l ++ '\n' :: rest).isEmpty = false := by simp
  rw [scanBody]
  simp only [hne, lineOf_line hl, List.contains_eq_mem, hbrace, decide_false, Bool.false_eq_true, if_false]
  cases step (l ++ '\n' :: rest) s with
  | error fault => rfl
  | ok s' =>
    dsimp only
    split
    · next next hn =>
      obtain rfl : rest = next := Option.some.inj (hafter.symm.trans hn)
      rfl
    · next hn => cases hafter.symm.trans hn

theorem onLine_line {f : σ → List Char → Except Fault σ} {l : List Char} (hl : '\n' ∉ l) (rest : List Char) (s : σ) :
    onLine f (l ++ '\n' :: rest) s = f s (trim l) := by
  rw [onLine, lineOf_line hl]

/-- The lines of a body are taken in by the step of the body one after the other. -/
theorem scanBody_lines {f : σ → List Char → Except Fault σ} {ls : List (List Char)} (h : ∀ l ∈ ls, '\n' ∉ l ∧ '\x7d' ∉ l)
    (s : σ) (rest : List Char) : scanBody (onLine f) s (unlines ls ++ rest) =
      (do scanBody (onLine f) (← ls.foldlM (fun s l => f s (trim l)) s) rest) := by
  induction ls generalizing s with
  | nil => rfl
  | cons l ls ih =>
    have hl := h l List.mem_cons_self
    rw [unlines_cons, List.append_assoc, List.cons_append, scanBody_line hl.1 hl.2, onLine_line hl.1]
    simp only [ih fun l' hl' => h l' (List.mem_cons_of_mem _ hl'), List.foldlM_cons, bind_assoc]

theorem scanBody_close {l : List Char} (h : '\n' ∉ l) (hb : '\x7d' ∈ trim l) (s : σ) (rest : List Char) :
    scanBody step s (l ++ '\n' :: rest) = .ok (s, some (l ++ '\n' :: rest)) := by
  rw [scanBody]
  simp [lineOf_line h, hb]

section
variable {s s' : σ} {rest : List Char}

theorem readBody_of_scan {v : List Char} (h : scanBody step s rest = .ok (s', some v)) (whole : List Char) :
    readBody whole step s rest = some (.ok (s', v)) := by
  rw [readBody, h]

theorem readBody_of_fault {fault : Fault} (h : scanBody step s rest = .error fault) (whole : List Char) :
    readBody whole step s rest = some (.error fault) := by
  rw [readBody, h]

end

theorem readBody_lines {f : σ → List Char → Except Fault σ} {ls : List (List Char)} (h : ∀ l ∈ ls, BodyLine l) {s s' : σ}
    (hfold : ls.foldlM (fun s l => f s (trim l)) s = .ok s') {close : List Char} (hc : '\n' ∉ close)
    (hb : '\x7d' ∈ trim close) (whole rest : List Char) :
    readBody whole (onLine f) s (unlines ls ++ (close ++ '\n' :: rest)) = some (.ok (s', close ++ '\n' :: rest)) := by
  refine readBody_of_scan ?_ whole
  rw [scanBody_lines fun l hl => ⟨(h l hl).line, (h l hl).brace⟩, hfold]
  exact scanBody_close hc hb s' rest

end

/-! ### Steps of reading -/

section
variable {ev : Evaluator} {whole rest next : List Char} {d d' : Definitions}

theorem readFrom_nil (ev : Evaluator) (whole : List Char) (d : Definitions) : readFrom ev whole [] d = some (.ok (), d) := by
  rw [readFrom]
  rfl

theorem readFrom_of_some (hne : rest ≠ []) (h : readDefinition ev whole rest d = some (.ok (some next), d')) :
    readFrom ev whole rest d = readFrom ev whole next d' := by
  rw [readFrom, if_neg (by simpa using hne), h]
  rfl

theorem readFrom_of_none (hne : rest ≠ []) (h : readDefinition ev whole rest d = some (.ok none, d'))
    (ha : afterLine? rest = some next) : readFrom ev whole rest d = readFrom ev whole next d' := by
  rw [readFrom, if_neg (by simpa using hne), h]
  simp only [Option.bind_eq_bind, Option.bind_some, ha]

theorem readFrom_of_last (hne : rest ≠ []) (h : readDefinition ev whole rest d = some (.ok none, d'))
    (ha : afterLine? rest = none) : readFrom ev whole rest d = some (.ok (), d') := by
  rw [readFrom, if_neg (by simpa using hne), h]
  simp only [Option.bind_eq_bind, Option.bind_some, ha]

theorem readFrom_of_error {fault : Fault} (hne : rest ≠ []) (h : readDefinition ev whole rest d = some (.error fault, d')) :
    readFrom ev whole rest d = some (.error fault, d') := by
  rw [readFrom, if_neg (by simpa using hne), h]
  rfl

theorem readFrom_of_endless (hne : rest ≠ []) (h : readDefinition ev whole rest d = none) : readFrom ev whole rest d = none := by
  rw [readFrom, if_neg (by simpa using hne), h]
  rfl

end

/-- Reading these lines turns the definitions `d` into `d'`, whatever follows the lines. -/
def Reads (value : String → Except Fault (String × Int)) (ls : List (List Char)) (d d' : Definitions) : Prop :=
  ∀ whole rest, readFrom (.ofText value) whole (unlines ls ++ rest) d = readFrom (.ofText value) whole rest d'

namespace Reads
variable {value : String → Except Fault (String × Int)} {a b ls : List (List Char)} {d d' d'' : Definitions}

theorem nil (value : String → Except Fault (String × Int)) (d : Definitions) : Reads value [] d d := fun _ _ => rfl

theorem append (h₁ : Reads value a d d') (h₂ : Reads value b d' d'') : Reads value (a ++ b) d d'' := by
  intro whole rest
  rw [unlines_append, List.append_assoc, h₁ whole (unlines b ++ rest), h₂ whole rest]

theorem line {l : List Char} (hl : '\n' ∉ l)
    (h : ∀ whole rest, readDefinition (.ofText value) whole (l ++ '\n' :: rest) d = some (.ok none, d')) : Reads value [l] d d' := by
  intro whole rest
  have htext : unlines [l] ++ rest = l ++ '\n' :: rest := by simp
  rw [htext]
  exact readFrom_of_none (by simp) (h whole rest) (afterLine?_line hl rest)

/-- A definition that leaves some of its lines to be read behind it. -/
theorem body (after : List (List Char)) (hne : unlines ls ≠ [])
    (h : ∀ whole rest, readDefinition (.ofText value) whole (unlines ls ++ rest) d = some (.ok (some (unlines after ++ rest)), d'))
    (hafter : Reads value after d' d'') : Reads value ls d d'' := by
  intro whole rest
  rw [readFrom_of_some (List.append_ne_nil_of_left_ne_nil hne rest) (h whole rest)]
  exact hafter whole rest

/-- Reading a text of whole lines from its start to its end. -/
theorem read (h : Reads value ls d d') : read (.ofText value) (unlines ls) d = some (.ok (), d') := by
  have hall := h (unlines ls) []
  rw [List.append_nil, readFrom_nil] at hall
  exact hall

end Reads

/-! ### Definitions -/

theorem startsWith_append (start cs : List Char) : startsWith start (start ++ cs) = true := by
  rw [startsWith, behind?_append]
  rfl

theorem Reads.skip {value : String → Except Fault (String × Int)} {l : List Char} (hl : '\n' ∉ l)
    (hconstant : startsWith "#define".toList (trim l) = false) (henum : startsWith "enum".toList (trim l) = false)
    (hstruct : startsWith "struct".toList (trim l) = false) (d : Definitions) : Reads value [l] d d :=
  .line hl fun whole rest => by
    simp only [readDefinition, lineOf_line hl, hconstant, henum, hstruct, Bool.false_eq_true, if_false]

theorem Reads.closing (value : String → Except Fault (String × Int)) (d : Definitions) : Reads value ["\x7d;".toList, []] d d :=
  (Reads.skip (l := "\x7d;".toList) (by decide) rfl rfl rfl d).append (.skip List.not_mem_nil rfl rfl rfl d)

theorem Reads.constant {value : String → Except Fault (String × Int)} {l : List Char} {e : Entry}
    (hs : Solid ("#define".toList ++ l)) (hl : '\n' ∉ l) (he : constant? ("#define".toList ++ l) = some e) (d : Definitions) :
    Reads value ["#define".toList ++ l, []] d (d.addConstant e) := by
  have hline : '\n' ∉ "#define".toList ++ l := by simp [hl]
  refine (Reads.line (l := "#define".toList ++ l) hline fun whole rest => ?_).append
    (.skip List.not_mem_nil rfl rfl rfl _)
  simp only [readDefinition, lineOf_line hline, hs.trim_eq, startsWith_append, if_true, he]

/-- The lines that open a body: keyword and name, and the brace on the same line or on the next. -/
def OpensBody (keyword : List Char) (name : String) (start : List (List Char)) : Prop :=
  ∃ gap, (gap = ' ' ∨ gap = '\n') ∧ unlines start = keyword ++ ' ' :: (name.toList ++ gap :: ['\x7b', '\n'])

section
variable {value : String → Except Fault (String × Int)} {keyword : List Char} {name : String} {start : List (List Char)}

theorem OpensBody.opening? (h : OpensBody keyword name start) (hn : IsName name) (rest : List Char) :
    Header.opening? keyword (unlines start ++ rest) = some (name, '\n' :: rest) := by
  obtain ⟨gap, hg, e⟩ := h
  rw [e]
  simpa using opening?_line keyword hn hg ('\n' :: rest)

theorem OpensBody.lineOf (h : OpensBody keyword name start) (hk : Solid keyword) (hl : '\n' ∉ keyword)
    (rest : List Char) : ∃ tail, Header.lineOf (unlines start ++ rest) = keyword ++ tail := by
  obtain ⟨gap, -, e⟩ := h
  rw [e, List.append_assoc]
  exact lineOf_append hk hl (by simp)

theorem readBody_definition {σ : Type} {f : σ → List Char → Except Fault σ} {s s' : σ} (hblank : f s [] = .ok s)
    {body : List (List Char)} (hbody : ∀ l ∈ body, BodyLine l)
    (hfold : body.foldlM (fun s l => f s (trim l)) s = .ok s') (whole rest : List Char) :
    readBody whole (onLine f) s ('\n' :: (unlines body ++ (unlines ["\x7d;".toList, []] ++ rest))) =
      some (.ok (s', unlines ["\x7d;".toList, []] ++ rest)) := by
  have hlines : ∀ l ∈ [] :: body, BodyLine l := by
    intro l hl
    rcases List.mem_cons.mp hl with rfl | hl
    · decide
    · exact hbody l hl
  have hall : ([] :: body).foldlM (fun s l => f s (trim l)) s = .ok s' := by
    rw [List.foldlM_cons, show f s (trim []) = .ok s from hblank]
    exact hfold
  have hclose : '\x7d' ∈ trim "\x7d;".toList := by decide
  have hread := readBody_lines hlines hall (by decide) hclose whole ('\n' :: rest)
  simpa using hread

/-- A definition with a body, for a keyword whose definitions are read by taking in the lines of the body. -/
theorem Reads.definition (hstart : OpensBody keyword name start) (hn : IsName name) (hk : Solid keyword)
    (hl : '\n' ∉ keyword) {σ : Type} {f : σ → List Char → Except Fault σ} {s s' : σ} (hblank : f s [] = .ok s)
    {body : List (List Char)} (hbody : ∀ l ∈ body, BodyLine l)
    (hfold : body.foldlM (fun s l => f s (trim l)) s = .ok s') {d d' : Definitions}
    (hread : ∀ whole cs tail inside next, Header.lineOf cs = keyword ++ tail →
      Header.opening? keyword cs = some (name, inside) → readBody whole (onLine f) s inside = some (.ok (s', next)) →
      readDefinition (.ofText value) whole cs d = some (.ok (some next), d')) :
    Reads value (start ++ (body ++ ["\x7d;".toList, []])) d d' := by
  refine .body ["\x7d;".toList, []] ?_ (fun whole rest => ?_) (Reads.closing value _)
  · obtain ⟨gap, -, e⟩ := hstart
    rw [unlines_append, e]
    simp
  · simp only [unlines_append, List.append_assoc]
    obtain ⟨tail, htail⟩ := hstart.lineOf hk hl (unlines body ++ (unlines ["\x7d;".toList, []] ++ rest))
    exact hread whole _ tail _ _ htail (hstart.opening? hn _) (readBody_definition hblank hbody hfold whole rest)

/-- What opens with a keyword is the group whose body is read. -/
theorem readGroup_of_opening {σ : Type} {step : List Char → σ → Except Fault σ} {s s' : σ} {rest inside next : List Char}
    (hopen : Header.opening? keyword rest = some (name, inside)) {whole : List Char}
    (hread : readBody whole step s inside = some (.ok (s', next))) (members : σ → List Entry) :
    readGroup keyword step s members whole rest = some (.ok (some (⟨name, members s', none⟩, next))) := by
  simp only [readGroup, hopen, hread]
  rfl

theorem Reads.enumeration (hstart : OpensBody "enum".toList name start) (hn : IsName name) {body : List (List Char)}
    (hbody : ∀ l ∈ body, BodyLine l) {s : Counting}
    (hfold : body.foldlM (fun s l => countMember value s (trim l)) ⟨[], 0⟩ = .ok s) (d : Definitions) :
    Reads value (start ++ (body ++ ["\x7d;".toList, []])) d (d.addEnumeration ⟨name, s.members, none⟩) := by
  refine .definition hstart hn ⟨⟨'e', rfl, rfl⟩, ⟨'m', rfl, rfl⟩⟩ (by decide) rfl hbody hfold ?_
  intro whole cs tail inside next hline hopen hread
  have hnot : startsWith "#define".toList ("enum".toList ++ tail) = false := rfl
  have hgroup : readEnumeration (.ofText value) d whole cs = _ := readGroup_of_opening hopen hread Counting.members
  simp only [readDefinition, hline, hnot, startsWith_append, Bool.false_eq_true, if_false, if_true, hgroup]
  rfl

theorem Reads.struct (hstart : OpensBody "struct".toList name start) (hn : IsName name) {body : List (List Char)}
    (hbody : ∀ l ∈ body, BodyLine l) {members : List Entry}
    (hfold : body.foldlM (fun s l => addField s (trim l)) [] = .ok members) (d : Definitions) :
    Reads value (start ++ (body ++ ["\x7d;".toList, []])) d (d.addStruct ⟨name, members, none⟩) := by
  refine .definition hstart hn ⟨⟨'s', rfl, rfl⟩, ⟨'t', rfl, rfl⟩⟩ (by decide) rfl hbody hfold ?_
  intro whole cs tail inside next hline hopen hread
  have hnot : startsWith "#define".toList ("struct".toList ++ tail) = false := rfl
  have hnot' : startsWith "enum".toList ("struct".toList ++ tail) = false := rfl
  have hgroup : readStruct whole cs = _ := readGroup_of_opening hopen hread id
  simp only [readDefinition, hline, hnot, hnot', startsWith_append, Bool.false_eq_true, if_false, if_true, hgroup]
  rfl

end

end CodeBridge.Header
