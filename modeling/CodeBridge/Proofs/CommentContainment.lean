import CodeBridge.Proofs.Declarators

/-! # Comments that stay comments

A header shows each line of the comment of a field between the marks of a C comment, as it is. Read back without its
comments and blanks, a struct shows no less than the same struct without comments. It shows no more exactly when no line
of a comment leaves its marks for anything but blanks: after each `*/` in it the next thing is another `/*`. -/

namespace CodeBridge

open Text

/-! ### C without comments -/

/-- A text without its comments, from `inside` of one or not. A comment that is not closed goes on to the end. -/
def uncommented : (inside : Bool) → List Char → List Char
  | _, [] => []
  | false, '/' :: '*' :: rest => uncommented true rest
  | false, c :: rest => c :: uncommented false rest
  | true, '*' :: '/' :: rest => uncommented false rest
  | true, _ :: rest => uncommented true rest

/-- A text without its blanks. -/
def unspaced (cs : List Char) : List Char :=
  cs.filter (!isBlank ·)

@[simp] theorem unspaced_append (a b : List Char) : unspaced (a ++ b) = unspaced a ++ unspaced b :=
  List.filter_append ..

theorem unspaced_eq_nil_iff {cs : List Char} : unspaced cs = [] ↔ ∀ c ∈ cs, isBlank c = true := by
  simp [unspaced, List.filter_eq_nil_iff]

theorem uncommented_false_cons {c : Char} {rest : List Char} (h : c = '/' → rest.head? ≠ some '*') :
    uncommented false (c :: rest) = c :: uncommented false rest := by
  rw [uncommented]
  rintro tail rfl rfl
  exact h rfl rfl

theorem uncommented_true_cons {c : Char} {rest : List Char} (h : c = '*' → rest.head? ≠ some '/') :
    uncommented true (c :: rest) = uncommented true rest := by
  rw [uncommented]
  rintro tail rfl rfl
  exact h rfl rfl

/-- No comment opens before the first slash. -/
theorem uncommented_append_of_not_mem {a : List Char} (h : '/' ∉ a) (b : List Char) :
    uncommented false (a ++ b) = a ++ uncommented false b := by
  induction a with
  | nil => rfl
  | cons c a ih =>
    obtain ⟨hc, ha⟩ := not_or.mp (mt List.mem_cons.mpr h)
    rw [List.cons_append, uncommented_false_cons fun e => absurd e.symm hc, ih ha, List.cons_append]

/-- A comment goes on to the first end mark. -/
theorem uncommented_to_end {a : List Char} (h : ¬['*', '/'] <:+: a) (b : List Char) :
    uncommented true (a ++ '*' :: '/' :: b) = uncommented false b := by
  induction a with
  | nil => rfl
  | cons c a ih =>
    obtain ⟨hfirst, ha⟩ := not_or.mp (mt List.infix_cons_iff.mpr h)
    rw [List.cons_append, uncommented_true_cons, ih ha]
    rintro rfl hhead
    cases a with
    | nil => cases hhead
    | cons d a =>
      obtain rfl : d = '/' := Option.some.inj hhead
      exact hfirst (List.prefix_append ['*', '/'] a)

/-! ### Remarks -/

/-- What ends a remark. -/
def remarkEnd : List Char :=
  [' ', '*', '/']

/-- What is left of the text `l` between the marks of a comment. -/
def leak (l : List Char) : List Char :=
  unspaced (uncommented true (l ++ remarkEnd))

theorem head?_append_blank {l : List Char} {x : Char} (hx : x ≠ ' ') (h : ∀ rest, l ≠ x :: rest) (more : List Char) :
    (l ++ ' ' :: more).head? ≠ some x := by
  cases l with
  | nil => exact fun e => hx (Option.some.inj e).symm
  | cons c l =>
    intro e
    cases Option.some.inj e
    exact h l rfl

/-- A line that ends as a remark does leaves no comment open. -/
theorem uncommented_closed (inside : Bool) (l rest : List Char) :
    uncommented inside (l ++ (remarkEnd ++ '\n' :: rest)) =
      uncommented inside (l ++ remarkEnd) ++ '\n' :: uncommented false rest := by
  -- No mark is cut in two where the text meets the end of the remark, which starts with a blank.
  fun_induction uncommented inside l with
  | case1 inside => cases inside <;> rfl
  | case2 l ih => exact ih
  | case3 c l h ih =>
    have hhead : ∀ more, c = '/' → (l ++ ' ' :: more).head? ≠ some '*' := fun more hc =>
      head?_append_blank (by decide) (fun tail => h tail hc) more
    have hline : uncommented false (c :: (l ++ (remarkEnd ++ '\n' :: rest))) =
        c :: uncommented false (l ++ (remarkEnd ++ '\n' :: rest)) := uncommented_false_cons (hhead _)
    have hremark : uncommented false (c :: (l ++ remarkEnd)) = c :: uncommented false (l ++ remarkEnd) :=
      uncommented_false_cons (hhead _)
    rw [List.cons_append, List.cons_append, hline, hremark, ih, List.cons_append]
  | case4 l ih => exact ih
  | case5 c l h ih =>
    have hhead : ∀ more, c = '*' → (l ++ ' ' :: more).head? ≠ some '/' := fun more hc =>
      head?_append_blank (by decide) (fun tail => h tail hc) more
    have hline : uncommented true (c :: (l ++ (remarkEnd ++ '\n' :: rest))) =
        uncommented true (l ++ (remarkEnd ++ '\n' :: rest)) := uncommented_true_cons (hhead _)
    have hremark : uncommented true (c :: (l ++ remarkEnd)) = uncommented true (l ++ remarkEnd) :=
      uncommented_true_cons (hhead _)
    rw [List.cons_append, List.cons_append, hline, hremark, ih]

/-- A text between the marks of a comment in which nothing but blanks stands between the end of one comment and the start
of the next. -/
inductive Contained : List Char → Prop where
  | closed {l : List Char} (h : ¬['*', '/'] <:+: l) : Contained l
  | reopened {a gap b : List Char} (ha : ¬['*', '/'] <:+: a) (hgap : ∀ c ∈ gap, isBlank c = true) (hb : Contained b) :
      Contained (a ++ '*' :: '/' :: (gap ++ '/' :: '*' :: b))

theorem leak_of_end {a : List Char} (h : ¬['*', '/'] <:+: a) (b : List Char) :
    leak (a ++ '*' :: '/' :: b) = unspaced (uncommented false (b ++ remarkEnd)) := by
  rw [leak, List.append_assoc, List.cons_append, List.cons_append, uncommented_to_end h]

/-- After blanks and a new start nothing is left but what leaks from the rest. -/
theorem leak_reopened {a gap : List Char} (ha : ¬['*', '/'] <:+: a) (hgap : ∀ c ∈ gap, isBlank c = true) (b : List Char) :
    leak (a ++ '*' :: '/' :: (gap ++ '/' :: '*' :: b)) = leak b := by
  have hslash : '/' ∉ gap := fun hmem => absurd (hgap _ hmem) (by decide)
  have hopen : uncommented false ('/' :: '*' :: b ++ remarkEnd) = uncommented true (b ++ remarkEnd) := rfl
  rw [leak_of_end ha, List.append_assoc, uncommented_append_of_not_mem hslash, hopen, unspaced_append,
    unspaced_eq_nil_iff.mpr hgap, List.nil_append, leak]

theorem Contained.leak_eq_nil {l : List Char} (h : Contained l) : leak l = [] := by
  induction h with
  | @closed l h =>
    have hblank : ¬['*', '/'] <:+: l ++ [' '] := by
      intro hend
      rcases List.infix_concat_iff.mp hend with ⟨t, ht⟩ | hend
      · have hlast := congrArg List.getLast? ht
        simp at hlast
      · exact h hend
    have hend : l ++ remarkEnd = (l ++ [' ']) ++ ['*', '/'] := by simp [remarkEnd]
    rw [leak, hend, uncommented_to_end hblank]
    rfl
  | reopened ha hgap _ ih =>
    rw [leak_reopened ha hgap]
    exact ih

/-- The first end mark of a text. -/
theorem exists_first_end {l : List Char} (h : ['*', '/'] <:+: l) :
    ∃ a b, l = a ++ '*' :: '/' :: b ∧ ¬['*', '/'] <:+: a := by
  induction l with
  | nil => simp at h
  | cons c l ih =>
    by_cases hfirst : ['*', '/'] <+: c :: l
    · obtain ⟨b, hb⟩ := hfirst
      exact ⟨[], b, hb.symm, by simp⟩
    · obtain ⟨a, b, rfl, ha⟩ := ih ((List.infix_cons_iff.mp h).resolve_left hfirst)
      refine ⟨c :: a, b, rfl, fun hend => ?_⟩
      rcases List.infix_cons_iff.mp hend with hend | hend
      · exact hfirst (hend.trans (List.prefix_append (c :: a) _))
      · exact ha hend

/-- Outside of comments nothing but blanks is left of a remark only if another comment opens behind them. -/
theorem exists_gap {l : List Char} (h : unspaced (uncommented false (l ++ remarkEnd)) = []) :
    ∃ gap b, l = gap ++ '/' :: '*' :: b ∧ ∀ c ∈ gap, isBlank c = true := by
  induction l with
  | nil => cases h
  | cons c l ih =>
    by_cases hopen : ∃ b, c = '/' ∧ l = '*' :: b
    · obtain ⟨b, rfl, rfl⟩ := hopen
      exact ⟨[], b, rfl, by simp⟩
    · have hhead : c = '/' → (l ++ remarkEnd).head? ≠ some '*' := fun hc =>
        head?_append_blank (by decide) (fun tail hl => hopen ⟨tail, hc, hl⟩) _
      rw [List.cons_append, uncommented_false_cons hhead, unspaced_eq_nil_iff] at h
      obtain ⟨hc, hrest⟩ := List.forall_mem_cons.mp h
      obtain ⟨gap, b, rfl, hgap⟩ := ih (unspaced_eq_nil_iff.mpr hrest)
      exact ⟨c :: gap, b, rfl, List.forall_mem_cons.mpr ⟨hc, hgap⟩⟩

theorem leak_eq_nil_iff (l : List Char) : leak l = [] ↔ Contained l := by
  refine ⟨fun h => ?_, Contained.leak_eq_nil⟩
  -- The text behind the second comment is shorter, and nothing leaks from it either.
  induction hn : l.length using Nat.strong_induction_on generalizing l with
  | h n ih =>
    by_cases hend : ['*', '/'] <:+: l
    · obtain ⟨a, r, rfl, ha⟩ := exists_first_end hend
      obtain ⟨gap, b, rfl, hgap⟩ := exists_gap ((leak_of_end ha r).symm.trans h)
      rw [leak_reopened ha hgap] at h
      have hshorter : b.length < n := by
        simp at hn
        omega
      exact .reopened ha hgap (ih _ hshorter b h rfl)
    · exact .closed hend

/-! ### Names without slashes -/

/-- A text in which no comment can start. -/
def Slashless (s : String) : Prop :=
  '/' ∉ s.toList

instance : DecidablePred Slashless := fun s =>
  inferInstanceAs (Decidable ('/' ∉ s.toList))

@[simp] theorem slashless_append {a b : String} : Slashless (a ++ b) ↔ Slashless a ∧ Slashless b := by
  simp [Slashless]

theorem slashless_of_blank {s : String} (h : ∀ c ∈ s.toList, isBlank c = true) : Slashless s :=
  fun hmem => absurd (h _ hmem) (by decide)

theorem Slashless.snake {name tag : String} (h : Slashless name) (htag : Name.snake name = .ok tag) : Slashless tag := by
  have hkept : Name.Kept fun c => c ≠ '/' := Name.IsUnmade.kept_ne (by decide)
  exact fun hmem => hkept.snake (fun c hc e => h (e ▸ hc)) htag _ hmem rfl

theorem Slashless.cName {keyword mark name c : String} {typedef : Value} (hname : Slashless name)
    (hkeyword : Slashless keyword) (hmark : Slashless mark) (h : CodeBridge.cName keyword mark name typedef = .ok c) :
    Slashless c := by
  obtain ⟨tag, htag, h⟩ := exists_of_bind_eq_ok h
  have htag := hname.snake htag
  cases h
  split
  · exact slashless_append.mpr ⟨htag, hmark⟩
  · exact slashless_append.mpr ⟨hkeyword, htag⟩

theorem slash_not_mem_toDigits (n : Nat) : '/' ∉ Nat.toDigits 16 n := by
  induction n using Nat.strong_induction_on with
  | h n ih =>
    rw [Nat.toDigits_eq_if (by decide)]
    split
    · simp
    · simp [ih (n / 16) (by omega)]

theorem slash_not_mem_quotedChar {quote c : Char} (hc : '/' ≠ c) : '/' ∉ quotedChar quote c := by
  have hdigits : ∀ width n, '/' ∉ hexDigits width n := by
    intro width n hmem
    rcases List.mem_append.mp hmem with hmem | hmem
    · exact absurd (List.eq_of_mem_replicate hmem) (by decide)
    · exact slash_not_mem_toDigits n hmem
  unfold quotedChar
  repeat' split
  all_goals simp [hc, hdigits]

theorem Slashless.quoted {s : String} (h : Slashless s) : Slashless (Text.quoted s) := by
  have hquote : ∀ single double, '/' ≠ quoteFor single double := by decide
  have hchars : ∀ quote, '/' ∉ s.toList.flatMap (quotedChar quote) := by
    intro quote hmem
    obtain ⟨c, hc, hmem⟩ := List.mem_flatMap.mp hmem
    exact slash_not_mem_quotedChar (fun e => h (e ▸ hc)) hmem
  simp [Slashless, Text.quoted, hquote, hchars]

namespace DataType

/-- A type whose names have no slash. -/
def Slashless : DataType → Prop
  | .struct s => CodeBridge.Slashless s.name
  | .enumeration e => CodeBridge.Slashless e.name
  | .list element bound => element.Slashless ∧ ∀ constant, bound = .named constant → CodeBridge.Slashless constant
  | .array element length => element.Slashless ∧ CodeBridge.Slashless length
  | _ => True

end DataType

/-- A spelling without a slash, and so are the declarations that it makes. -/
structure Spelling.Slashless (spelling : Spelling) : Prop where
  text : CodeBridge.Slashless spelling.text
  declare : ∀ name, CodeBridge.Slashless name → CodeBridge.Slashless (spelling.declare name)

theorem Spelling.slashless_plain {text : String} (h : CodeBridge.Slashless text) : (Spelling.plain text).Slashless where
  text := h
  declare name hname := by simp +decide [Spelling.declare, h, hname]

theorem Spelling.slashless_around {before length : String} (hbefore : CodeBridge.Slashless before)
    (hlength : CodeBridge.Slashless length) : (Spelling.around before ("[" ++ length ++ "]")).Slashless := by
  have hbehind : CodeBridge.Slashless ("[" ++ length ++ "]") := by simp +decide [hlength]
  constructor
  · rw [text_around]
    simp +decide [hbefore.quoted, hbehind.quoted]
  · intro name hname
    simp +decide only [Spelling.declare, slashless_append, hbefore, hname, hbehind, and_self]

theorem DataType.Slashless.spelling {t : DataType} (ht : t.Slashless) {spelling : Spelling} (h : t.spelling = .ok spelling) :
    spelling.Slashless := by
  fun_induction DataType.spelling t generalizing spelling with
  | case1 => cases h
  | case2 p =>
    cases h
    exact Spelling.slashless_plain (by cases p <;> decide)
  | case3 s =>
    obtain ⟨c, hc, h⟩ := exists_of_bind_eq_ok ((map_eq_pure_bind _ _).symm.trans h)
    cases h
    exact Spelling.slashless_plain (CodeBridge.Slashless.cName ht (by decide) (by decide) hc)
  | case4 e =>
    obtain ⟨c, hc, h⟩ := exists_of_bind_eq_ok ((map_eq_pure_bind _ _).symm.trans h)
    cases h
    exact Spelling.slashless_plain (CodeBridge.Slashless.cName ht (by decide) (by decide) hc)
  | case7 element constant ih =>
    obtain ⟨inner, hinner, h⟩ := exists_of_bind_eq_ok h
    cases h
    exact Spelling.slashless_around (ih ht.1 hinner).text (ht.2 constant rfl)
  | case8 element length ih =>
    obtain ⟨inner, hinner, h⟩ := exists_of_bind_eq_ok h
    cases h
    exact Spelling.slashless_around (ih ht.1 hinner).text ht.2
  | _ => cases h

/-- A struct whose names have no slash. -/
structure StructOf.Slashless (s : Struct) : Prop where
  name : CodeBridge.Slashless s.name
  suffix : CodeBridge.Slashless (suffixText s.suffix)
  fields : ∀ f ∈ s.fields, CodeBridge.Slashless f.name ∧ f.type.Slashless

/-! ### Lines with remarks -/

/-- The code of a text: what is left without comments and blanks. -/
def codeOf (s : String) : List Char :=
  unspaced (uncommented false s.toList)

theorem codeOf_line {l : String} (h : Slashless l) (s : String) :
    codeOf (l ++ "\n" ++ s) = unspaced l.toList ++ codeOf s := by
  have hline : '/' ∉ l.toList ++ ['\n'] := by simpa [Slashless] using h
  have htext : (l ++ "\n" ++ s).toList = l.toList ++ ['\n'] ++ s.toList := by simp
  have hfeed : unspaced ['\n'] = [] := rfl
  rw [codeOf, htext, uncommented_append_of_not_mem hline, unspaced_append, unspaced_append, hfeed, List.append_nil]
  rfl

open Emit.Header (remark)

theorem codeOf_remark {l : String} (h : Slashless l) (r s : String) :
    codeOf (l ++ remark r ++ "\n" ++ s) = unspaced l.toList ++ (leak r.toList ++ codeOf s) := by
  have hline : '/' ∉ l.toList ++ [' '] := by simpa [Slashless] using h
  have htext : (l ++ remark r ++ "\n" ++ s).toList =
      l.toList ++ [' '] ++ '/' :: '*' :: ' ' :: (r.toList ++ (remarkEnd ++ '\n' :: s.toList)) := by
    simp [remark, remarkEnd]
  have hopen : uncommented false ('/' :: '*' :: ' ' :: (r.toList ++ (remarkEnd ++ '\n' :: s.toList))) =
      uncommented true (r.toList ++ (remarkEnd ++ '\n' :: s.toList)) := rfl
  have hblank : unspaced [' '] = [] := rfl
  rw [codeOf, htext, uncommented_append_of_not_mem hline, hopen, uncommented_closed, unspaced_append, unspaced_append,
    unspaced_append, hblank, List.append_nil]
  rfl

/-- Lines that are the lines `bare` with the remarks `said` behind them or on lines between them. -/
inductive Annotated : (ls bare said : List String) → Prop where
  | nil : Annotated [] [] []
  | line {l : String} (h : Slashless l) {ls bare said : List String} (rest : Annotated ls bare said) :
      Annotated (l :: ls) (l :: bare) said
  | beside {l : String} (h : Slashless l) (r : String) {ls bare said : List String} (rest : Annotated ls bare said) :
      Annotated ((l ++ remark r) :: ls) (l :: bare) (r :: said)
  | between {blanks : String} (h : ∀ c ∈ blanks.toList, isBlank c = true) (r : String) {ls bare said : List String}
      (rest : Annotated ls bare said) : Annotated ((blanks ++ remark r) :: ls) bare (r :: said)

namespace Annotated

variable {ls bare said : List String}

theorem of_slashless (h : ∀ l ∈ ls, Slashless l) : Annotated ls ls [] := by
  induction ls with
  | nil => exact .nil
  | cons l ls ih =>
    obtain ⟨hl, hls⟩ := List.forall_mem_cons.mp h
    exact .line hl (ih hls)

theorem append (h : Annotated ls bare said) {ls' bare' said' : List String} (h' : Annotated ls' bare' said') :
    Annotated (ls ++ ls') (bare ++ bare') (said ++ said') := by
  induction h with
  | nil => exact h'
  | line hl _ ih => exact .line hl ih
  | beside hl r _ ih => exact .beside hl r ih
  | between hblanks r _ ih => exact .between hblanks r ih

theorem shifted (h : Annotated ls bare said) {pre : String} (hpre : ∀ c ∈ pre.toList, isBlank c = true) :
    Annotated (ls.map (pre ++ ·)) (bare.map (pre ++ ·)) said := by
  have hslash := slashless_of_blank hpre
  induction h with
  | nil => exact .nil
  | line hl _ ih => exact .line (slashless_append.mpr ⟨hslash, hl⟩) ih
  | @beside l hl r _ _ _ _ ih =>
    rw [List.map_cons, ← String.append_assoc]
    exact .beside (slashless_append.mpr ⟨hslash, hl⟩) r ih
  | @between blanks hblanks r _ _ _ _ ih =>
    rw [List.map_cons, ← String.append_assoc]
    refine .between (fun c hc => ?_) r ih
    rw [String.toList_append, List.mem_append] at hc
    exact hc.elim (hpre c) (hblanks c)

end Annotated

/-! ### What is left of the lines -/

theorem unspaced_linesText_cons (l : String) (ls : List String) :
    unspaced (linesText (l :: ls)).toList = unspaced l.toList ++ unspaced (linesText ls).toList := by
  have hfeed : unspaced ['\n'] = [] := rfl
  rw [linesText, String.toList_append, String.toList_append, unspaced_append, unspaced_append]
  exact congrArg (· ++ _) ((congrArg _ hfeed).trans (List.append_nil _))

namespace Annotated

variable {ls bare said : List String}

/-- Remarks take nothing away from the lines. -/
theorem sublist_codeOf (h : Annotated ls bare said) :
    (unspaced (linesText bare).toList).Sublist (codeOf (linesText ls)) := by
  induction h with
  | nil => exact .slnil
  | line hl _ ih =>
    rw [unspaced_linesText_cons, linesText, codeOf_line hl]
    exact ih.append_left _
  | beside hl r _ ih =>
    rw [unspaced_linesText_cons, linesText, codeOf_remark hl]
    exact (ih.trans (List.sublist_append_right _ _)).append_left _
  | between hblanks r _ ih =>
    rw [linesText, codeOf_remark (slashless_of_blank hblanks)]
    exact (ih.trans (List.sublist_append_right _ _)).trans (List.sublist_append_right _ _)

theorem leak_append_eq_iff {r : String} {a b : List Char} (h : b.Sublist a) :
    leak r.toList ++ a = b ↔ Contained r.toList ∧ a = b := by
  rw [← leak_eq_nil_iff]
  constructor
  · intro e
    have hlength := congrArg List.length e
    have hle := h.length_le
    rw [List.length_append] at hlength
    have hnil : leak r.toList = [] := List.length_eq_zero_iff.mp (by omega)
    exact ⟨hnil, by rwa [hnil] at e⟩
  · rintro ⟨hnil, rfl⟩
    rw [hnil, List.nil_append]

/-- Remarks add nothing to the lines exactly if they are contained. -/
theorem codeOf_eq_iff (h : Annotated ls bare said) :
    codeOf (linesText ls) = unspaced (linesText bare).toList ↔ ∀ r ∈ said, Contained r.toList := by
  induction h with
  | nil => exact iff_of_true rfl (by simp)
  | line hl _ ih =>
    rw [unspaced_linesText_cons, linesText, codeOf_line hl, List.append_cancel_left_eq, ih]
  | beside hl r rest ih =>
    rw [unspaced_linesText_cons, linesText, codeOf_remark hl, List.append_cancel_left_eq,
      leak_append_eq_iff rest.sublist_codeOf, ih, List.forall_mem_cons]
  | between hblanks r rest ih =>
    rw [linesText, codeOf_remark (slashless_of_blank hblanks), unspaced_eq_nil_iff.mpr hblanks, List.nil_append,
      leak_append_eq_iff rest.sublist_codeOf, ih, List.forall_mem_cons]

end Annotated

/-! ### Structs -/

/-- The lines of the comment of a field. -/
def FieldOf.remarks (f : Field) : List String :=
  f.comment.elim [] Emit.commentLines

def FieldOf.withoutComment (f : Field) : Field :=
  { f with comment := none }

def StructOf.withoutComments (s : Struct) : Struct :=
  { s with fields := s.fields.map FieldOf.withoutComment }

namespace Emit.Header

open Writing

theorem annotated_commentedLines {struct : String} {f : Field} {declared : String} {ls : List String}
    (hdeclared : Slashless declared) (h : commentedLines struct f.name f.comment remark declared = .ok ls) :
    Annotated ls [declared] f.remarks := by
  have hremarks : ∀ rs : List String, Annotated (rs.map remark) [] rs := by
    intro rs
    induction rs with
    | nil => exact .nil
    | cons r rs ih =>
      have hline : Annotated (("" ++ remark r) :: rs.map remark) [] (r :: rs) := .between (by simp) r ih
      rwa [String.empty_append] at hline
  unfold commentedLines at h
  split at h
  · next hcomment =>
    cases h
    rw [FieldOf.remarks, hcomment]
    exact .line hdeclared .nil
  next text hcomment =>
  rw [FieldOf.remarks, hcomment]
  split at h
  · next hempty =>
    cases h
    obtain rfl : text = "" := eq_of_beq hempty
    exact .line hdeclared .nil
  split at h
  · cases h
  · next r rs hlines =>
    cases h
    show Annotated _ _ (commentLines text)
    rw [hlines]
    exact .beside hdeclared r (hremarks rs)

theorem annotated_memberLines {struct : String} {f : Field} {ls : List String} (hname : Slashless f.name)
    (htype : f.type.Slashless) (h : memberLines struct f = .ok ls) :
    ∃ bare, memberLines struct f.withoutComment = .ok bare ∧ Annotated ls bare f.remarks := by
  obtain ⟨spelling, hspelling, h⟩ := exists_of_bind_eq_ok h
  obtain ⟨first, hfirst, h⟩ := exists_of_bind_eq_ok h
  cases h
  have hlength : ∀ l ∈ (if isList f.type then ["size_t " ++ f.name ++ "_length;"] else []), Slashless l := by
    intro l hl
    split at hl
    · rw [List.mem_singleton.mp hl]
      simp +decide [hname]
    · cases hl
  have hdeclared := (htype.spelling hspelling).declare f.name hname
  have hall := (annotated_commentedLines hdeclared hfirst).append (Annotated.of_slashless hlength)
  rw [List.append_nil] at hall
  exact ⟨_, by rw [memberLines, FieldOf.withoutComment, hspelling]; rfl, hall⟩

theorem annotated_members {struct : String} {fields : List Field} {lss : List (List String)}
    (hfields : ∀ f ∈ fields, Slashless f.name ∧ f.type.Slashless) (h : fields.mapM (memberLines struct) = .ok lss) :
    ∃ bares, (fields.map FieldOf.withoutComment).mapM (memberLines struct) = .ok bares ∧
      Annotated lss.flatten bares.flatten (fields.flatMap FieldOf.remarks) := by
  induction fields generalizing lss with
  | nil =>
    cases h
    exact ⟨[], rfl, .nil⟩
  | cons f fields ih =>
    obtain ⟨⟨hname, htype⟩, hfields⟩ := List.forall_mem_cons.mp hfields
    rw [List.mapM_cons] at h
    obtain ⟨ls, hls, h⟩ := exists_of_bind_eq_ok h
    obtain ⟨lss', hlss, h⟩ := exists_of_bind_eq_ok h
    cases h
    obtain ⟨bare, hbare, hfirst⟩ := annotated_memberLines hname htype hls
    obtain ⟨bares, hbares, hrest⟩ := ih hfields hlss
    exact ⟨bare :: bares, mapM_cons_eq_ok hbare hbares, hfirst.append hrest⟩

theorem slashless_opening {keyword name head : String} {typedef : Value} (hkeyword : Slashless keyword)
    (hname : Slashless name) (h : opening keyword name typedef = .ok head) : Slashless head := by
  unfold opening at h
  split at h
  · cases h
    simp +decide [hkeyword]
  · obtain ⟨tag, htag, h⟩ := exists_of_bind_eq_ok h
    cases h
    simp +decide [hkeyword, hname.snake htag]

theorem slashless_ending {name close : String} {typedef suffix : Value} (hname : Slashless name)
    (hsuffix : Slashless (suffixText suffix)) (h : ending name typedef suffix = .ok close) : Slashless close := by
  unfold ending at h
  split at h
  · obtain ⟨tag, htag, h⟩ := exists_of_bind_eq_ok h
    cases h
    simp +decide [hsuffix, hname.snake htag]
  · cases h
    decide

theorem slashless_start {style : Style} {head : String} {start : List String} (hhead : Slashless head)
    (h : style.opening head = .ok start) : ∀ l ∈ start, Slashless l := by
  cases style with
  | knr =>
    cases h
    simp +decide [hhead]
  | bsd =>
    cases h
    simp +decide [hhead]
  | unknown given => cases h

theorem annotated_structLines {style : Style} {s : Struct} (hs : s.Slashless) {ls : List String}
    (h : structLines style s = .ok ls) :
    ∃ bare, structLines style s.withoutComments = .ok bare ∧ Annotated ls bare (s.fields.flatMap FieldOf.remarks) := by
  obtain ⟨head, start, close, lines, hopening, hstart, hending, hbody, rfl⟩ := definitionLines_eq_ok h
  obtain ⟨lss, hlss, hbody⟩ := exists_of_bind_eq_ok hbody
  cases hbody
  obtain ⟨bares, hbares, hmembers⟩ := annotated_members hs.fields hlss
  have hhead := Annotated.of_slashless (slashless_start (slashless_opening (by decide) hs.name hopening) hstart)
  have hindent : ∀ c ∈ "    ".toList, isBlank c = true := by decide
  have hclose : ∀ l ∈ ["\x7d" ++ close, ""], Slashless l := by
    simp +decide [slashless_ending hs.name hs.suffix hending]
  have hall := (hhead.append (hmembers.shifted hindent)).append (Annotated.of_slashless hclose)
  rw [List.nil_append, List.append_nil] at hall
  refine ⟨_, ?_, hall⟩
  show definitionLines style "struct" s.name s.typedef s.suffix _ = _
  simp only [definitionLines, hopening, hstart, hending, StructOf.withoutComments, hbares, bind, Except.bind, pure,
    Except.pure]
  rfl

/-- A struct that is written with comments on its fields is written without them too, and shows all that it shows then.
Apart from comments and blanks it shows nothing else exactly when each line of the comments is contained. -/
theorem struct_comments_contained_iff (style : Style) {s : Struct} (hs : s.Slashless) {w w' : Writer} (hw : w.Ready)
    (h : struct style s w = .ok () w') :
    ∃ text bare, w'.text = w.text ++ text ∧
      (∃ v, struct style s.withoutComments w = .ok () v ∧ v.text = w.text ++ bare) ∧
      (unspaced bare.toList).Sublist (codeOf text) ∧
      (codeOf text = unspaced bare.toList ↔ ∀ f ∈ s.fields, ∀ r ∈ f.remarks, Contained r.toList) := by
  obtain ⟨ls, hls, rfl⟩ := (yields_struct style s).of_ok hw h
  obtain ⟨bare, hbare, hannotated⟩ := annotated_structLines hs hls
  have hblanks : ∀ c ∈ (Writer.blanks w.level).toList, isBlank c = true := by
    intro c hc
    rw [Writer.blanks, String.toList_ofList] at hc
    rw [List.eq_of_mem_replicate hc]
    decide
  have hshifted := hannotated.shifted hblanks
  have hrun := yields_struct style s.withoutComments
  rw [hbare] at hrun
  refine ⟨_, _, rfl, ⟨_, hrun w hw, rfl⟩, hshifted.sublist_codeOf, ?_⟩
  rw [hshifted.codeOf_eq_iff]
  constructor
  · exact fun hall f hf r hr => hall r (List.mem_flatMap.mpr ⟨f, hf, hr⟩)
  · intro hall r hr
    obtain ⟨f, hf, hr⟩ := List.mem_flatMap.mp hr
    exact hall f hf r hr

/-- A struct with the marks of comments in a comment. -/
def dial : Struct :=
  ⟨"Dial", [⟨"level", .primitive .double, some "in /* SI */ /* units\n  or none"⟩,
    ⟨"marks", .list (.primitive .int32) (.named "MARKS"), none⟩], .bool false, .text "t"⟩

theorem dial_comments_contained :
    dial.Slashless ∧ Writer.braced.Ready ∧ (∀ f ∈ dial.fields, ∀ r ∈ f.remarks, Contained r.toList) ∧
      ∃ w' v, struct .knr dial .braced = .ok () w' ∧ struct .knr dial.withoutComments .braced = .ok () v ∧
        w'.text = linesText ["struct dial \x7b", "    double level; /* in /* SI */ /* units */", "     /* or none */",
          "    int32_t marks[MARKS];", "    size_t marks_length;", "\x7d;", ""] ∧
        codeOf w'.text = unspaced v.text.toList := by
  have hs : dial.Slashless := ⟨by decide, by decide, by simp +decide [dial, DataType.Slashless]⟩
  have hfirst : Contained ("in /* SI ".toList ++ '*' :: '/' :: ([' '] ++ '/' :: '*' :: " units".toList)) :=
    .reopened (by decide) (by decide) (.closed (by decide))
  have hsecond : Contained "or none".toList := .closed (by decide)
  have hcontained : ∀ f ∈ dial.fields, ∀ r ∈ f.remarks, Contained r.toList := by
    have hremarks : dial.fields.flatMap FieldOf.remarks = ["in /* SI */ /* units", "or none"] := by decide +kernel
    intro f hf r hr
    have hmem := List.mem_flatMap.mpr ⟨f, hf, hr⟩
    rw [hremarks] at hmem
    rcases List.mem_pair.mp hmem with rfl | rfl
    · exact hfirst
    · exact hsecond
  have hlines : structLines .knr dial = .ok ["struct dial \x7b", "    double level; /* in /* SI */ /* units */",
      "     /* or none */", "    int32_t marks[MARKS];", "    size_t marks_length;", "\x7d;", ""] := rfl
  have hyields := yields_struct .knr dial
  rw [hlines] at hyields
  have hrun := hyields _ Writer.braced_ready
  obtain ⟨text, bare, htext, ⟨v, hv, hbare⟩, -, hiff⟩ := struct_comments_contained_iff .knr hs Writer.braced_ready hrun
  have hbraced : Writer.braced.text = "" := rfl
  rw [hbraced, String.empty_append] at htext hbare
  refine ⟨hs, Writer.braced_ready, hcontained, _, v, hrun, hv, text_addLines_braced _, ?_⟩
  rw [htext, hbare]
  exact hiff.mpr hcontained

/-- A comment ends where it says so, and the rest of it is read as code. -/
theorem comment_leaves_marks :
    ¬Contained "*/ int y; /*".toList ∧
      headerText .knr ⟨"points", [], [⟨"Point", [⟨"x", .primitive .int32, some "*/ int y; /*"⟩], .bool false, .text "t"⟩], []⟩ =
        .ok "struct point \x7b\n    int32_t x; /* */ int y; /* */\n\x7d;\n\n" ∧
      codeOf "struct point \x7b\n    int32_t x; /* */ int y; /* */\n\x7d;\n\n" =
        "structpoint\x7bint32_tx;inty;\x7d;".toList ∧
      headerText .knr ⟨"points", [], [⟨"Point", [⟨"x", .primitive .int32, none⟩], .bool false, .text "t"⟩], []⟩ =
        .ok "struct point \x7b\n    int32_t x;\n\x7d;\n\n" ∧
      codeOf "struct point \x7b\n    int32_t x;\n\x7d;\n\n" = "structpoint\x7bint32_tx;\x7d;".toList := by
  refine ⟨fun h => ?_, by decide +kernel, by decide, by decide +kernel, by decide⟩
  exact absurd h.leak_eq_nil (by decide)

end Emit.Header

end CodeBridge
