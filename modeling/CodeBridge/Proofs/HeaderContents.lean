import CodeBridge.Proofs.HeaderLines
import CodeBridge.Proofs.HeaderReading

/-! # What the lines of a header say

The literals of constants stand on one line and open no comment. The lines of an enumeration and of a struct,
taken in one after the other as a reader does, give one entry for each value and each field; of a comment only
its first line is seen. -/

namespace CodeBridge

open Text

/-! ### String literals -/

namespace Text.Escape

/-- The letters that stand behind a backslash. -/
def marks : List Char :=
  ['"', '\\', 'n', 'r', 't', 'f', 'b', 'a', 'v']

theorem mem_marks {d m : Char} (h : mark? d = some m) : m ∈ marks := by
  unfold mark? at h
  split at h <;> cases h <;> decide

theorem not_mem_encode {c : Char} (hc : (mark? c).isSome = true) (hm : c ∉ marks) (cs : List Char) : c ∉ encode cs := by
  intro h
  obtain ⟨d, -, hd⟩ := List.mem_flatMap.mp h
  unfold encodeChar at hd
  cases e : mark? d with
  | some m =>
    simp only [e, List.mem_cons, List.not_mem_nil, or_false] at hd
    rcases hd with rfl | rfl
    · exact hm (by decide)
    · exact hm (mem_marks e)
  | none =>
    simp only [e, List.mem_singleton] at hd
    rw [hd, e] at hc
    cases hc

theorem head?_of_head?_encode {x : Char} (hx : x ≠ '\\') {cs : List Char} (h : (encode cs).head? = some x) :
    cs.head? = some x := by
  cases cs with
  | nil => cases h
  | cons d cs =>
    simp only [encode, List.flatMap_cons, encodeChar] at h
    cases e : mark? d with
    | some m =>
      simp only [e, List.cons_append, List.head?_cons, Option.some.injEq] at h
      exact absurd h.symm hx
    | none =>
      simpa [e] using h

/-- Encoding opens no comment that was not there before. -/
theorem pair_infix_of_encode {x : Char} (hx : x ≠ '\\') {cs : List Char} (h : ['/', x] <:+: encode cs) :
    ['/', x] <:+: cs := by
  induction cs with
  | nil => exact h
  | cons d cs ih =>
    have hcs : ['/', x] <:+: encode cs → ['/', x] <:+: d :: cs := fun h => (ih h).trans (List.suffix_cons d cs).isInfix
    have hsplit : encode (d :: cs) = encodeChar d ++ encode cs := by simp [encode]
    rw [hsplit] at h
    unfold encodeChar at h
    cases e : mark? d with
    | some m =>
      -- The pair could start at the mark only, and no mark is a slash.
      simp only [e, List.cons_append, List.nil_append] at h
      rcases List.infix_cons_iff.mp h with h | h
      · exact absurd (List.cons_prefix_cons.mp h).1 (by decide)
      rcases List.infix_cons_iff.mp h with h | h
      · obtain ⟨rfl, -⟩ := List.cons_prefix_cons.mp h
        exact absurd (mem_marks e) (by decide)
      · exact hcs h
    | none =>
      -- A pair that starts at a character left as it is goes on with what the rest starts with.
      simp only [e, List.cons_append, List.nil_append] at h
      rcases List.infix_cons_iff.mp h with h | h
      · obtain ⟨rfl, hstart⟩ := List.cons_prefix_cons.mp h
        obtain ⟨t, ht⟩ := hstart
        have hhead : cs.head? = some x := head?_of_head?_encode hx (by rw [← ht]; rfl)
        obtain ⟨cs, rfl⟩ : ∃ t, cs = x :: t := by
          cases cs with
          | nil => cases hhead
          | cons y cs => exact ⟨cs, by rw [Option.some.inj hhead]⟩
        exact (List.prefix_append ['/', x] cs).isInfix
      · exact hcs h

end Text.Escape

/-! ### Constants -/

namespace Header

/-- A text that can be the value of a macro: it can be seen on both sides, stands on one line and opens no comment. -/
structure MacroValue (cs : List Char) : Prop where
  solid : Solid cs
  line : '\n' ∉ cs
  carriage : '\r' ∉ cs
  uncommented : Uncommented cs

theorem MacroValue.of_isNumeral {s : String} (h : IsNumeral s) : MacroValue s.toList where
  solid := h.solid
  line := not_mem_of_forall h.2 rfl
  carriage := not_mem_of_forall h.2 rfl
  uncommented := .of_not_mem (not_mem_of_forall h.2 rfl)

theorem MacroValue.quote {s : String} (h : Uncommented s.toList) : MacroValue (Escape.quote s).toList := by
  have htext : (Escape.quote s).toList = '"' :: (Escape.encode s.toList ++ ['"']) := by
    simp [Escape.quote, Escape.escape]
  have hencode : Uncommented (Escape.encode s.toList) :=
    ⟨fun m => h.line (Escape.pair_infix_of_encode (by decide) m),
      fun m => h.block (Escape.pair_infix_of_encode (by decide) m)⟩
  have hfeed : '\n' ∉ Escape.encode s.toList := Escape.not_mem_encode rfl (by decide) _
  have hcarriage : '\r' ∉ Escape.encode s.toList := Escape.not_mem_encode rfl (by decide) _
  rw [htext]
  exact {
    solid := .append (a := ['"']) ⟨'"', rfl, rfl⟩ (last_append ⟨'"', rfl, rfl⟩ _)
    line := by simp [hfeed]
    carriage := by simp [hcarriage]
    uncommented := hencode.between (by decide) (by decide) }

end Header

/-! ### Comments -/

namespace Emit

/-- The lines of a text hold no line feed, and joined by line feeds they are the text. -/
theorem splitLines_spec (cs : List Char) : ∃ first others, splitLines cs = first :: others ∧
    cs = first ++ others.flatMap ('\n' :: ·) ∧ ∀ l ∈ first :: others, '\n' ∉ l := by
  induction cs with
  | nil => exact ⟨[], [], rfl, rfl, by simp⟩
  | cons c cs ih =>
    obtain ⟨first, others, hsplit, hjoin, hline⟩ := ih
    by_cases hc : c = '\n'
    · refine ⟨[], first :: others, by simp [splitLines, hc, hsplit], by simp [hc, hjoin], ?_⟩
      intro l hl
      rcases List.mem_cons.mp hl with rfl | hl
      · exact List.not_mem_nil
      · exact hline l hl
    · refine ⟨c :: first, others, by simp [splitLines, hc, hsplit], by simp [hjoin], ?_⟩
      intro l hl
      rcases List.mem_cons.mp hl with rfl | hl
      · simp [Ne.symm hc, hline first List.mem_cons_self]
      · exact hline l (List.mem_cons_of_mem _ hl)

theorem feed_not_mem_splitLines {l cs : List Char} (h : l ∈ splitLines cs) : '\n' ∉ l := by
  obtain ⟨first, others, hsplit, -, hline⟩ := splitLines_spec cs
  exact hline l (hsplit ▸ h)

theorem isInfix_of_mem_splitLines {l cs : List Char} (h : l ∈ splitLines cs) : l <:+: cs := by
  obtain ⟨first, others, hsplit, hjoin, -⟩ := splitLines_spec cs
  rw [hsplit] at h
  rcases List.mem_cons.mp h with rfl | h
  · exact ⟨[], _, hjoin.symm⟩
  · obtain ⟨s, t, rfl⟩ := List.append_of_mem h
    exact ⟨first ++ s.flatMap ('\n' :: ·) ++ ['\n'], t.flatMap ('\n' :: ·), by rw [hjoin]; simp⟩

theorem exists_mem_splitLines {c : Char} {cs : List Char} (h : c ∈ cs) (hc : c ≠ '\n') : ∃ l ∈ splitLines cs, c ∈ l := by
  obtain ⟨first, others, hsplit, hjoin, -⟩ := splitLines_spec cs
  rw [hsplit]
  rw [hjoin] at h
  rcases List.mem_append.mp h with h | h
  · exact ⟨first, List.mem_cons_self, h⟩
  · obtain ⟨l, hl, hcl⟩ := List.mem_flatMap.mp h
    exact ⟨l, List.mem_cons_of_mem _ hl, (List.mem_cons.mp hcl).resolve_left hc⟩

theorem mem_commentLines {l text : String} :
    l ∈ commentLines text ↔ ∃ cs ∈ splitLines text.toList, trim cs ≠ [] ∧ l = String.ofList (trim cs) := by
  constructor
  · intro h
    obtain ⟨line, hline, rfl⟩ := List.mem_map.mp h
    obtain ⟨hline, hne⟩ := List.mem_filter.mp hline
    obtain ⟨cs, hcs, rfl⟩ := List.mem_map.mp hline
    exact ⟨cs, hcs, by simpa using hne, rfl⟩
  · rintro ⟨cs, hcs, hne, rfl⟩
    exact List.mem_map.mpr ⟨trim cs, List.mem_filter.mpr ⟨List.mem_map.mpr ⟨cs, hcs, rfl⟩, by simpa using hne⟩, rfl⟩

/-- A comment that can stand in a header: it says something, and nothing in it ends a line of its own, the body
or the comment or opens another one. -/
structure Presentable (text : String) : Prop where
  spoken : ∃ c ∈ text.toList, isBlank c = false
  carriage : '\r' ∉ text.toList
  brace : '\x7d' ∉ text.toList
  uncommented : Header.Uncommented text.toList
  unclosed : ¬['*', '/'] <:+: text.toList

theorem Presentable.commentLines_ne_nil {text : String} (h : Presentable text) : commentLines text ≠ [] := by
  obtain ⟨c, hc, hb⟩ := h.spoken
  obtain ⟨l, hl, hcl⟩ := exists_mem_splitLines hc (by rintro rfl; cases hb)
  have htrim : trim l ≠ [] := fun e => by
    rw [blank_of_trim_eq_nil e c hcl] at hb
    cases hb
  exact List.ne_nil_of_mem (mem_commentLines.mpr ⟨l, hl, htrim, rfl⟩)

/-- A line of such a comment. -/
structure RemarkLine (l : String) : Prop where
  solid : Solid l.toList
  line : Header.BodyLine l.toList
  uncommented : Header.Uncommented l.toList
  unclosed : ¬['*', '/'] <:+: l.toList

theorem Presentable.remarkLine {text : String} (h : Presentable text) {l : String} (hl : l ∈ commentLines text) :
    RemarkLine l := by
  obtain ⟨cs, hcs, hne, rfl⟩ := mem_commentLines.mp hl
  have hline : trim cs <:+: cs := trim_isInfix cs
  have htext : trim cs <:+: text.toList := hline.trans (isInfix_of_mem_splitLines hcs)
  rw [← String.toList_ofList (l := trim cs)] at htext hline
  refine ⟨by simpa using solid_trim hne, ⟨?_, ?_, ?_⟩, h.uncommented.of_isInfix htext, fun m => h.unclosed (m.trans htext)⟩
  · exact fun m => feed_not_mem_splitLines hcs (hline.subset m)
  · exact fun m => h.carriage (htext.subset m)
  · exact fun m => h.brace (htext.subset m)

end Emit

/-! ### Fields -/

namespace Header

open Emit Emit.Header

theorem trim_indented {l : String} (h : Solid l.toList) : trim (indented l).toList = l.toList := by
  have hblank : ∀ c ∈ "    ".toList, isBlank c = true := by decide
  rw [indented, String.toList_append, trim_blanks_append hblank, h.trim_eq]

theorem BodyLine.indented {l : String} (h : BodyLine l.toList) : BodyLine (indented l).toList := by
  rw [CodeBridge.indented, String.toList_append]
  exact .append (by decide) h

theorem BodyLine.of_isName {s : String} (h : IsName s) : BodyLine s.toList :=
  .of_forall h.2 rfl rfl rfl

theorem remark_bodyLine {l : String} (h : RemarkLine l) : BodyLine (remark l).toList := by
  rw [remark, String.toList_append, String.toList_append]
  exact .append (.append (by decide) h.line) (by decide)

theorem declaration_bodyLine {type name : String} (ht : IsName type) (hn : IsName name) :
    BodyLine (type ++ " " ++ name ++ ";").toList := by
  simp only [String.toList_append]
  exact .append (.append (.append (.of_isName ht) (by decide)) (.of_isName hn))
    (by decide)

theorem fieldTail?_remark {l : String} (h : RemarkLine l) :
    ∃ comment, fieldTail? (remark l).toList = some comment ∧ cleanComment comment = l := by
  have htext : (remark l).toList = ' ' :: '/' :: '*' :: (' ' :: (l.toList ++ [' ']) ++ ['*', '/']) := by
    simp [remark]
  refine ⟨some (' ' :: (l.toList ++ [' '])), ?_, ?_⟩
  · rw [htext]
    show some (some (dropClosing (' ' :: (l.toList ++ [' ']) ++ ['*', '/']))) = _
    rw [dropClosing_append (by simp)]
  · rw [cleanComment_between h.solid h.uncommented h.unclosed, String.ofList_toList]

theorem addField_declaration {type name : String} (tail : String) {said : String} (ht : IsName type) (hn : IsName name)
    (hend : ∃ c ∈ (';' :: tail.toList).getLast?, isBlank c = false)
    (htail : ∃ comment, fieldTail? tail.toList = some comment ∧ cleanComment comment = said) (members : List Entry) :
    addField members (trim (CodeBridge.indented (type ++ " " ++ name ++ ";" ++ tail)).toList) =
      .ok (members ++ [⟨name, some type, some said⟩]) := by
  obtain ⟨comment, hcomment, rfl⟩ := htail
  have hsolid : Solid (type ++ " " ++ name ++ ";" ++ tail).toList := by
    have htext : (type ++ " " ++ name ++ ";" ++ tail).toList =
        type.toList ++ ((' ' :: name.toList) ++ ';' :: tail.toList) := by simp
    rw [htext]
    exact .append ht.solid.first (last_append hend _)
  rw [trim_indented hsolid, String.toList_append, addField, fieldLine?_line ht hn hcomment]

theorem addField_remark (l : String) (members : List Entry) :
    addField members (trim (CodeBridge.indented (remark l)).toList) = .ok members := by
  have htext : (CodeBridge.indented (remark l)).toList = "     ".toList ++ ('/' :: '*' :: ' ' :: (l.toList ++ " */".toList)) := by
    simp [CodeBridge.indented, remark]
  have hsolid : Solid ('/' :: '*' :: ' ' :: (l.toList ++ " */".toList)) :=
    .append (a := ['/', '*', ' ']) ⟨'/', rfl, rfl⟩ (last_append ⟨'/', rfl, rfl⟩ _)
  have hblank : ∀ c ∈ "     ".toList, isBlank c = true := by decide
  rw [htext, trim_blanks_append hblank, hsolid.trim_eq, addField, fieldLine?_of_not_word rfl]

theorem foldlM_addField_remarks (ls : List String) (members : List Entry) :
    ((ls.map remark).map (String.toList ∘ CodeBridge.indented)).foldlM (fun s l => addField s (trim l)) members =
      .ok members := by
  induction ls with
  | nil => rfl
  | cons l ls ih =>
    simp only [List.map_cons, List.foldlM_cons, Function.comp_apply, addField_remark]
    exact ih

/-- The line of a comment that stands beside its field. -/
def firstLine : Option String → String
  | none => ""
  | some text => (commentLines text).headD ""

/-- A field is read as its name and its type, with the first line of its comment. -/
theorem commentedLines_spec {type name : String} (ht : IsName type) (hn : IsName name) {comment : Option String}
    (hc : ∀ text ∈ comment, Presentable text) (struct : String) :
    ∃ ls, commentedLines struct name comment remark (type ++ " " ++ name ++ ";") = .ok ls ∧
      (∀ l ∈ ls, BodyLine (CodeBridge.indented l).toList) ∧
      ∀ members, (ls.map (String.toList ∘ CodeBridge.indented)).foldlM (fun s l => addField s (trim l)) members =
        .ok (members ++ [⟨name, some type, some (firstLine comment)⟩]) := by
  have hdeclared := declaration_bodyLine ht hn
  cases comment with
  | none =>
    refine ⟨[type ++ " " ++ name ++ ";"], rfl, fun l hl => List.mem_singleton.mp hl ▸ hdeclared.indented, ?_⟩
    intro members
    have hadd := addField_declaration "" ht hn ⟨';', rfl, rfl⟩ ⟨none, rfl, rfl⟩ members
    rw [String.append_empty] at hadd
    simp [hadd, firstLine, cleanComment]
  | some text =>
    have hp := hc text rfl
    have hne : (text == "") = false := by
      have htext : text ≠ "" := fun e => by
        obtain ⟨c, hc, -⟩ := hp.spoken
        simp [e] at hc
      simpa using htext
    cases hls : commentLines text with
    | nil => exact absurd hls hp.commentLines_ne_nil
    | cons l ls =>
      have hlines : ∀ k ∈ l :: ls, RemarkLine k := fun k hk => hp.remarkLine (hls ▸ hk)
      refine ⟨(type ++ " " ++ name ++ ";" ++ remark l) :: ls.map remark, by simp [commentedLines, hne, hls], ?_, ?_⟩
      · intro k hk
        rcases List.mem_cons.mp hk with rfl | hk
        · refine BodyLine.indented ?_
          rw [String.toList_append]
          exact hdeclared.append (remark_bodyLine (hlines l List.mem_cons_self))
        · obtain ⟨below, hbelow, rfl⟩ := List.mem_map.mp hk
          exact (remark_bodyLine (hlines below (List.mem_cons_of_mem _ hbelow))).indented
      · intro members
        have hend : ∃ c ∈ (';' :: (remark l).toList).getLast?, isBlank c = false := by
          rw [remark, String.toList_append]
          exact last_append (a := ';' :: (" /* " ++ l).toList) ⟨'/', rfl, rfl⟩
        have hadd := addField_declaration (remark l) ht hn hend (fieldTail?_remark (hlines l List.mem_cons_self)) members
        simp only [List.map_cons, List.foldlM_cons, Function.comp_apply, hadd, firstLine, hls, List.headD_cons]
        exact foldlM_addField_remarks ls _

/-! ### Values of enumerations -/

/-- As many numbers as `count` from `first` on can be written. -/
def Writable (first : Int) (count : Nat) : Prop :=
  ∀ i < count, Decimal.tooLong (first + i) = false

theorem Writable.head {first : Int} {count : Nat} (h : Writable first (count + 1)) : Decimal.tooLong first = false := by
  simpa using h 0 (by omega)

theorem Writable.tail {first : Int} {count : Nat} (h : Writable first (count + 1)) : Writable (first + 1) count := by
  intro i hi
  have hnext := h (i + 1) (by omega)
  rwa [Int.natCast_add, Int.natCast_one, Int.add_comm (i : Int) 1, ← Int.add_assoc] at hnext

theorem Writable.cons {first : Int} {count : Nat} (hfirst : Decimal.tooLong first = false) (h : Writable (first + 1) count) :
    Writable first (count + 1) := by
  intro i hi
  cases i with
  | zero => simpa using hfirst
  | succ i =>
    have hnext := h i (by omega)
    rwa [Int.natCast_add, Int.natCast_one, Int.add_comm (i : Int) 1, ← Int.add_assoc]

/-- The entries of values that are counted from `first` on. -/
def ordinalEntries (first : Int) (values : List String) : List Entry :=
  values.mapIdx fun i value => ⟨value, some (Decimal.intText (first + i)), some ""⟩

theorem ordinalEntries_cons (first : Int) (value : String) (values : List String) :
    ordinalEntries first (value :: values) =
      ⟨value, some (Decimal.intText first), some ""⟩ :: ordinalEntries (first + 1) values := by
  have hshift : ∀ i : Nat, first + ((i : Int) + 1) = first + 1 + i := fun i => by omega
  simp [ordinalEntries, List.mapIdx_cons, hshift]

theorem ordinal_bodyLine {value : String} (hv : IsName value) (n : Int) {tail : String} (ht : BodyLine tail.toList) :
    BodyLine (value ++ " = " ++ Decimal.intText n ++ tail).toList := by
  simp only [String.toList_append]
  exact .append (.append (.append (.of_isName hv) (by decide))
    (.of_forall (Decimal.isNumeral_intText n).2 rfl rfl rfl)) ht

theorem text?_int {n : Int} (h : Decimal.tooLong n = false) : (Value.int n).text? = .ok (Decimal.intText n) := by
  rw [Value.text?, if_neg (by simpa [Value.holdsLongInteger] using h)]
  rfl

theorem of_text?_int_eq_ok {n : Int} {text : String} (h : (Value.int n).text? = .ok text) :
    Decimal.tooLong n = false ∧ text = Decimal.intText n := by
  cases hn : Decimal.tooLong n with
  | true =>
    rw [Value.text?, if_pos (by simpa [Value.holdsLongInteger] using hn)] at h
    cases h
  | false =>
    rw [text?_int hn] at h
    cases h
    exact ⟨rfl, rfl⟩

theorem counted_eq {n : Int} (h : Decimal.tooLong n = false) : counted n = .ok (Decimal.intText n, n) := by
  rw [counted, text?_int h]
  rfl

theorem evaluate_of_value {text : String} {n : Int} (h : Initializer.value text = .int n) (hn : Decimal.tooLong n = false) :
    Initializer.evaluate text = .ok (Decimal.intText n, n) := by
  simp only [Initializer.evaluate, h, text?_int hn]
  rfl

/-- A line with a member is counted with the value that it is given or has come to. -/
theorem countMember_of_line {value : String → Except Fault (String × Int)} {s : Counting} {line : List Char} {m : MemberLine}
    (h : memberLine? line = some m) {n : Int} (hvalue : m.initializer.elim (counted s.next) value = .ok (Decimal.intText n, n)) :
    countMember value s line = .ok ⟨s.members ++ [⟨m.name, some (Decimal.intText n), some (cleanComment m.comment)⟩], n + 1⟩ := by
  simp only [countMember, h, hvalue]
  rfl

theorem countMember_ordinal {value tail : String} {n : Int} (hv : IsName value) (hn : Decimal.tooLong n = false)
    (ht : tail = "" ∨ tail = ",") (s : Counting) :
    countMember Initializer.evaluate s (trim (CodeBridge.indented (value ++ " = " ++ Decimal.intText n ++ tail)).toList) =
      .ok ⟨s.members ++ [⟨value, some (Decimal.intText n), some ""⟩], n + 1⟩ := by
  have hnumeral := Decimal.isNumeral_intText n
  have hsolid : Solid (value ++ " = " ++ Decimal.intText n ++ tail).toList := by
    have htext : (value ++ " = " ++ Decimal.intText n ++ tail).toList =
        value.toList ++ (" = ".toList ++ ((Decimal.intText n).toList ++ tail.toList)) := by simp
    rw [htext]
    refine .append hv.solid.first (last_append ?_ _)
    rcases ht with rfl | rfl
    · simpa using hnumeral.solid.last
    · exact last_append ⟨',', rfl, rfl⟩ _
  rw [trim_indented hsolid]
  exact countMember_of_line (memberLine?_line hv hnumeral ht) (evaluate_of_value (Initializer.value_intText hn) hn)

/-- The values of an enumeration behind the first are read as what they count. -/
theorem ordinalLines_spec {value : String} (hv : IsName value) {values : List String} (hvs : ∀ v ∈ values, IsName v)
    {n : Int} (hn : Writable n (values.length + 1)) :
    ∃ ls, ordinalLines (value ++ " = " ++ Decimal.intText n) (.int (n + 1)) values = .ok ls ∧
      (∀ l ∈ ls, BodyLine (CodeBridge.indented l).toList) ∧
      ∀ s, ∃ next, (ls.map (String.toList ∘ CodeBridge.indented)).foldlM (fun s l => countMember Initializer.evaluate s (trim l)) s =
        .ok ⟨s.members ++ ordinalEntries n (value :: values), next⟩ := by
  induction values generalizing value n with
  | nil =>
    have hline : BodyLine (value ++ " = " ++ Decimal.intText n).toList := by
      simpa using ordinal_bodyLine hv n (show BodyLine "".toList by decide)
    refine ⟨[value ++ " = " ++ Decimal.intText n], rfl, fun l hl => List.mem_singleton.mp hl ▸ hline.indented, ?_⟩
    intro s
    have hcount := countMember_ordinal hv hn.head (.inl rfl) s
    rw [String.append_empty] at hcount
    exact ⟨n + 1, by simp [hcount, ordinalEntries]⟩
  | cons second values ih =>
    obtain ⟨ls, hls, hlines, hfold⟩ := ih (hvs second List.mem_cons_self)
      (fun v hv => hvs v (List.mem_cons_of_mem _ hv)) hn.tail
    refine ⟨(value ++ " = " ++ Decimal.intText n ++ ",") :: ls, ?_, ?_, ?_⟩
    · simp only [ordinalLines, text?_int hn.tail.head, Value.next]
      show (do return _ :: (← ordinalLines (second ++ " = " ++ Decimal.intText (n + 1)) (.int (n + 1 + 1)) values)) = _
      rw [hls]
      rfl
    · intro l hl
      rcases List.mem_cons.mp hl with rfl | hl
      · exact (ordinal_bodyLine hv n (by decide)).indented
      · exact hlines l hl
    · intro s
      obtain ⟨next, hnext⟩ := hfold ⟨s.members ++ [⟨value, some (Decimal.intText n), some ""⟩], n + 1⟩
      refine ⟨next, ?_⟩
      simp only [List.map_cons, List.foldlM_cons, Function.comp_apply, countMember_ordinal hv hn.head (.inr rfl)]
      rw [List.append_assoc, List.singleton_append, ← ordinalEntries_cons] at hnext
      exact hnext

theorem valueLines_spec {values : List String} (hvs : ∀ v ∈ values, IsName v) {n : Int}
    (hn : Writable n values.length) :
    ∃ ls, valueLines (.int n) values = .ok ls ∧ (∀ l ∈ ls, BodyLine (CodeBridge.indented l).toList) ∧
      ∃ next, (ls.map (String.toList ∘ CodeBridge.indented)).foldlM (fun s l => countMember Initializer.evaluate s (trim l)) ⟨[], 0⟩ =
        .ok ⟨ordinalEntries n values, next⟩ := by
  cases values with
  | nil =>
    have hblank : BodyLine "".toList := by decide
    exact ⟨[""], rfl, fun l hl => List.mem_singleton.mp hl ▸ hblank.indented, 0, rfl⟩
  | cons value values =>
    obtain ⟨ls, hls, hlines, hfold⟩ := ordinalLines_spec (hvs value List.mem_cons_self)
      (fun v hv => hvs v (List.mem_cons_of_mem _ hv)) hn
    obtain ⟨next, hnext⟩ := hfold ⟨[], 0⟩
    refine ⟨ls, ?_, hlines, next, hnext⟩
    simp only [valueLines, text?_int hn.head, Value.next]
    exact hls

end Header

end CodeBridge
