import CodeBridge.Proofs.HeaderEntries

/-! # Lines without their last character

What a macro line defines hangs on its last character, unless that is a blank: without it the line defines another
value or says something else in its comment, or it is no macro line any more (`constant?_cut_iff`). -/

namespace CodeBridge.Header

open Text

/-! ### Trimming -/

theorem trim_append_blanks (cs : List Char) {post : List Char} (h : ∀ c ∈ post, isBlank c = true) :
    trim (cs ++ post) = trim cs := by
  have hpost : post.dropWhile isBlank = [] := List.dropWhile_eq_nil_iff.mpr h
  rw [trim, trim, trimLeft, List.dropWhile_append]
  split
  · next hnil => rw [hpost, trimLeft, List.isEmpty_iff.mp hnil]
  · exact trimRight_append_blanks _ h

theorem trim_concat (cs : List Char) {z : Char} (h : isBlank z = false) : trim (cs ++ [z]) = trimLeft cs ++ [z] := by
  have hleft : trimLeft (cs ++ [z]) = trimLeft cs ++ [z] := by
    rw [trimLeft, List.dropWhile_append]
    split
    · next hnil => rw [trimLeft, List.isEmpty_iff.mp hnil, List.dropWhile_cons_of_neg (by simp [h]), List.nil_append]
    · rfl
  rw [trim, hleft, trimRight_of_last ⟨z, by simp, h⟩]

theorem trim_concat_ne (cs : List Char) {z : Char} (h : isBlank z = false) : trim (cs ++ [z]) ≠ trim cs := by
  intro e
  have hlength := congrArg List.length e
  have hle : (trim cs).length ≤ (trimLeft cs).length := (trimRight_isPrefix _).length_le
  rw [trim_concat cs h, List.length_append, List.length_singleton] at hlength
  omega

theorem exists_trimRight (cs : List Char) : ∃ post, (∀ c ∈ post, isBlank c = true) ∧ cs = trimRight cs ++ post := by
  refine ⟨(cs.reverse.takeWhile isBlank).reverse, fun c hc => ?_, ?_⟩
  · exact List.mem_takeWhile_imp (List.mem_reverse.mp hc)
  · rw [trimRight, ← List.reverse_append, List.takeWhile_append_dropWhile, List.reverse_reverse]

theorem last_trimRight {cs : List Char} (h : trimRight cs ≠ []) : ∃ c ∈ (trimRight cs).getLast?, isBlank c = false := by
  have hne : trimLeft cs.reverse ≠ [] := fun e => h (congrArg List.reverse e)
  obtain ⟨c, hc, hb⟩ := first_of_trimLeft_ne_nil hne
  exact ⟨c, by rwa [trimRight, List.getLast?_reverse], hb⟩

theorem trimRight_append {a b : List Char} (h : ∃ c ∈ (a ++ trimRight b).getLast?, isBlank c = false) :
    trimRight (a ++ b) = a ++ trimRight b := by
  obtain ⟨post, hpost, e⟩ := exists_trimRight b
  conv_lhs => rw [e, ← List.append_assoc, trimRight_append_blanks _ hpost, trimRight_of_last h]

theorem first_trimRight {cs : List Char} (h : ∃ c ∈ cs.head?, isBlank c = false) :
    ∃ c ∈ (trimRight cs).head?, isBlank c = false := by
  obtain ⟨c, hc, hb⟩ := h
  obtain ⟨post, hpost, e⟩ := exists_trimRight cs
  refine ⟨c, ?_, hb⟩
  cases hright : trimRight cs with
  | nil =>
    rw [hright, List.nil_append] at e
    rw [hpost c (e ▸ List.mem_of_mem_head? hc)] at hb
    cases hb
  | cons d rest =>
    rw [e, hright] at hc
    exact hc

/-! ### Comments -/

/-- Two characters that together open or close a comment. -/
def isMark (a b : Char) : Bool :=
  a == '/' && b == '*' || a == '*' && b == '/' || a == '/' && b == '/'

theorem isMark_iff {a b : Char} : isMark a b = true ↔ a = '/' ∧ b = '*' ∨ a = '*' ∧ b = '/' ∨ a = '/' ∧ b = '/' := by
  simp [isMark, or_assoc]

theorem dropMarks_mark {a b : Char} (h : isMark a b = true) (cs : List Char) : dropMarks (a :: b :: cs) = dropMarks cs := by
  rcases isMark_iff.mp h with ⟨rfl, rfl⟩ | ⟨rfl, rfl⟩ | ⟨rfl, rfl⟩
  · rfl
  · rfl
  · rfl

theorem dropMarks_plain {a b : Char} (h : isMark a b = false) (cs : List Char) :
    dropMarks (a :: b :: cs) = a :: dropMarks (b :: cs) := by
  rw [dropMarks]
  · rintro rest rfl e
    cases e
    cases h
  · rintro rest rfl e
    cases e
    cases h
  · rintro rest rfl e
    cases e
    cases h

theorem dropMarks_single (a : Char) : dropMarks [a] = [a] := by
  rw [dropMarks]
  · rfl
  · rintro rest _ ⟨⟩
  · rintro rest _ ⟨⟩
  · rintro rest _ ⟨⟩

/-- Marks are dropped from the left: what is dropped at a place hangs on the two characters there. -/
theorem dropMarks_induction {motive : List Char → Prop} (nil : motive []) (single : ∀ a, motive [a])
    (mark : ∀ a b cs, isMark a b = true → motive cs → motive (a :: b :: cs))
    (plain : ∀ a b cs, isMark a b = false → motive (b :: cs) → motive (a :: b :: cs)) : ∀ cs, motive cs
  | [] => nil
  | [a] => single a
  | a :: b :: cs => by
    cases h : isMark a b with
    | true => exact mark a b cs h (dropMarks_induction nil single mark plain cs)
    | false => exact plain a b cs h (dropMarks_induction nil single mark plain (b :: cs))

theorem not_isBlank_of_isMark {a b : Char} (h : isMark a b = true) : isBlank a = false := by
  rcases isMark_iff.mp h with ⟨rfl, -⟩ | ⟨rfl, -⟩ | ⟨rfl, -⟩
  · rfl
  · rfl
  · rfl

theorem isMark_of_isBlank (a : Char) {b : Char} (h : isBlank b = true) : isMark a b = false := by
  rw [Bool.eq_false_iff]
  intro hm
  rcases isMark_iff.mp hm with ⟨-, rfl⟩ | ⟨-, rfl⟩ | ⟨-, rfl⟩
  · cases h
  · cases h
  · cases h

/-- One more character is kept, or it completes a mark with the last one. -/
theorem dropMarks_concat (cs : List Char) (z : Char) : dropMarks (cs ++ [z]) = dropMarks cs ++ [z] ∨
    ∃ y, isBlank y = false ∧ dropMarks cs = dropMarks (cs ++ [z]) ++ [y] := by
  induction cs using dropMarks_induction with
  | nil => exact .inl (dropMarks_single z)
  | single a =>
    cases h : isMark a z with
    | true =>
      refine .inr ⟨a, not_isBlank_of_isMark h, ?_⟩
      rw [dropMarks_single, List.singleton_append, dropMarks_mark h]
      rfl
    | false =>
      refine .inl ?_
      rw [List.singleton_append, dropMarks_plain h, dropMarks_single, dropMarks_single]
      rfl
  | mark a b cs h ih =>
    rw [List.cons_append, List.cons_append, dropMarks_mark h, dropMarks_mark h]
    exact ih
  | plain a b cs h ih =>
    rw [List.cons_append, List.cons_append, dropMarks_plain h, dropMarks_plain h]
    rcases ih with e | ⟨y, hy, e⟩
    · rw [List.cons_append] at e
      exact .inl (by rw [e, List.cons_append])
    · rw [List.cons_append] at e
      exact .inr ⟨y, hy, by rw [e, List.cons_append]⟩

theorem dropMarks_append_blanks (cs : List Char) {post : List Char} (h : ∀ c ∈ post, isBlank c = true) :
    dropMarks (cs ++ post) = dropMarks cs ++ post := by
  have hall : ∀ {post : List Char}, (∀ c ∈ post, isBlank c = true) → ∀ a, dropMarks (a :: post) = a :: post := by
    intro post h
    induction post with
    | nil => exact dropMarks_single
    | cons b post ih =>
      intro a
      obtain ⟨hb, hpost⟩ := List.forall_mem_cons.mp h
      rw [dropMarks_plain (isMark_of_isBlank a hb), ih hpost]
  induction cs using dropMarks_induction with
  | nil =>
    cases post with
    | nil => rfl
    | cons b post => exact hall (List.forall_mem_cons.mp h).2 b
  | single a => rw [List.singleton_append, hall h, dropMarks_single, List.singleton_append]
  | mark a b cs hm ih => rw [List.cons_append, List.cons_append, dropMarks_mark hm, dropMarks_mark hm, ih]
  | plain a b cs hm ih =>
    rw [List.cons_append] at ih
    rw [List.cons_append, List.cons_append, dropMarks_plain hm, dropMarks_plain hm, ih, List.cons_append]

/-- A closing mark at the end goes with the other marks. -/
theorem dropMarks_append_closing (cs : List Char) : dropMarks (cs ++ ['*', '/']) = dropMarks cs := by
  induction cs using dropMarks_induction with
  | nil => rfl
  | single a =>
    rw [List.singleton_append]
    cases h : isMark a '*' with
    | true =>
      obtain rfl : a = '/' := by
        rcases isMark_iff.mp h with ⟨e, -⟩ | ⟨-, e⟩ | ⟨-, e⟩
        · exact e
        · cases e
        · cases e
      rfl
    | false => rw [dropMarks_plain h, dropMarks_mark rfl, dropMarks_single]; rfl
  | mark a b cs h ih => rw [List.cons_append, List.cons_append, dropMarks_mark h, dropMarks_mark h, ih]
  | plain a b cs h ih =>
    rw [List.cons_append] at ih
    rw [List.cons_append, List.cons_append, dropMarks_plain h, dropMarks_plain h, ih]

theorem dropClosing_cases (cs : List Char) :
    dropClosing cs = cs ∨ ∃ inner, inner ≠ [] ∧ cs = inner ++ ['*', '/'] ∧ dropClosing cs = inner := by
  unfold dropClosing
  split
  · next c rest h =>
    refine .inr ⟨(c :: rest).reverse, by simp, ?_, rfl⟩
    rw [← List.reverse_reverse cs, h]
    simp
  · exact .inl rfl

theorem dropMarks_dropClosing (cs : List Char) : dropMarks (dropClosing cs) = dropMarks cs := by
  rcases dropClosing_cases cs with e | ⟨inner, -, e, e'⟩
  · rw [e]
  · rw [e', e, dropMarks_append_closing]

/-- What a comment says hangs on its last character. -/
theorem cleanComment_cut (cs : List Char) {z : Char} (hz : isBlank z = false) :
    cleanComment (some (dropClosing (cs ++ [z]))) ≠ cleanComment (some (dropClosing (trimRight cs))) := by
  obtain ⟨post, hpost, e⟩ := exists_trimRight cs
  have htrim : trim (dropMarks (trimRight cs)) = trim (dropMarks cs) := by
    conv_rhs => rw [e, dropMarks_append_blanks _ hpost, trim_append_blanks _ hpost]
  rw [cleanComment, cleanComment, dropMarks_dropClosing, dropMarks_dropClosing, htrim]
  intro h
  have heq : trim (dropMarks (cs ++ [z])) = trim (dropMarks cs) := String.ofList_injective h
  rcases dropMarks_concat cs z with hkept | ⟨y, hy, hdropped⟩
  · rw [hkept] at heq
    exact trim_concat_ne _ hz heq
  · rw [hdropped] at heq
    exact trim_concat_ne _ hy heq.symm

/-! ### Values of macros -/

theorem remark?_of_mark {m : Char} (hm : m = '/' ∨ m = '*') {cs : List Char} (hne : cs ≠ []) :
    remark? ('/' :: m :: cs) = some (dropClosing cs) := by
  obtain ⟨c, cs, rfl⟩ := List.exists_cons_of_ne_nil hne
  rcases hm with rfl | rfl
  · rfl
  · rfl

theorem of_remark?_eq_some {cs comment : List Char} (h : remark? cs = some comment) :
    ∃ m rest, (m = '/' ∨ m = '*') ∧ rest ≠ [] ∧ cs = '/' :: m :: rest ∧ comment = dropClosing rest := by
  unfold remark? at h
  split at h
  · next c rest => exact ⟨'/', c :: rest, .inl rfl, List.cons_ne_nil _ _, rfl, (Option.some.inj h).symm⟩
  · next c rest => exact ⟨'*', c :: rest, .inr rfl, List.cons_ne_nil _ _, rfl, (Option.some.inj h).symm⟩
  · cases h

theorem remark?_eq_none_of_isPrefix {a b : List Char} (hab : a <+: b) (h : remark? b = none) : remark? a = none := by
  by_contra hsome
  obtain ⟨comment, hc⟩ := Option.ne_none_iff_exists'.mp hsome
  obtain ⟨m, rest, hm, hne, rfl, -⟩ := of_remark?_eq_some hc
  obtain ⟨more, rfl⟩ := hab
  have hmark := remark?_of_mark hm (List.append_ne_nil_of_left_ne_nil hne more)
  rw [List.cons_append, List.cons_append, hmark] at h
  cases h

/-- Whether a comment opens before a mark does not hang on what stands behind the mark. -/
theorem remark?_before {value cs more : List Char} {m : Char} (hne : value ≠ [])
    (h : remark? (value ++ '/' :: m :: cs) = none) : remark? (value ++ '/' :: m :: more) = none := by
  by_contra hsome
  obtain ⟨comment, hc⟩ := Option.ne_none_iff_exists'.mp hsome
  obtain ⟨k, rest, hk, -, e, -⟩ := of_remark?_eq_some hc
  obtain ⟨a, value, rfl⟩ := List.exists_cons_of_ne_nil hne
  obtain ⟨rfl, hrest⟩ := List.cons.inj e
  cases value with
  | nil =>
    rw [List.cons_append, List.nil_append, remark?_of_mark (.inl rfl) (List.cons_ne_nil _ _)] at h
    cases h
  | cons b value =>
    obtain ⟨rfl, -⟩ := List.cons.inj hrest
    rw [List.cons_append, List.cons_append, remark?_of_mark hk (by simp)] at h
    cases h

theorem shortestValue_of_none {c : Char} {cs : List Char} (h : remark? cs = none) :
    shortestValue (c :: cs) = (c :: (shortestValue cs).1, (shortestValue cs).2) := by
  rw [shortestValue, h]

theorem shortestValue_of_mark (c : Char) {m : Char} (hm : m = '/' ∨ m = '*') {cs : List Char} (hne : cs ≠ []) :
    shortestValue (c :: '/' :: m :: cs) = ([c], some (dropClosing cs)) := by
  rw [shortestValue, remark?_of_mark hm hne]

/-- A text is a value as a whole, with every shorter start of it, or its value ends before a mark, whatever stands
behind the mark. -/
theorem shortestValue_cases (cs : List Char) :
    (∀ start, start <+: cs → shortestValue start = (start, none)) ∨
      ∃ value m rest, value ≠ [] ∧ isBlank m = false ∧ cs = value ++ '/' :: m :: rest ∧ rest ≠ [] ∧
        (∀ more, more ≠ [] → shortestValue (value ++ '/' :: m :: more) = (value, some (dropClosing more))) ∧
        shortestValue (value ++ ['/', m]) = (value ++ ['/', m], none) := by
  induction cs with
  | nil =>
    refine .inl fun start h => ?_
    rw [List.prefix_nil.mp h]
    rfl
  | cons c cs ih =>
    cases hr : remark? cs with
    | some comment =>
      obtain ⟨m, rest, hm, hne, rfl, -⟩ := of_remark?_eq_some hr
      refine .inr ⟨[c], m, rest, List.cons_ne_nil _ _, ?_, rfl, hne, fun more hmore => shortestValue_of_mark c hm hmore, ?_⟩
      · rcases hm with rfl | rfl
        · rfl
        · rfl
      · rcases hm with rfl | rfl
        · rfl
        · rfl
    | none =>
      rcases ih with hall | ⟨value, m, rest, hne, hm, rfl, hrest, hmore, hcut⟩
      · refine .inl fun start h => ?_
        rcases List.prefix_cons_iff.mp h with rfl | ⟨start, rfl, hs⟩
        · rfl
        · rw [shortestValue_of_none (remark?_eq_none_of_isPrefix hs hr), hall start hs]
      · refine .inr ⟨c :: value, m, rest, List.cons_ne_nil _ _, hm, rfl, hrest, fun more hne' => ?_, ?_⟩
        · rw [List.cons_append, shortestValue_of_none (remark?_before hne hr), hmore more hne']
        · rw [List.cons_append, shortestValue_of_none (remark?_before hne hr), hcut]

/-- What a macro with this value and comment says. -/
def macroSays (cs : List Char) : List Char × String :=
  (trim (shortestValue cs).1, cleanComment (shortestValue cs).2)

theorem macroSays_cut {cs : List Char} {z : Char} (hfirst : ∃ c ∈ cs.head?, isBlank c = false) (hz : isBlank z = false) :
    macroSays (cs ++ [z]) ≠ macroSays (trimRight cs) := by
  have hwhole : Solid (cs ++ [z]) := .append hfirst ⟨z, rfl, hz⟩
  obtain ⟨post, hpost, e⟩ := exists_trimRight cs
  rcases shortestValue_cases (cs ++ [z]) with hall | ⟨value, m, rest, hne, hm, hcs, hrest, hmore, hcut⟩
  · -- Without a comment the line and its cut are two values of different lengths.
    have hstart : trimRight cs <+: cs ++ [z] := (trimRight_isPrefix cs).trans (List.prefix_append cs [z])
    intro h
    have hvalue : trim (shortestValue (cs ++ [z])).1 = trim (shortestValue (trimRight cs)).1 := (Prod.mk.inj h).1
    simp only [hall _ (List.prefix_refl _), hall _ hstart, hwhole.trim_eq] at hvalue
    have hlength := congrArg List.length hvalue
    have hle := ((trim_isInfix (trimRight cs)).trans (trimRight_isPrefix cs).isInfix).length_le
    rw [List.length_append, List.length_singleton] at hlength
    omega
  · obtain ⟨text, y, rfl⟩ : ∃ text y, rest = text ++ [y] := ⟨_, _, (List.dropLast_append_getLast hrest).symm⟩
    have hcs' : cs ++ [z] = (value ++ '/' :: m :: text) ++ [y] := by rw [hcs]; simp
    obtain ⟨rfl, hy⟩ := List.append_inj' hcs' rfl
    obtain rfl : z = y := (List.cons.inj hy).1
    have htrim : trimRight (value ++ '/' :: m :: text) = value ++ '/' :: m :: trimRight text := by
      have hlast : ∃ c ∈ ((value ++ ['/', m]) ++ trimRight text).getLast?, isBlank c = false := by
        by_cases hnil : trimRight text = []
        · exact ⟨m, by simp [hnil], hm⟩
        · exact last_append (last_trimRight hnil) _
      simpa using trimRight_append hlast
    rw [htrim]
    intro h
    rw [hcs] at h
    by_cases hnil : trimRight text = []
    · -- Nothing is left of the comment, so its mark goes to the value.
      have hvalue : trim _ = trim _ := (Prod.mk.inj h).1
      simp only [hmore _ hrest, hnil, hcut] at hvalue
      have hsolid : Solid (value ++ ['/', m]) := by
        refine .append ?_ ⟨m, rfl, hm⟩
        obtain ⟨c, value, rfl⟩ := List.exists_cons_of_ne_nil hne
        simpa using hfirst
      rw [hsolid.trim_eq] at hvalue
      have hlength := congrArg List.length hvalue
      have hle := (trim_isInfix value).length_le
      simp only [List.length_append, List.length_cons] at hlength
      omega
    · have hcomment : cleanComment _ = cleanComment _ := (Prod.mk.inj h).2
      simp only [hmore _ hrest, hmore _ hnil] at hcomment
      exact cleanComment_cut text hz hcomment

/-! ### Macro lines -/

theorem afterBlanks_append {α : Type} {read : List Char → Option α} {a : α} {gap cs : List Char}
    (hgap : ∀ c ∈ gap, isBlank c = true) (hcs : ∃ c ∈ cs.head?, isBlank c = false) (h : read cs = some a) :
    afterBlanks read (gap ++ cs) = some a := by
  induction gap with
  | nil => rw [List.nil_append, afterBlanks_of_first read hcs, h]
  | cons c gap ih =>
    obtain ⟨hc, hrest⟩ := List.forall_mem_cons.mp hgap
    rw [List.cons_append, afterBlanks, if_pos hc, ih hrest]

/-- The start of a macro line, up to its value. -/
structure MacroStart (name start : List Char) : Prop where
  word : IsWord name
  shape : ∃ gap gap', IsGap gap ∧ IsGap gap' ∧ start = "#define".toList ++ (gap ++ (name ++ gap'))

theorem MacroStart.constant? {name start cs : List Char} (h : MacroStart name start)
    (hfirst : ∃ c ∈ cs.head?, isBlank c = false) (hl : '\n' ∉ cs) : Header.constant? (start ++ cs) =
      some ⟨String.ofList name, some (String.ofList (macroSays cs).1), some (macroSays cs).2⟩ := by
  obtain ⟨gap, gap', hgap, hgap', rfl⟩ := h.shape
  have hname : ∀ c ∈ (name ++ (gap' ++ cs)).head?, isBlank c = false := by
    obtain ⟨c, name, rfl⟩ := List.exists_cons_of_ne_nil h.word.1
    rintro d ⟨⟩
    exact isBlank_of_isWord (h.word.2 c List.mem_cons_self)
  obtain ⟨b, gap', rfl⟩ := List.exists_cons_of_ne_nil hgap'.1
  obtain ⟨hb, hblanks⟩ := List.forall_mem_cons.mp hgap'.2
  have hword : word? (name ++ (b :: gap' ++ cs)) = some (name, b :: (gap' ++ cs)) := by
    refine word?_eq_some_iff.mpr ⟨h.word, ?_, rfl⟩
    rintro d ⟨⟩
    exact isWord_of_isBlank hb
  have hvalue : macroValue? cs = some (shortestValue cs) := by
    have hne : cs ≠ [] := by
      rintro rfl
      obtain ⟨c, hc, -⟩ := hfirst
      cases hc
    have hall := bne_of_not_mem hl
    simp [macroValue?, List.takeWhile_eq_self_iff.mpr hall, List.dropWhile_eq_nil_iff.mpr hall, hne]
  rw [Header.constant?, List.append_assoc, List.append_assoc, List.append_assoc, behind?_append]
  simp only [Option.bind_eq_bind, Option.bind_some, behindBlanks?_append hgap hname, hword, hb, Bool.not_true,
    Bool.false_eq_true, if_false, afterBlanks_append hblanks hfirst hvalue]
  rfl

/-- A line that defines a macro and does not end in a blank has a value. -/
theorem of_constant?_eq_some {line : List Char} {e : Entry} (hlast : ∃ c ∈ line.getLast?, isBlank c = false)
    (h : constant? line = some e) :
    ∃ name start cs, MacroStart name start ∧ (∃ c ∈ cs.head?, isBlank c = false) ∧ line = start ++ cs := by
  simp only [constant?, Option.bind_eq_bind, Option.bind_eq_some_iff, behind?_eq_some_iff] at h
  obtain ⟨r₁, rfl, r₂, h₂, ⟨name, r₃⟩, h₃, h⟩ := h
  obtain ⟨gap, hgap, rfl⟩ := of_behindBlanks?_eq_some h₂
  obtain ⟨hword, -, rfl⟩ := word?_eq_some_iff.mp h₃
  cases r₃ with
  | nil => cases h
  | cons c r₄ =>
    by_cases hc : isBlank c = true
    · have hne : trimLeft (c :: r₄) ≠ [] := by
        intro hnil
        obtain ⟨z, hz, hb⟩ := hlast
        rw [← List.append_assoc, ← List.append_assoc, List.getLast?_append_of_ne_nil _ (List.cons_ne_nil _ _)] at hz
        rw [List.dropWhile_eq_nil_iff.mp hnil z (List.mem_of_getLast? hz)] at hb
        cases hb
      refine ⟨name, "#define".toList ++ (gap ++ (name ++ (c :: r₄).takeWhile isBlank)), trimLeft (c :: r₄),
        ⟨hword, gap, _, hgap, ⟨?_, fun d hd => List.mem_takeWhile_imp hd⟩, rfl⟩, first_of_trimLeft_ne_nil hne, ?_⟩
      · rw [List.takeWhile_cons_of_pos hc]
        exact List.cons_ne_nil _ _
      · simp only [trimLeft, List.append_assoc, List.takeWhile_append_dropWhile]
    · dsimp only at h
      rw [if_pos (by simpa using hc)] at h
      cases h

/-- The start of a macro line alone defines nothing. -/
theorem MacroStart.constant?_trimRight {name start : List Char} (h : MacroStart name start) :
    Header.constant? (trimRight start) = none := by
  obtain ⟨gap, gap', hgap, hgap', rfl⟩ := h.shape
  have hsolid : Solid name := .of_forall h.word.1 fun c hc => isBlank_of_isWord (h.word.2 c hc)
  have htrim : trimRight ("#define".toList ++ (gap ++ (name ++ gap'))) = "#define".toList ++ (gap ++ name) := by
    rw [← List.append_assoc, ← List.append_assoc, trimRight_append_blanks _ hgap'.2,
      trimRight_of_last (last_append hsolid.last _), List.append_assoc]
  have hfirst : ∀ c ∈ name.head?, isBlank c = false := by
    intro c hc
    exact isBlank_of_isWord (h.word.2 c (List.mem_of_mem_head? hc))
  have hword : word? name = some (name, []) := word?_eq_some_iff.mpr ⟨h.word, by simp, (List.append_nil name).symm⟩
  rw [htrim, Header.constant?, behind?_append]
  simp only [Option.bind_eq_bind, Option.bind_some, behindBlanks?_append hgap hfirst, hword]

/-- A macro line that does not end in a blank defines another macro, or none, without its last character. -/
theorem constant?_trimRight_ne {w : List Char} {z : Char} {e : Entry} (hz : isBlank z = false) (hl : '\n' ∉ w ++ [z])
    (h : constant? (w ++ [z]) = some e) : constant? (trimRight w) ≠ some e := by
  obtain ⟨name, start, cs, hstart, hfirst, hline⟩ := of_constant?_eq_some ⟨z, by simp, hz⟩ h
  have hcs : '\n' ∉ cs := fun hm => hl (hline ▸ List.mem_append_right start hm)
  rw [hline, hstart.constant? hfirst hcs] at h
  -- The last character belongs to the value and its comment.
  obtain ⟨cs, y, rfl⟩ : ∃ text y, cs = text ++ [y] := by
    have hne : cs ≠ [] := by
      rintro rfl
      obtain ⟨c, hc, -⟩ := hfirst
      cases hc
    exact ⟨_, _, (List.dropLast_append_getLast hne).symm⟩
  rw [← List.append_assoc] at hline
  obtain ⟨rfl, hy⟩ := List.append_inj' hline rfl
  obtain rfl : z = y := (List.cons.inj hy).1
  by_cases hne : cs = []
  · rw [hne, List.append_nil, hstart.constant?_trimRight]
    rintro ⟨⟩
  · have hfirst' : ∃ c ∈ cs.head?, isBlank c = false := by
      obtain ⟨c, cs, rfl⟩ := List.exists_cons_of_ne_nil hne
      simpa using hfirst
    have hright := first_trimRight hfirst'
    have hlast : ∃ c ∈ (trimRight cs).getLast?, isBlank c = false := by
      refine last_trimRight fun hnil => ?_
      obtain ⟨c, hc, -⟩ := hright
      rw [hnil] at hc
      cases hc
    have htrim : trimRight (start ++ cs) = start ++ trimRight cs := trimRight_append (last_append hlast start)
    have hcs' : '\n' ∉ trimRight cs := fun hm =>
      hcs (List.mem_append_left _ ((trimRight_isPrefix cs).subset hm))
    rw [htrim, hstart.constant? hright hcs', ← h]
    intro heq
    have hentry := Entry.mk.inj (Option.some.inj heq)
    have hvalue : (macroSays (trimRight cs)).1 = (macroSays (cs ++ [z])).1 :=
      String.ofList_injective (Option.some.inj hentry.2.1)
    have hcomment : (macroSays (trimRight cs)).2 = (macroSays (cs ++ [z])).2 := Option.some.inj hentry.2.2
    exact macroSays_cut hfirst' hz (Prod.ext hvalue.symm hcomment.symm)

/-- More on a macro line leaves it one. -/
theorem isSome_constant?_concat {w : List Char} {z : Char} (hl : '\n' ∉ w ++ [z])
    (h : (constant? (trimRight w)).isSome) : (constant? (w ++ [z])).isSome := by
  obtain ⟨e, he⟩ := Option.isSome_iff_exists.mp h
  have hne : trimRight w ≠ [] := by
    intro hnil
    rw [hnil] at he
    cases he
  obtain ⟨name, start, cs, hstart, hfirst, hline⟩ := of_constant?_eq_some (last_trimRight hne) he
  obtain ⟨post, -, ew⟩ := exists_trimRight w
  have hw : w ++ [z] = start ++ (cs ++ (post ++ [z])) := by
    conv_lhs => rw [ew, hline]
    simp only [List.append_assoc]
  have htail : '\n' ∉ cs ++ (post ++ [z]) := fun hm => hl (hw ▸ List.mem_append_right start hm)
  rw [hw, hstart.constant? (first_append hfirst _) htail]
  rfl

/-- Without its last character a line defines the same macro, or like it none, just if it defines none or the last
character is a blank. -/
theorem constant?_cut_iff {u : List Char} (hne : u ≠ []) (hl : '\n' ∉ u) :
    constant? (trim u.dropLast) = constant? (trim u) ↔
      ((constant? (trim u)).isSome → ∃ z ∈ u.getLast?, isBlank z = true) := by
  obtain ⟨v, z, rfl⟩ : ∃ v z, u = v ++ [z] := ⟨_, _, (List.dropLast_append_getLast hne).symm⟩
  rw [List.dropLast_concat, List.getLast?_concat]
  cases hz : isBlank z with
  | true =>
    rw [trim_append_blanks v (by simpa using hz)]
    exact ⟨fun _ _ => ⟨z, rfl, hz⟩, fun _ => rfl⟩
  | false =>
    have hw : '\n' ∉ trimLeft v ++ [z] := by
      intro hm
      rcases List.mem_append.mp hm with hm | hm
      · exact hl (List.mem_append_left _ ((List.dropWhile_suffix isBlank).subset hm))
      · exact hl (List.mem_append_right _ hm)
    rw [trim_concat v hz, trim]
    constructor
    · intro heq hsome
      obtain ⟨e, he⟩ := Option.isSome_iff_exists.mp hsome
      exact absurd (heq.trans he) (constant?_trimRight_ne hz hw he)
    · intro hblank
      have hnone : constant? (trimLeft v ++ [z]) = none := by
        by_contra hsome
        obtain ⟨y, ⟨⟩, hy⟩ := hblank (Option.isSome_iff_ne_none.mpr hsome)
        rw [hz] at hy
        cases hy
      rw [hnone]
      by_contra hsome
      have hmore := isSome_constant?_concat hw (Option.isSome_iff_ne_none.mpr hsome)
      rw [hnone] at hmore
      cases hmore

end CodeBridge.Header
