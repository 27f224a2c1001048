import CodeBridge.Proofs.CutLines
import CodeBridge.Proofs.GoingRound
import CodeBridge.Proofs.HeaderContents

/-! # The rows of an enumeration

An enumeration is written in rows: members, each with or without a value, a comma and a comment, and between them
blank lines and comments. Read back, the members have the values that they are given, and one more than the member
before where none is given (`readEnumeration_rows`). -/

namespace CodeBridge.Header

open Text

/-! ### What rows are made of -/

/-- Blanks within a line. -/
structure Gap where
  chars : List Char
  blank : ∀ c ∈ chars, c = ' ' ∨ c = '\t'

theorem Gap.isBlank (g : Gap) : ∀ c ∈ g.chars, Text.isBlank c = true := by
  intro c hc
  rcases g.blank c hc with rfl | rfl
  · rfl
  · rfl

/-- No word goes on behind a gap, or where there is none before a mark. -/
theorem Gap.parted (g : Gap) {d : Char} (hd : isWord d = false) (rest : List Char) :
    ∀ c ∈ (g.chars ++ d :: rest).head?, isWord c = false := by
  intro c hc
  rw [List.head?_append, Option.mem_def, Option.or_eq_some_iff] at hc
  rcases hc with hc | ⟨-, hc⟩
  · exact isWord_of_isBlank (g.isBlank c (List.mem_of_mem_head? hc))
  · cases hc
    exact hd

theorem Gap.bodyLine (g : Gap) : BodyLine g.chars where
  line hm := by rcases g.blank _ hm with h | h <;> cases h
  carriage hm := by rcases g.blank _ hm with h | h <;> cases h
  brace hm := by rcases g.blank _ hm with h | h <;> cases h

structure Word where
  chars : List Char
  isWord : IsWord chars

theorem Word.solid (w : Word) : Solid w.chars :=
  .of_forall w.isWord.1 fun c hc => isBlank_of_isWord (w.isWord.2 c hc)

theorem Word.bodyLine (w : Word) : BodyLine w.chars :=
  .of_forall w.isWord.2 rfl rfl rfl

/-- The text of a comment: printable, and without the marks of comments. -/
structure Printed (said : List Char) : Prop where
  printable : ∀ c ∈ said, ' ' ≤ c ∧ c ≤ '~'
  uncommented : Uncommented said
  unclosed : ¬['*', '/'] <:+: said

/-- A comment in a line. One that goes to the end of the line says something. -/
structure Note where
  block : Bool
  said : List Char
  printed : Printed said
  spoken : block = false → ∃ c ∈ said, c ≠ ' '
  brace : '\x7d' ∉ said

def Note.text (n : Note) : List Char :=
  if n.block then "/* ".toList ++ (n.said ++ " */".toList) else "// ".toList ++ n.said

/-- What the comment of a line says, if there is one. -/
def saying : Option Note → String
  | none => ""
  | some n => String.ofList (trim n.said)

/-! ### Comments -/

theorem Printed.not_mem {said : List Char} (h : Printed said) {c : Char} (hc : ¬(' ' ≤ c ∧ c ≤ '~')) : c ∉ said :=
  fun hm => hc (h.printable c hm)

theorem Printed.isBlank_eq_false {said : List Char} (h : Printed said) {c : Char} (hc : c ∈ said) (hne : c ≠ ' ') :
    isBlank c = false := by
  obtain ⟨hlow, hhigh⟩ := h.printable c hc
  have hlow' : 32 ≤ c.toNat := UInt32.le_iff_toNat_le.mp hlow
  have hhigh' : c.toNat ≤ 126 := UInt32.le_iff_toNat_le.mp hhigh
  by_contra hblank
  have hcode := mem_blankCodes (eq_true_of_ne_false hblank)
  simp only [blankCodes, List.mem_cons, List.not_mem_nil, or_false] at hcode
  have hspace : c.toNat = 32 := by omega
  exact hne (Char.toNat_inj.mp hspace)

/-- A comment without the blanks at its end says the same. -/
theorem Printed.trim_dropMarks {said : List Char} (h : Printed said) {inside : List Char} (hinside : inside <+: said ++ [' '])
    (htrim : trim inside = trim said) : trim (dropMarks (' ' :: inside)) = trim said := by
  have hinfix : ' ' :: inside <:+: ' ' :: (said ++ [' ']) := (List.cons_prefix_cons.mpr ⟨rfl, hinside⟩).isInfix
  have huncommented : Uncommented (' ' :: inside) := (h.uncommented.between (by decide) (by decide)).of_isInfix hinfix
  rw [dropMarks_of_uncommented huncommented fun hm => h.unclosed (pair_infix_of_between (by decide) (by decide) (hm.trans hinfix))]
  have hspace : trim ([' '] ++ inside) = trim inside := trim_blanks_append (by decide) inside
  exact hspace.trans htrim

/-- What can be seen of a comment at the end of a line, and what stands inside its marks. -/
structure Note.Visible (n : Note) (core inside : List Char) : Prop where
  text : ∃ post, (∀ c ∈ post, isBlank c = true) ∧ n.text = core ++ post
  first : core.head? = some '/'
  last : ∃ c ∈ core.getLast?, isBlank c = false
  remark : remark? core = some inside
  clean : cleanComment (some inside) = String.ofList (trim n.said)

theorem Note.visible_block {n : Note} (h : n.block = true) : ∃ inside, n.Visible n.text inside := by
  have htext : n.text = '/' :: '*' :: (' ' :: (n.said ++ [' ']) ++ ['*', '/']) := by simp [Note.text, h]
  have hne : ' ' :: (n.said ++ [' ']) ++ ['*', '/'] ≠ [] := List.cons_ne_nil _ _
  have hremark := remark?_of_mark (.inr rfl) hne
  rw [← htext] at hremark
  refine ⟨_, ⟨[], by simp, (List.append_nil _).symm⟩, by rw [htext]; rfl, ?_, hremark, ?_⟩
  · rw [htext]
    exact last_append ⟨'/', rfl, rfl⟩ ('/' :: '*' :: ' ' :: (n.said ++ [' ']))
  · have htrim : trim (n.said ++ [' ']) = trim n.said := trim_append_blanks _ (by decide)
    rw [Header.cleanComment, dropMarks_dropClosing, dropMarks_append_closing,
      n.printed.trim_dropMarks (List.prefix_refl _) htrim]

theorem Note.visible_line {n : Note} (h : n.block = false) : ∃ core inside, n.Visible core inside := by
  obtain ⟨post, hpost, hsaid⟩ := exists_trimRight n.said
  have htext : n.text = '/' :: '/' :: ' ' :: trimRight n.said ++ post := by
    conv_lhs => rw [Note.text, h, hsaid]
    rfl
  have hne : trimRight n.said ≠ [] := by
    intro hnil
    obtain ⟨c, hc, hspace⟩ := n.spoken h
    have hblank := n.printed.isBlank_eq_false hc hspace
    rw [hsaid, hnil, List.nil_append] at hc
    rw [hpost c hc] at hblank
    cases hblank
  have htrim : trim (trimRight n.said) = trim n.said := by
    conv_rhs => rw [hsaid]
    exact (trim_append_blanks _ hpost).symm
  have hremark := remark?_of_mark (.inl rfl) (List.cons_ne_nil ' ' (trimRight n.said))
  refine ⟨'/' :: '/' :: ' ' :: trimRight n.said, _, ⟨post, hpost, htext⟩, rfl, ?_, hremark, ?_⟩
  · exact last_append (last_trimRight hne) ['/', '/', ' ']
  · rw [Header.cleanComment, dropMarks_dropClosing,
      n.printed.trim_dropMarks ((trimRight_isPrefix _).trans (List.prefix_append _ _)) htrim]

theorem Note.exists_visible (n : Note) : ∃ core inside, n.Visible core inside ∧ (n.block = true → core = n.text) := by
  cases h : n.block with
  | false =>
    obtain ⟨core, inside, hvisible⟩ := n.visible_line h
    exact ⟨core, inside, hvisible, fun hblock => by cases hblock⟩
  | true =>
    obtain ⟨inside, hvisible⟩ := n.visible_block h
    exact ⟨n.text, inside, hvisible, fun _ => rfl⟩

theorem Printed.bodyLine {said : List Char} (h : Printed said) (hbrace : '\x7d' ∉ said) : BodyLine said :=
  ⟨h.not_mem (by decide), h.not_mem (by decide), hbrace⟩

theorem Note.bodyLine (n : Note) : BodyLine n.text := by
  have hsaid := n.printed.bodyLine n.brace
  unfold Note.text
  split
  · exact .append (by decide) (hsaid.append (by decide))
  · exact .append (by decide) hsaid

/-! ### Members -/

/-- The value of a member with its sign of equality and the blanks around it. -/
structure Assigned where
  before : Gap
  after : Gap
  numeral : Initializer.Numeral

def Assigned.text (a : Assigned) : List Char :=
  a.before.chars ++ '=' :: (a.after.chars ++ a.numeral.text)

/-- A line of an enumeration with a member, up to its comment. -/
structure Member where
  indent : Gap
  name : Word
  assigned : Option Assigned
  /-- The blanks before the comma, if there is one. -/
  comma : Option Gap
  trailing : Gap

namespace Member

def separator (m : Member) : List Char :=
  m.comma.elim [] fun g => g.chars ++ [',']

/-- The member without the blanks around it. -/
def core (m : Member) : List Char :=
  m.name.chars ++ (m.assigned.elim [] Assigned.text ++ m.separator)

def text (m : Member) : List Char :=
  m.indent.chars ++ (m.core ++ m.trailing.chars)

/-- The value of a member, if the one before has been counted up to `next`. -/
def value (m : Member) (next : Int) : Int :=
  m.assigned.elim next (·.numeral.value)

end Member

/-- Both ends of a written number can be seen, and it is of one line and without a comma. -/
theorem isNumeral_numeral (k : Initializer.Numeral) : k.text ≠ [] ∧ ∀ c ∈ k.text, isNumeral c = true := by
  have hdigits : ∀ c ∈ Nat.toDigits 10 k.magnitude, isNumeral c = true :=
    fun c hc => isNumeral_of_isDigit (Decimal.isDigit_of_mem_toDigits hc)
  unfold Initializer.Numeral.text
  split
  · exact ⟨List.cons_ne_nil _ _, List.forall_mem_cons.mpr ⟨rfl, hdigits⟩⟩
  · exact ⟨Nat.toDigits_ne_nil, hdigits⟩

theorem solid_numeral (k : Initializer.Numeral) : Solid k.text :=
  .of_forall (isNumeral_numeral k).1 fun c hc => isBlank_of_isNumeral ((isNumeral_numeral k).2 c hc)

theorem Assigned.bodyLine (a : Assigned) : BodyLine a.text := by
  have hnumeral : BodyLine a.numeral.text := .of_forall (isNumeral_numeral a.numeral).2 rfl rfl rfl
  exact a.before.bodyLine.append (.append (a := ['=']) (by decide) (a.after.bodyLine.append hnumeral))

namespace Member

theorem separator_bodyLine (m : Member) : BodyLine m.separator := by
  unfold separator
  cases m.comma with
  | none => exact (by decide : BodyLine [])
  | some g => exact g.bodyLine.append (by decide)

theorem text_bodyLine (m : Member) : BodyLine m.text := by
  have hassigned : BodyLine (m.assigned.elim [] Assigned.text) := by
    cases m.assigned with
    | none => exact (by decide : BodyLine [])
    | some a => exact a.bodyLine
  exact m.indent.bodyLine.append
    ((m.name.bodyLine.append (hassigned.append m.separator_bodyLine)).append m.trailing.bodyLine)

theorem core_solid (m : Member) : Solid m.core := by
  refine ⟨first_append m.name.solid.first _, ?_⟩
  unfold core separator
  cases m.comma with
  | some g => exact last_append (last_append (last_append ⟨',', rfl, rfl⟩ _) _) _
  | none =>
    cases m.assigned with
    | none => simpa using m.name.solid.last
    | some a =>
      rw [Option.elim_none, List.append_nil]
      exact last_append (last_append (last_append (solid_numeral a.numeral).last ('=' :: a.after.chars)) a.before.chars) _

theorem trim_text (m : Member) : trim m.text = m.core :=
  m.core_solid.trim_between m.indent.isBlank m.trailing.isBlank

/-- A comment behind the member is trimmed at its end only. -/
theorem trim_text_append (m : Member) {cs post : List Char} (hlast : ∃ c ∈ cs.getLast?, isBlank c = false)
    (hpost : ∀ c ∈ post, isBlank c = true) : trim (m.text ++ (cs ++ post)) = m.core ++ (m.trailing.chars ++ cs) := by
  have hsolid : Solid (m.core ++ (m.trailing.chars ++ cs)) := .append m.core_solid.first (last_append hlast _)
  rw [← hsolid.trim_between m.indent.isBlank hpost]
  simp only [text, List.append_assoc]

end Member

/-! ### Reading members -/

theorem memberTail?_blanks_append {gap : List Char} (h : ∀ c ∈ gap, isBlank c = true) (cs : List Char) :
    memberTail? (gap ++ cs) = memberTail? cs := by
  simp only [memberTail?, trimLeft_blanks_append h]

/-- What stands behind a member and its comma on a trimmed line, and the comment in it. -/
structure Tail (tail : List Char) (comment : Option (List Char)) : Prop where
  read : memberTail? tail = some comment
  plain : ∀ c ∈ (trimLeft tail).head?, c ≠ ',' ∧ c ≠ '='
  parted : ∀ c ∈ tail.head?, isWord c = false

theorem Tail.nil : Tail [] none :=
  ⟨rfl, by rintro c ⟨⟩, by rintro c ⟨⟩⟩

theorem Note.Visible.tail {n : Note} {core inside : List Char} (h : n.Visible core inside) (g : Gap) :
    Tail (g.chars ++ core) (some inside) := by
  obtain ⟨rest, rfl⟩ : ∃ rest, core = '/' :: rest := List.head?_eq_some_iff.mp h.first
  have htrim : trimLeft (g.chars ++ '/' :: rest) = '/' :: rest := by
    rw [trimLeft_blanks_append g.isBlank]
    rfl
  refine ⟨?_, ?_, g.parted rfl rest⟩
  · rw [memberTail?_blanks_append g.isBlank]
    exact congrArg (Option.map some) h.remark
  · rw [htrim]
    rintro c ⟨⟩
    exact ⟨by decide, by decide⟩

/-- A comma before the rest of the line changes nothing. -/
theorem Tail.comma {tail : List Char} {comment : Option (List Char)} (h : Tail tail comment) :
    memberTail? (',' :: tail) = some comment := by
  have hread := h.read
  have hplain := h.plain
  have hcomma : trimLeft (',' :: tail) = ',' :: tail := rfl
  simp only [memberTail?, hcomma] at hread ⊢
  generalize trimLeft tail = rest at hread hplain ⊢
  cases rest with
  | nil => exact hread
  | cons c rest => simpa [(hplain c rfl).1] using hread

section
variable {m : Member} {tail : List Char} {comment : Option (List Char)}

theorem Word.word?_append (w : Word) {rest : List Char} (h : ∀ c ∈ rest.head?, Text.isWord c = false) :
    word? (w.chars ++ rest) = some (w.chars, rest) :=
  word?_eq_some_iff.mpr ⟨w.isWord, h, rfl⟩

theorem memberLine?_unassigned (hm : m.assigned = none) (h : Tail tail comment) :
    memberLine? (m.core ++ tail) = some ⟨String.ofList m.name.chars, none, comment⟩ := by
  have hline : m.core ++ tail = m.name.chars ++ (m.separator ++ tail) := by
    simp only [Member.core, hm, Option.elim_none, List.nil_append, List.append_assoc]
  have hrest : (∀ c ∈ (m.separator ++ tail).head?, isWord c = false) ∧
      (∀ c ∈ (trimLeft (m.separator ++ tail)).head?, c ≠ '=') ∧ memberTail? (m.separator ++ tail) = some comment := by
    unfold Member.separator
    cases m.comma with
    | none => exact ⟨h.parted, fun c hc => (h.plain c hc).2, h.read⟩
    | some g =>
      have hassoc : g.chars ++ [','] ++ tail = g.chars ++ ',' :: tail := by simp
      rw [Option.elim_some, hassoc, memberTail?_blanks_append g.isBlank, trimLeft_blanks_append g.isBlank]
      refine ⟨g.parted rfl tail, ?_, h.comma⟩
      rintro c ⟨⟩
      decide
  obtain ⟨hparted, hplain, hread⟩ := hrest
  rw [hline, memberLine?, m.name.word?_append hparted]
  simp only [Option.bind_eq_bind, Option.bind_some, hread]
  generalize trimLeft (m.separator ++ tail) = behind at hplain ⊢
  cases behind with
  | nil => rfl
  | cons c behind => simp [hplain c rfl]

/-- A member with a value is read with the longest value behind which the line can end. -/
theorem memberLine?_assigned {a : Assigned} {rest value : List Char}
    (h : longestValue (a.numeral.text ++ rest) = some (value, comment)) (w : Word) :
    memberLine? (w.chars ++ (a.text ++ rest)) = some ⟨String.ofList w.chars, some (String.ofList value), comment⟩ := by
  have hassoc : a.text ++ rest = a.before.chars ++ '=' :: (a.after.chars ++ (a.numeral.text ++ rest)) := by
    simp only [Assigned.text, List.append_assoc, List.cons_append]
  have hvalue := afterBlanks_append a.after.isBlank (first_append (solid_numeral a.numeral).first rest) h
  have hequals : trimLeft (a.before.chars ++ '=' :: (a.after.chars ++ (a.numeral.text ++ rest))) =
      '=' :: (a.after.chars ++ (a.numeral.text ++ rest)) := by
    rw [trimLeft_blanks_append a.before.isBlank]
    rfl
  rw [hassoc, memberLine?, w.word?_append (a.before.parted rfl _)]
  simp only [Option.bind_eq_bind, Option.bind_some, hequals, hvalue]

theorem comma_not_mem_numeral (k : Initializer.Numeral) (g : Gap) : ',' ∉ k.text ++ g.chars := by
  intro hm
  rcases List.mem_append.mp hm with hm | hm
  · exact not_mem_of_forall (isNumeral_numeral k).2 rfl hm
  · rcases g.blank _ hm with h | h
    · cases h
    · cases h

/-- A value ends before the comma, and takes the blanks before it along. -/
theorem longestValue_comma (k : Initializer.Numeral) (g : Gap) (h : Tail tail comment) :
    longestValue (k.text ++ (g.chars ++ ',' :: tail)) = some (k.text ++ g.chars, comment) := by
  rw [← List.append_assoc]
  exact longestValue_append (List.append_ne_nil_of_left_ne_nil (isNumeral_numeral k).1 _) (comma_not_mem_numeral k g) rfl h.comma

theorem longestValue_numeral (k : Initializer.Numeral) : longestValue k.text = some (k.text, none) := by
  have hcomma : ',' ∉ k.text := fun hm => comma_not_mem_numeral k ⟨[], by simp⟩ (List.mem_append_left _ hm)
  have hvalue := longestValue_append (isNumeral_numeral k).1 hcomma rfl (show memberTail? [] = some none from rfl)
  rwa [List.append_nil] at hvalue

end

/-! ### Commas in comments -/

theorem trimLeft_concat (cs : List Char) {z : Char} (hz : isBlank z = false) : trimLeft (cs ++ [z]) = trimLeft cs ++ [z] := by
  rw [trimLeft, trimLeft, List.dropWhile_append]
  split
  · next hempty =>
    rw [List.isEmpty_iff.mp hempty, List.dropWhile_cons_of_neg (by simp [hz])]
    rfl
  · rfl

/-- No member ends before a text that ends like a comment and in which none opens. -/
theorem memberTail?_eq_none {cs : List Char} (h : Uncommented (cs ++ ['/'])) : memberTail? (cs ++ ['/']) = none := by
  have hnone : ∀ {r : List Char}, r <:+ cs → remark? (r ++ ['/']) = none := by
    rintro r ⟨a, rfl⟩
    exact (h.of_isInfix ⟨a, [], by simp⟩).remark?
  have hsuffix : trimLeft cs <:+ cs := List.dropWhile_suffix isBlank
  simp only [memberTail?, trimLeft_concat cs (show isBlank '/' = false from rfl)]
  generalize trimLeft cs = rest at hsuffix ⊢
  cases rest with
  | nil => rfl
  | cons d rest =>
    by_cases hd : d = ','
    · subst hd
      have hrest : trimLeft rest <:+ cs := ((List.dropWhile_suffix isBlank).trans (List.suffix_cons _ _)).trans hsuffix
      simp only [List.cons_append, trimLeft_concat rest (show isBlank '/' = false from rfl)]
      have hremark := hnone hrest
      generalize trimLeft rest = behind at hremark ⊢
      cases behind with
      | nil => rfl
      | cons b behind => simpa using hremark
    · simpa [hd] using hnone hsuffix

/-- A comma inside a comment parts it from the value before it: what is left of it does not end a member. -/
theorem longestValue_eq_none {c : Char} {cs : List Char} (h : Uncommented (cs ++ ['/'])) (hcomma : ',' ∈ c :: cs) :
    longestValue (c :: (cs ++ ['/'])) = none := by
  induction cs generalizing c with
  | nil =>
    obtain rfl := List.mem_singleton.mp hcomma
    rfl
  | cons d cs ih =>
    by_cases hc : c = ','
    · subst hc
      rfl
    have hrest := ih (h.of_isInfix (List.suffix_cons d _).isInfix) ((List.mem_cons.mp hcomma).resolve_left (Ne.symm hc))
    rw [longestValue, if_neg (by simpa using hc), List.cons_append, hrest, ← List.cons_append, memberTail?_eq_none h]
    rfl

theorem pair_infix_append {x y : Char} {a b : List Char} (h : [x, y] <:+: a ++ b) :
    [x, y] <:+: a ∨ [x, y] <:+: b ∨ a.getLast? = some x := by
  induction a with
  | nil => exact .inr (.inl h)
  | cons c a ih =>
    rcases List.infix_cons_iff.mp h with hstart | hrest
    · obtain ⟨rfl, hsecond⟩ := List.cons_prefix_cons.mp hstart
      cases a with
      | nil => exact .inr (.inr rfl)
      | cons d a =>
        obtain ⟨rfl, -⟩ := List.cons_prefix_cons.mp hsecond
        exact .inl (List.prefix_append [x, y] a).isInfix
    · rcases ih hrest with ha | hb | hlast
      · exact .inl (ha.trans (List.suffix_cons c a).isInfix)
      · exact .inr (.inl hb)
      · refine .inr (.inr ?_)
        rw [List.getLast?_cons_of_ne_nil (List.ne_nil_of_mem (List.mem_of_getLast? hlast)), hlast]

theorem Uncommented.append {a b : List Char} (ha : Uncommented a) (hb : Uncommented b) (hlast : a.getLast? ≠ some '/') :
    Uncommented (a ++ b) := by
  constructor
  · intro hm
    rcases pair_infix_append hm with h | h | h
    · exact ha.line h
    · exact hb.line h
    · exact hlast h
  · intro hm
    rcases pair_infix_append hm with h | h | h
    · exact ha.block h
    · exact hb.block h
    · exact hlast h

/-- A comma in a comment keeps the value before it from running into the comment. -/
theorem longestValue_note {n : Note} (hblock : n.block = true) (hcomma : ',' ∈ n.said) : longestValue n.text = none := by
  have htext : n.text = '/' :: ('*' :: ' ' :: (n.said ++ [' ', '*']) ++ ['/']) := by simp [Note.text, hblock]
  have huncommented : Uncommented ((' ' :: (n.said ++ [' '])) ++ ['*', '/']) :=
    .append (n.printed.uncommented.between (by decide) (by decide)) ⟨by decide, by decide⟩
      (by rw [← List.cons_append, List.getLast?_concat]; decide)
  have hstar : Uncommented (['*'] ++ ((' ' :: (n.said ++ [' '])) ++ ['*', '/'])) :=
    .append ⟨by decide, by decide⟩ huncommented (by simp)
  rw [htext]
  refine longestValue_eq_none ?_ (by simp [hcomma])
  simpa using hstar

/-! ### Counting -/

/-- A comment can stand behind the member without changing its value: if it has one, then a comma parts them, or at
least one that stands in the comment. -/
def Member.Admits (m : Member) (n : Note) : Prop :=
  m.assigned.isSome → m.comma.isSome ∨ (n.block = true ∧ ',' ∈ n.said)

/-- The line of a member with its comment. -/
def Member.line (m : Member) (note : Option Note) : List Char :=
  m.text ++ note.elim [] Note.text

/-- The trimmed line of a member is the member and what is behind it, and a value that it is given is read with at
most blanks behind it. -/
theorem Member.exists_tail (m : Member) {note : Option Note} (h : ∀ n ∈ note, m.Admits n) :
    ∃ tail comment, trim (m.line note) = m.core ++ tail ∧ Tail tail comment ∧ cleanComment comment = saying note ∧
      ∀ a, m.assigned = some a →
        ∃ g : Gap, longestValue (a.numeral.text ++ (m.separator ++ tail)) = some (a.numeral.text ++ g.chars, comment) := by
  have hcomma : ∀ {g : Gap} {tail : List Char}, m.comma = some g → m.separator ++ tail = g.chars ++ ',' :: tail := by
    intro g tail hg
    simp [Member.separator, hg]
  have hnone : ∀ {tail : List Char}, m.comma = none → m.separator ++ tail = tail := by
    intro tail hg
    simp [Member.separator, hg]
  cases note with
  | none =>
    refine ⟨[], none, ?_, .nil, rfl, fun a _ => ?_⟩
    · rw [Member.line, Option.elim_none, List.append_nil, List.append_nil, m.trim_text]
    · cases hg : m.comma with
      | none =>
        refine ⟨⟨[], by simp⟩, ?_⟩
        rw [hnone hg, List.append_nil]
        exact longestValue_numeral a.numeral
      | some g =>
        refine ⟨g, ?_⟩
        rw [hcomma hg]
        exact longestValue_comma a.numeral g .nil
  | some n =>
    obtain ⟨core, inside, hvisible, hwhole⟩ := n.exists_visible
    obtain ⟨post, hpost, htext⟩ := hvisible.text
    refine ⟨m.trailing.chars ++ core, some inside, ?_, hvisible.tail m.trailing, hvisible.clean, fun a ha => ?_⟩
    · rw [Member.line, Option.elim_some, htext]
      exact m.trim_text_append hvisible.last hpost
    · cases hg : m.comma with
      | some g =>
        refine ⟨g, ?_⟩
        rw [hcomma hg]
        exact longestValue_comma a.numeral g (hvisible.tail m.trailing)
      | none =>
        -- The value is parted from the comment by nothing but a comma inside it.
        obtain hsome | ⟨hblock, hsaid⟩ := h n rfl (by rw [ha]; rfl)
        · rw [hg] at hsome
          cases hsome
        have hread := (hvisible.tail ⟨[], by simp⟩).read
        rw [List.nil_append, hwhole hblock] at hread
        refine ⟨m.trailing, ?_⟩
        rw [hnone hg, hwhole hblock, ← List.append_assoc]
        exact longestValue_append (List.append_ne_nil_of_left_ne_nil (isNumeral_numeral a.numeral).1 _)
          (comma_not_mem_numeral a.numeral m.trailing) (longestValue_note hblock hsaid) hread

/-- A member is read with its name, the value it has or is counted up to, and what its comment says. -/
theorem countMember_line {m : Member} {note : Option Note} (h : ∀ n ∈ note, m.Admits n) {s : Counting}
    (hn : Decimal.tooLong (m.value s.next) = false) :
    countMember Initializer.evaluate s (trim (m.line note)) = .ok ⟨s.members ++
      [⟨String.ofList m.name.chars, some (Decimal.intText (m.value s.next)), some (saying note)⟩], m.value s.next + 1⟩ := by
  obtain ⟨tail, comment, hline, htail, hclean, hparts⟩ := m.exists_tail h
  rw [hline, ← hclean]
  cases ha : m.assigned with
  | none =>
    have hvalue : m.value s.next = s.next := by rw [Member.value, ha]; rfl
    rw [hvalue] at hn ⊢
    exact countMember_of_line (memberLine?_unassigned ha htail) (counted_eq hn)
  | some a =>
    have hvalue : m.value s.next = a.numeral.value := by rw [Member.value, ha]; rfl
    rw [hvalue] at hn ⊢
    obtain ⟨g, hlongest⟩ := hparts a ha
    have hcore : m.core ++ tail = m.name.chars ++ (a.text ++ (m.separator ++ tail)) := by
      simp only [Member.core, ha, Option.elim_some, List.append_assoc]
    rw [hcore]
    exact countMember_of_line (memberLine?_assigned hlongest m.name) (evaluate_of_value (Initializer.value_numeral hn g.blank) hn)

/-! ### Rows -/

/-- A line that is a comment and nothing else. Behind its mark it says anything that ends neither the line nor the
body, with blanks or without. -/
structure Remark where
  indent : Gap
  block : Bool
  said : List Char
  trailing : Gap
  line : '\n' ∉ said
  brace : '\x7d' ∉ said

def Remark.text (r : Remark) : List Char :=
  r.indent.chars ++ if r.block then "/*".toList ++ (r.said ++ ("*/".toList ++ r.trailing.chars)) else "//".toList ++ r.said

/-- A row of an enumeration. -/
inductive Row where
  | blank (gap : Gap)
  | comment (r : Remark)
  | member (m : Member) (note : Option Note) (admits : ∀ n ∈ note, m.Admits n)

def Row.text : Row → List Char
  | blank gap => gap.chars
  | comment r => r.text
  | member m note _ => m.line note

/-- A member with its comment and the value that it stands for. -/
structure Ordinal where
  member : Member
  note : Option Note
  value : Int

def Ordinal.entry (o : Ordinal) : Entry :=
  ⟨String.ofList o.member.name.chars, some (Decimal.intText o.value), some (saying o.note)⟩

/-- The members of an enumeration with their values: a member has the value that it is given, and otherwise one more
than the member before. -/
def ordinals (next : Int) : List Row → List Ordinal
  | [] => []
  | .member m note _ :: rows => ⟨m, note, m.value next⟩ :: ordinals (m.value next + 1) rows
  | .blank _ :: rows => ordinals next rows
  | .comment _ :: rows => ordinals next rows

theorem Member.line_bodyLine (m : Member) (note : Option Note) : BodyLine (m.line note) := by
  cases note with
  | none => exact m.text_bodyLine.append (by decide)
  | some n => exact m.text_bodyLine.append n.bodyLine

theorem Remark.openLine (r : Remark) : '\n' ∉ r.text ∧ '\x7d' ∉ r.text := by
  have hindent := r.indent.bodyLine
  have htrailing := r.trailing.bodyLine
  unfold Remark.text
  split <;> simp [hindent.line, hindent.brace, htrailing.line, htrailing.brace, r.line, r.brace]

/-- No row ends its line or the body. -/
theorem Row.openLine (r : Row) : '\n' ∉ r.text ∧ '\x7d' ∉ r.text := by
  cases r with
  | blank gap => exact ⟨gap.bodyLine.line, gap.bodyLine.brace⟩
  | comment r => exact r.openLine
  | member m note admits => exact ⟨(m.line_bodyLine note).line, (m.line_bodyLine note).brace⟩

theorem memberLine?_of_not_word {c : Char} (h : isWord c = false) (cs : List Char) : memberLine? (c :: cs) = none := by
  simp [memberLine?, word?, h]

section
variable (value : String → Except Fault (String × Int)) (s : Counting)

theorem countMember_blank (gap : Gap) : countMember value s (trim gap.chars) = .ok s := by
  have htrim : trim gap.chars = [] := by
    have h := trim_blanks_append gap.isBlank []
    rwa [List.append_nil] at h
  rw [htrim]
  rfl

/-- A line that starts with the mark of a comment is no member, whatever follows. -/
theorem countMember_remark (r : Remark) : countMember value s (trim r.text) = .ok s := by
  obtain ⟨rest, hrest⟩ : ∃ rest, r.text = r.indent.chars ++ (['/'] ++ rest) := by
    unfold Remark.text
    split
    · exact ⟨'*' :: (r.said ++ ("*/".toList ++ r.trailing.chars)), rfl⟩
    · exact ⟨'/' :: r.said, rfl⟩
  have hsolid : Solid ['/'] := ⟨⟨'/', rfl, rfl⟩, ⟨'/', rfl, rfl⟩⟩
  obtain ⟨tail, htail⟩ := hsolid.trim_append rest
  rw [hrest, trim_blanks_append r.indent.isBlank, htail, countMember, List.singleton_append, memberLine?_of_not_word rfl]

end

/-- The rows of a body are counted one after the other. -/
theorem foldlM_countMember {rows : List Row} {next : Int} (h : ∀ o ∈ ordinals next rows, Decimal.tooLong o.value = false)
    (members : List Entry) : ∃ last, (rows.map Row.text).foldlM (fun s l => countMember Initializer.evaluate s (trim l))
      ⟨members, next⟩ =
      .ok ⟨members ++ (ordinals next rows).map Ordinal.entry, last⟩ := by
  induction rows generalizing next members with
  | nil => exact ⟨next, by simp [ordinals, pure, Except.pure]⟩
  | cons r rows ih =>
    rw [List.map_cons, List.foldlM_cons]
    cases r with
    | blank gap =>
      rw [Row.text, countMember_blank]
      exact ih h members
    | comment r =>
      rw [Row.text, countMember_remark]
      exact ih h members
    | member m note admits =>
      obtain ⟨hhere, hrest⟩ := List.forall_mem_cons.mp h
      have hcount := countMember_line (s := ⟨members, next⟩) admits hhere
      obtain ⟨last, hlast⟩ := ih hrest (members ++ [Ordinal.entry ⟨m, note, m.value next⟩])
      refine ⟨last, ?_⟩
      rw [List.append_assoc, List.singleton_append] at hlast
      rw [Row.text, hcount, ordinals, List.map_cons]
      exact hlast

/-! ### Bodies -/

/-- The line on which a body opens, behind its keyword. -/
structure Heading where
  gap : List Char
  name : Word
  behind : List Char
  gap_isGap : IsGap gap
  behind_blank : ∀ c ∈ behind, isBlank c = true

/-- A definition with a body: what opens it, its lines, and what closes it. -/
def bodyText (keyword : List Char) (h : Heading) (lines : List (List Char)) (close : List Char) : List Char :=
  keyword ++ (h.gap ++ (h.name.chars ++ (h.behind ++ '\x7b' :: (unlines ([] :: lines) ++ close))))

section
variable {σ : Type} {keyword : List Char} (f : σ → List Char → Except Fault σ) {start : σ} (hblank : f start [] = .ok start)
  (members : σ → List Entry) (h : Heading) {lines : List (List Char)} (hlines : ∀ l ∈ lines, '\n' ∉ l ∧ '\x7d' ∉ l)
  {close : List Char} (hclose : Closes close) (whole : List Char)
include hblank hlines hclose

/-- A definition is read with what its lines come to, up to the line that closes it. -/
theorem readGroup_bodyText : readGroup keyword (onLine f) start members whole (bodyText keyword h lines close) =
    some ((lines.foldlM (fun s l => f s (trim l)) start).map fun s =>
      some (⟨String.ofList h.name.chars, members s, none⟩, close)) := by
  have hopen : opening? keyword (bodyText keyword h lines close) =
      some (String.ofList h.name.chars, unlines ([] :: lines) ++ close) :=
    opening?_eq_some_iff.mpr ⟨h.gap, h.name.chars, h.behind, h.gap_isGap, h.name.isWord, h.behind_blank, rfl, rfl⟩
  have hplain : ∀ l ∈ [] :: lines, '\n' ∉ l ∧ '\x7d' ∉ l := List.forall_mem_cons.mpr ⟨by simp, hlines⟩
  have hfirst : ([] :: lines).foldlM (fun s l => f s (trim l)) start = lines.foldlM (fun s l => f s (trim l)) start := by
    rw [List.foldlM_cons, show trim [] = [] from rfl, hblank]
    rfl
  have hscan : scanBody (onLine f) start (unlines ([] :: lines) ++ close) =
      (do scanBody (onLine f) (← lines.foldlM (fun s l => f s (trim l)) start) close) := by
    rw [scanBody_lines hplain, hfirst]
  cases hfold : lines.foldlM (fun s l => f s (trim l)) start with
  | error fault =>
    rw [hfold] at hscan
    simp only [readGroup, hopen, readBody_of_fault hscan]
    rfl
  | ok s =>
    rw [hfold] at hscan
    rw [readGroup_of_opening hopen (readBody_of_scan (hscan.trans (hclose.scanBody _ s)) whole) members]
    rfl

theorem readGroup_of_foldlM {s : σ} (hfold : lines.foldlM (fun s l => f s (trim l)) start = .ok s) :
    readGroup keyword (onLine f) start members whole (bodyText keyword h lines close) =
      some (.ok (some (⟨String.ofList h.name.chars, members s, none⟩, close))) := by
  rw [readGroup_bodyText f hblank members h hlines hclose whole, hfold]
  rfl

end

theorem openLines_of_bodyLine {ls : List (List Char)} (h : ∀ l ∈ ls, BodyLine l) : ∀ l ∈ ls, '\n' ∉ l ∧ '\x7d' ∉ l :=
  fun l hl => ⟨(h l hl).line, (h l hl).brace⟩

theorem bodyLine_map {α : Type} {text : α → List Char} (h : ∀ x, BodyLine (text x)) (xs : List α) : ∀ l ∈ xs.map text, BodyLine l := by
  intro l hl
  obtain ⟨x, -, rfl⟩ := List.mem_map.mp hl
  exact h x

theorem readEnumeration_bodyText (h : Heading) {rows : List Row} (hlong : ∀ o ∈ ordinals 0 rows, Decimal.tooLong o.value = false)
    {close : List Char} (hclose : Closes close) (found : Definitions) (whole : List Char) :
    readEnumeration (.ofText Initializer.evaluate) found whole (bodyText "enum".toList h (rows.map Row.text) close) =
      some (.ok (some (⟨String.ofList h.name.chars, (ordinals 0 rows).map Ordinal.entry, none⟩, close))) := by
  obtain ⟨last, hfold⟩ := foldlM_countMember hlong []
  exact readGroup_of_foldlM (countMember Initializer.evaluate) rfl Counting.members h (List.forall_mem_map.mpr fun r _ => r.openLine)
    hclose whole hfold

theorem closes_closing (after : List Char) : Closes ("\x7d;\n".toList ++ after) :=
  (closes_line (l := "\x7d;".toList) (by decide) after).mpr (by decide)

/-- The text of an enumeration in rows, and what stands behind it. -/
def enumerationText (h : Heading) (rows : List Row) (after : List Char) : List Char :=
  bodyText "enum".toList h (rows.map Row.text) ("\x7d;\n".toList ++ after)

theorem bodyText_append (keyword : List Char) (h : Heading) (lines : List (List Char)) (close : List Char) :
    bodyText keyword h lines close = bodyText keyword h lines [] ++ close := by
  simp only [bodyText, List.append_assoc, List.cons_append, List.append_nil]

/-- An enumeration that is written in rows is read with exactly its members, in order: each has its name, the value that
it is given or one more than the member before, and what its comment says. Reading goes on at the start of the line that
closes it. -/
theorem readEnumeration_rows (found : Definitions) (before after : List Char) (h : Heading) (rows : List Row)
    (hlong : ∀ o ∈ ordinals 0 rows, Decimal.tooLong o.value = false) :
    readEnumeration (.ofText Initializer.evaluate) found (before ++ enumerationText h rows after) (enumerationText h rows after) =
        some (.ok (some (⟨String.ofList h.name.chars, (ordinals 0 rows).map Ordinal.entry, none⟩, "\x7d;\n".toList ++ after))) ∧
      index (before ++ enumerationText h rows after) ("\x7d;\n".toList ++ after) =
        (before ++ bodyText "enum".toList h (rows.map Row.text) []).length := by
  constructor
  · exact readEnumeration_bodyText h hlong (closes_closing after) found _
  · rw [index, enumerationText, bodyText_append, ← List.append_assoc, List.length_append, Nat.add_sub_cancel]

def Gap.spaces (n : Nat) : Gap :=
  ⟨List.replicate n ' ', fun _ hc => .inl (List.eq_of_mem_replicate hc)⟩

/-- Rows of every kind: a blank line, comments with and without blanks, and members with and without values, commas
and comments. -/
def sampleRows : List Row :=
  [.blank (.spaces 2),
   .comment ⟨.spaces 0, true, "* levels ".toList, .spaces 0, by decide, by decide⟩,
   .member ⟨.spaces 4, ⟨"OFF".toList, by decide, by decide⟩, none, none, .spaces 0⟩ none (by rintro n ⟨⟩),
   .comment ⟨.spaces 2, false, "below".toList, .spaces 0, by decide, by decide⟩,
   .member ⟨.spaces 4, ⟨"LOW".toList, by decide, by decide⟩, some ⟨.spaces 1, .spaces 1, ⟨true, 3⟩⟩, some (.spaces 0), .spaces 1⟩
     (some ⟨false, "under zero".toList, ⟨by decide, ⟨by decide, by decide⟩, by decide⟩, by decide, by decide⟩)
     (fun _ _ _ => .inl rfl),
   .member ⟨.spaces 4, ⟨"MID".toList, by decide, by decide⟩, none, none, .spaces 1⟩
     (some ⟨true, "between, still".toList, ⟨by decide, ⟨by decide, by decide⟩, by decide⟩, by decide, by decide⟩)
     (fun _ _ h => by cases h),
   .member ⟨.spaces 0, ⟨"TOP".toList, by decide, by decide⟩, none, some (.spaces 0), .spaces 0⟩ none (by rintro n ⟨⟩)]

def sampleHeading : Heading :=
  ⟨[' '], ⟨"Level".toList, by decide, by decide⟩, [' '], ⟨by decide, by decide⟩, by decide⟩

theorem readEnumeration_sampleRows :
    (∀ o ∈ ordinals 0 sampleRows, Decimal.tooLong o.value = false) ∧
    enumerationText sampleHeading sampleRows [] = ("enum Level \x7b\n  \n/** levels */\n    OFF\n  //below\n" ++
      "    LOW = -3, // under zero\n    MID /* between, still */\nTOP,\n").toList ++ "\x7d;\n".toList ∧
    readEnumeration (.ofText Initializer.evaluate) {} (enumerationText sampleHeading sampleRows [])
        (enumerationText sampleHeading sampleRows []) =
      some (.ok (some (⟨"Level", [⟨"OFF", some "0", some ""⟩, ⟨"LOW", some "-3", some "under zero"⟩,
        ⟨"MID", some "-2", some "between, still"⟩, ⟨"TOP", some "-1", some ""⟩], none⟩, "\x7d;\n".toList))) := by
  have hvalues : ∀ o ∈ ordinals 0 sampleRows, o.value.natAbs < 10 ^ 1 := by decide
  have hlong : ∀ o ∈ ordinals 0 sampleRows, Decimal.tooLong o.value = false := fun o ho =>
    Decimal.tooLong_eq_false 1 (by decide) (hvalues o ho)
  have hentries : (ordinals 0 sampleRows).map Ordinal.entry = [⟨"OFF", some "0", some ""⟩, ⟨"LOW", some "-3", some "under zero"⟩,
      ⟨"MID", some "-2", some "between, still"⟩, ⟨"TOP", some "-1", some ""⟩] := by decide +kernel
  have hread := (readEnumeration_rows {} [] [] sampleHeading sampleRows hlong).1
  rw [hentries] at hread
  exact ⟨hlong, by decide +kernel, hread⟩

end CodeBridge.Header
