import CodeBridge.Proofs.MemberRows

/-! # Comments at the end of a line

A comment that is put behind a member changes what is read of that member's comment and nothing else, unless the
comment runs into something else: a closing brace in it ends the body, and behind a value without a comma it is taken
for a part of the value, if there is no comma in the comment (`trailing_comment_iff`). -/

namespace CodeBridge

open Text

/-! ### Values that run into a comment -/

namespace Initializer

open Decimal

theorem mem_rest_of_leadingDigits {c : Char} (hc : digitValue? c = none) (hu : c ≠ '_') (b : Bool) {cs : List Char} (h : c ∈ cs) :
    c ∈ (leadingDigits b cs).2.2 := by
  induction cs generalizing b with
  | nil => cases h
  | cons d cs ih =>
    have hrest : d ≠ c → c ∈ cs := fun hd => (List.mem_cons.mp h).resolve_left (Ne.symm hd)
    rw [leadingDigits]
    split
    · next hd =>
      have hne : d ≠ c := by
        rintro rfl
        exact hu (beq_iff_eq.mp hd)
      split
      · exact h
      · exact ih true (hrest hne)
    · split
      · next v hv =>
        refine ih false (hrest ?_)
        rintro rfl
        rw [hc] at hv
        cases hv
      · exact h

/-- A character that can stand in a text which is a whole number. -/
def isNumberMark (c : Char) : Bool :=
  isPadding c || (digitValue? c).isSome || ['_', '-', '+'].contains c

/-- A text with any other character in it is no whole number. -/
theorem readInteger_of_mem {text : String} {c : Char} (hc : isNumberMark c = false) (h : c ∈ text.toList) :
    ∃ f, readInteger text = .error f := by
  simp only [isNumberMark, Bool.or_eq_false_iff, Option.isSome_eq_false_iff, Option.isNone_iff_eq_none,
    List.contains_eq_mem, decide_eq_false_iff_not, List.mem_cons, List.not_mem_nil, or_false, not_or] at hc
  obtain ⟨⟨hpadding, hdigit⟩, hunderscore, hminus, hplus⟩ := hc
  have kept : ∀ {cs : List Char}, c ∈ cs → c ∈ cs.dropWhile isPadding := by
    intro cs hm
    rw [← List.takeWhile_append_dropWhile (p := isPadding) (l := cs)] at hm
    rcases List.mem_append.mp hm with hm | hm
    · cases hpadding.symm.trans (List.mem_takeWhile_imp hm)
    · exact hm
  have hsign : c ∈ (signAndRest (text.toList.dropWhile isPadding)).2 := by
    have hm := kept h
    generalize text.toList.dropWhile isPadding = cs at hm
    unfold signAndRest
    split
    · exact (List.mem_cons.mp hm).resolve_left hminus
    · exact (List.mem_cons.mp hm).resolve_left hplus
    · exact hm
  have hrest := kept (mem_rest_of_leadingDigits hdigit hunderscore true hsign)
  have hne : ((leadingDigits true (signAndRest (text.toList.dropWhile isPadding)).2).2.2.dropWhile isPadding).isEmpty = false := by
    simpa using List.ne_nil_of_mem hrest
  unfold readInteger
  dsimp only
  split
  · exact ⟨_, rfl⟩
  · split
    · exact ⟨_, rfl⟩
    · rw [hne]
      exact ⟨_, rfl⟩

/-- A number with a comment behind it is cut into the number, the two characters that open the comment, and more. -/
theorem tokens_comment {n : Nat} (h : n < 10 ^ digitLimit) {gap : List Char} (hgap : ∀ c ∈ gap, c = ' ' ∨ c = '\t') (hne : gap ≠ [])
    (rest : List Char) : ∃ more : Option (List Token), tokens ((Nat.toDigits 10 n ++ (gap ++ '/' :: '*' :: ' ' :: rest)).length + 1)
      (Nat.toDigits 10 n ++ (gap ++ '/' :: '*' :: ' ' :: rest)) =
        more.map ([.literal (.int n), .operator "/", .operator "*"] ++ ·) := by
  have hparted : Parted (gap ++ '/' :: '*' :: ' ' :: rest) := by
    obtain ⟨c, gap, rfl⟩ := List.exists_cons_of_ne_nil hne
    rintro d ⟨⟩
    exact hgap c List.mem_cons_self
  have hlength : (Nat.toDigits 10 n ++ (gap ++ '/' :: '*' :: ' ' :: rest)).length =
      gap.length + ((Nat.toDigits 10 n).length + rest.length + 1 + 1 + 1) := by
    simp only [List.length_append, List.length_cons]
    omega
  refine ⟨tokens ((Nat.toDigits 10 n).length + rest.length + 1) (' ' :: rest), ?_⟩
  rw [tokens_toDigits h hparted, hlength, tokens_gap hgap, tokens_of_token? (by decide) rfl, tokens_of_token? (by decide) rfl,
    Option.map_map, Option.map_map]
  rfl

theorem ofText?_eq_none {cs : List Char} {start : List Token} {more : Option (List Token)} (hne : start ≠ [])
    (htokens : tokens (cs.length + 1) cs = more.map (start ++ ·))
    (hparse : ∀ fuel ts, parse (fuel + 20) .either (start ++ ts) = none) : Expression.ofText? (String.ofList cs) = none := by
  rw [Expression.ofText?, String.toList_ofList, htokens]
  cases more with
  | none => rfl
  | some ts =>
    have hpos : 0 < start.length := List.length_pos_iff.mpr hne
    have hfuel : 16 * ((start ++ ts).length + 1) = 16 * ((start ++ ts).length + 1) - 20 + 20 := by
      rw [List.length_append]
      omega
    have hnone := hparse (16 * ((start ++ ts).length + 1) - 20) ts
    rw [← hfuel] at hnone
    simp only [Option.map_some, Option.bind_eq_bind, Option.bind_some, hnone, Option.bind_none]

/-- A number with a comment behind it is no expression, so as an initialiser it stands for itself. -/
theorem value_comment {k : Numeral} (h : tooLong k.value = false) {gap : List Char} (hgap : ∀ c ∈ gap, c = ' ' ∨ c = '\t')
    (hne : gap ≠ []) (rest : List Char) : value (String.ofList (k.text ++ (gap ++ '/' :: '*' :: ' ' :: rest))) =
      .text (String.ofList (k.text ++ (gap ++ '/' :: '*' :: ' ' :: rest))) := by
  have hlt := tooLong_eq_false_iff.mp h
  rw [k.natAbs_value] at hlt
  obtain ⟨more, hmore⟩ := tokens_comment hlt hgap hne rest
  have hnone : Expression.ofText? (String.ofList (k.text ++ (gap ++ '/' :: '*' :: ' ' :: rest))) = none := by
    obtain ⟨negative, n⟩ := k
    cases negative with
    | false => exact ofText?_eq_none (List.cons_ne_nil _ _) hmore fun _ _ => rfl
    | true =>
      have hminus : tokens (('-' :: (Nat.toDigits 10 n ++ (gap ++ '/' :: '*' :: ' ' :: rest))).length + 1)
          ('-' :: (Nat.toDigits 10 n ++ (gap ++ '/' :: '*' :: ' ' :: rest))) =
            more.map ([.operator "-", .literal (.int n), .operator "/", .operator "*"] ++ ·) := by
        refine (tokens_of_token? (by decide) rfl _).trans ?_
        exact (congrArg (Option.map _) hmore).trans (Option.map_map _ _ _)
      exact ofText?_eq_none (List.cons_ne_nil _ _) hminus fun _ _ => rfl
  rw [value, hnone]
  rfl

end Initializer

namespace Header

/-! ### Lines with a comment behind them -/

/-- A line with a comment behind it. -/
def commented (line said : List Char) : List Char :=
  line ++ ' ' :: ("/* ".toList ++ (said ++ " */".toList))

/-- The same entry with another comment. -/
def Entry.saying (said : List Char) (e : Entry) : Entry :=
  ⟨e.name, e.content, some (String.ofList (trim said))⟩

def Gap.concat (g : Gap) : Gap where
  chars := g.chars ++ [' ']
  blank c hc := by
    rcases List.mem_append.mp hc with hc | hc
    · exact g.blank c hc
    · exact .inl (List.mem_singleton.mp hc)

/-- The member with one more blank behind it. -/
def Member.spaced (m : Member) : Member :=
  ⟨m.indent, m.name, m.assigned, m.comma, m.trailing.concat⟩

/-- The comment that is put behind a line, if it does not close the body. -/
def Note.behind (said : List Char) (h : Printed said) (hbrace : '\x7d' ∉ said) : Note where
  block := true
  said := said
  printed := h
  spoken hblock := by cases hblock
  brace := hbrace

theorem line_spaced (m : Member) {said : List Char} (h : Printed said) (hbrace : '\x7d' ∉ said) :
    m.spaced.line (some (.behind said h hbrace)) = commented m.text said := by
  simp [Member.line, Member.spaced, Member.text, Member.core, Member.separator, commented, Note.behind, Note.text, Gap.concat]

/-- Without a comma the longest value goes to the end of the line. -/
theorem longestValue_unparted (k : Initializer.Numeral) (g : Gap) {rest : List Char} (hrest : ',' ∉ rest) :
    longestValue (k.text ++ (g.chars ++ rest)) = some (k.text ++ (g.chars ++ rest), none) := by
  have hnone : ',' ∉ k.text ++ (g.chars ++ rest) := by
    rw [← List.append_assoc]
    intro hm
    rcases List.mem_append.mp hm with hm | hm
    · exact comma_not_mem_numeral k g hm
    · exact hrest hm
  have hall := longestValue_append (List.append_ne_nil_of_left_ne_nil (isNumeral_numeral k).1 _) hnone rfl Tail.nil.read
  rwa [List.append_nil] at hall

theorem Member.trim_commented {m : Member} {a : Assigned} (ha : m.assigned = some a) (hcomma : m.comma = none) (said : List Char) :
    trim (commented m.text said) =
      m.name.chars ++ (a.text ++ (m.trailing.concat.chars ++ '/' :: '*' :: ' ' :: (said ++ " */".toList))) := by
  have hlast : ∃ c ∈ (' ' :: '/' :: '*' :: ' ' :: (said ++ " */".toList)).getLast?, isBlank c = false :=
    last_append ⟨'/', rfl, rfl⟩ (' ' :: '/' :: '*' :: ' ' :: said)
  have htrim := m.trim_text_append hlast (List.forall_mem_nil _)
  have hcore : m.core = m.name.chars ++ a.text := by simp [Member.core, Member.separator, ha, hcomma]
  rw [List.append_nil] at htrim
  refine htrim.trans ?_
  simp [hcore, Gap.concat]

/-- A value without a comma behind it takes in the whole comment and is no number any more. -/
theorem countMember_unparted {m : Member} {a : Assigned} (ha : m.assigned = some a) (hcomma : m.comma = none)
    {said : List Char} (hsaid : ',' ∉ said) (hlong : Decimal.tooLong a.numeral.value = false) (s : Counting) :
    ∃ f, countMember Initializer.evaluate s (trim (commented m.text said)) = .error f := by
  have hrest : ',' ∉ '/' :: '*' :: ' ' :: (said ++ " */".toList) := by simp [hsaid]
  have hmember := memberLine?_assigned (longestValue_unparted a.numeral m.trailing.concat hrest) m.name
  have hgap : m.trailing.concat.chars ≠ [] := List.append_ne_nil_of_right_ne_nil _ (List.cons_ne_nil _ _)
  have htext := Initializer.value_comment hlong m.trailing.concat.blank hgap (said ++ " */".toList)
  generalize htaken : String.ofList (a.numeral.text ++ (m.trailing.concat.chars ++ '/' :: '*' :: ' ' :: (said ++ " */".toList))) = text
    at hmember htext
  have hslash : '/' ∈ text.toList := by
    rw [← htaken]
    simp
  obtain ⟨f, hf⟩ := Initializer.readInteger_of_mem (by decide) hslash
  have hevaluate : Initializer.evaluate text = .error f := by
    rw [Initializer.evaluate, htext]
    show (do return (text, ← Initializer.readInteger text)) = _
    rw [hf]
    rfl
  refine ⟨f, ?_⟩
  rw [Member.trim_commented ha hcomma, countMember, hmember]
  simp only [Option.elim_some, hevaluate]
  rfl

/-! ### Fields -/

/-- A line of a struct with a member. -/
structure Field where
  indent : Gap
  type : Word
  gap : Gap
  parted : gap.chars ≠ []
  name : Word
  before : Gap
  trailing : Gap

namespace Field

/-- The member without the blanks around it. -/
def core (f : Field) : List Char :=
  f.type.chars ++ (f.gap.chars ++ (f.name.chars ++ (f.before.chars ++ [';'])))

def text (f : Field) : List Char :=
  f.indent.chars ++ (f.core ++ f.trailing.chars)

def entry (f : Field) : Entry :=
  ⟨String.ofList f.name.chars, some (String.ofList f.type.chars), some ""⟩

theorem core_solid (f : Field) : Solid f.core :=
  .append f.type.solid.first (last_append (last_append (last_append ⟨';', rfl, rfl⟩ _) _) _)

theorem text_bodyLine (f : Field) : BodyLine f.text :=
  f.indent.bodyLine.append ((f.type.bodyLine.append (f.gap.bodyLine.append (f.name.bodyLine.append
    (f.before.bodyLine.append (by decide))))).append f.trailing.bodyLine)

theorem fieldLine?_core (f : Field) {tail : List Char} {comment : Option (List Char)} (h : fieldTail? tail = some comment) :
    fieldLine? (f.core ++ tail) =
      some ⟨String.ofList f.name.chars, some (String.ofList f.type.chars), some (cleanComment comment)⟩ := by
  have hline : f.core ++ tail = f.type.chars ++ (f.gap.chars ++ (f.name.chars ++ (f.before.chars ++ ';' :: tail))) := by
    simp [core]
  have htype : ∀ c ∈ (f.gap.chars ++ (f.name.chars ++ (f.before.chars ++ ';' :: tail))).head?, isWord c = false := by
    obtain ⟨d, gap, hgap⟩ := List.exists_cons_of_ne_nil f.parted
    rw [hgap]
    rintro c ⟨⟩
    exact isWord_of_isBlank (f.gap.isBlank d (hgap ▸ List.mem_cons_self))
  have hname : ∀ c ∈ (f.name.chars ++ (f.before.chars ++ ';' :: tail)).head?, isBlank c = false := by
    obtain ⟨d, name, hd⟩ := List.exists_cons_of_ne_nil f.name.isWord.1
    rw [hd]
    rintro c ⟨⟩
    exact isBlank_of_isWord (f.name.isWord.2 d (hd ▸ List.mem_cons_self))
  have hsemicolon : trimLeft (f.before.chars ++ ';' :: tail) = ';' :: tail := by
    rw [trimLeft_blanks_append f.before.isBlank]
    rfl
  rw [hline, fieldLine?, f.type.word?_append htype]
  simp only [Option.bind_eq_bind, Option.bind_some, behindBlanks?_append ⟨f.parted, f.gap.isBlank⟩ hname,
    f.name.word?_append (f.before.parted (d := ';') rfl tail), hsemicolon, h]

theorem addField_text (f : Field) (members : List Entry) : addField members (trim f.text) = .ok (members ++ [f.entry]) := by
  have hline := f.fieldLine?_core (show fieldTail? [] = some none from rfl)
  rw [List.append_nil] at hline
  rw [text, f.core_solid.trim_between f.indent.isBlank f.trailing.isBlank, addField, hline]
  rfl

theorem addField_commented (f : Field) {said : List Char} (h : Printed said) (hbrace : '\x7d' ∉ said) (members : List Entry) :
    addField members (trim (commented f.text said)) = .ok (members ++ [f.entry.saying said]) := by
  obtain ⟨inside, hvisible⟩ := Note.visible_block (n := .behind said h hbrace) rfl
  generalize hnote : (Note.behind said h hbrace).text = note at hvisible
  have hline : commented f.text said = f.indent.chars ++ (f.core ++ (f.trailing.concat.chars ++ note) ++ []) := by
    simp [← hnote, commented, text, Note.behind, Note.text, Gap.concat]
  have hsolid : Solid (f.core ++ (f.trailing.concat.chars ++ note)) := .append f.core_solid.first (last_append hvisible.last _)
  have htail : fieldTail? (f.trailing.concat.chars ++ note) = some (some inside) := by
    have hremark := hvisible.remark
    obtain ⟨rest, rfl⟩ : ∃ rest, note = '/' :: rest := List.head?_eq_some_iff.mp hvisible.first
    have hne : f.trailing.concat.chars ++ '/' :: rest ≠ [] := List.append_ne_nil_of_right_ne_nil _ (List.cons_ne_nil _ _)
    obtain ⟨c, cs, hcs⟩ := List.exists_cons_of_ne_nil hne
    have htrim : trimLeft (f.trailing.concat.chars ++ '/' :: rest) = '/' :: rest := by
      rw [trimLeft_blanks_append f.trailing.concat.isBlank]
      rfl
    rw [← htrim] at hremark
    rw [hcs] at hremark ⊢
    exact congrArg (Option.map some) hremark
  rw [hline, hsolid.trim_between f.indent.isBlank (by simp), addField, f.fieldLine?_core htail, hvisible.clean]
  rfl

end Field

/-! ### Bodies with a comment behind one line -/

/-- The lines of a body, with a comment behind one of them. -/
def commentedLines {α : Type} (text : α → List Char) (before : List α) (x : α) (said : List Char) (after : List α) :
    List (List Char) :=
  before.map text ++ commented (text x) said :: after.map text

section
variable {α : Type} {text : α → List Char} (htext : ∀ x, BodyLine (text x)) {said : List Char} (hsaid : Printed said)
include htext hsaid

theorem commentedLines_bodyLine (hbrace : '\x7d' ∉ said) (before : List α) (x : α) (after : List α) :
    ∀ l ∈ commentedLines text before x said after, BodyLine l := by
  have hspace : BodyLine [' '] := by decide
  have hcommented : BodyLine (commented (text x) said) := (htext x).append (hspace.append (Note.behind said hsaid hbrace).bodyLine)
  exact List.forall_mem_append.mpr ⟨bodyLine_map htext before, List.forall_mem_cons.mpr ⟨hcommented, bodyLine_map htext after⟩⟩

/-- A comment with a closing brace closes the body: its line and those behind it are not read. -/
theorem readGroup_closed {σ : Type} {keyword : List Char} {f : σ → List Char → Except Fault σ} {start s : σ}
    (hblank : f start [] = .ok start) (members : σ → List Entry) (h : Heading) (hbrace : '\x7d' ∈ said) {before : List α}
    (hfold : (before.map text).foldlM (fun s l => f s (trim l)) start = .ok s) (x : α) (after : List α) (close whole : List Char) :
    ∃ rest, readGroup keyword (onLine f) start members whole (bodyText keyword h (commentedLines text before x said after) close) =
      some (.ok (some (⟨String.ofList h.name.chars, members s, none⟩, rest))) := by
  have hsplit : bodyText keyword h (commentedLines text before x said after) close =
      bodyText keyword h (before.map text) (commented (text x) said ++ '\n' :: (unlines (after.map text) ++ close)) := by
    simp [bodyText, commentedLines, unlines]
  have hone : '\n' ∉ commented (text x) said := by
    have hnone : '\n' ∉ said := hsaid.not_mem (by decide)
    simp [commented, (htext x).line, hnone]
  have hcloses : Closes (commented (text x) said ++ '\n' :: (unlines (after.map text) ++ close)) :=
    (closes_line hone _).mpr (by simp [commented, hbrace])
  rw [hsplit]
  exact ⟨_, readGroup_of_foldlM f hblank members h (openLines_of_bodyLine (bodyLine_map htext before)) hcloses whole hfold⟩

end

theorem foldlM_append_cons {α σ : Type} {step : σ → α → Except Fault σ} {a : List α} {s t : σ} (h : a.foldlM step s = .ok t)
    (x : α) (b : List α) : (a ++ x :: b).foldlM step s = (step t x).bind (b.foldlM step) := by
  rw [List.foldlM_append, h]
  rfl

theorem length_eq_of_read {r : Option (Except Fault (Option (Group × List Char)))} {g g' : Group} {rest rest' : List Char}
    (h : r = some (.ok (some (g, rest)))) (h' : r = some (.ok (some (g', rest')))) : g.members.length = g'.members.length := by
  rw [h] at h'
  cases h'
  rfl

theorem modify_append_cons {α : Type} (a : List α) (x : α) (b : List α) (f : α → α) :
    (a ++ x :: b).modify a.length f = a ++ f x :: b := by
  induction a with
  | nil => rfl
  | cons c a ih => exact congrArg (c :: ·) ih

section
variable {said close : List Char} (hsaid : Printed said) (h : Heading) (hclose : Closes close) (found : Definitions)
  (whole : List Char)

/-! ### Structs -/

section
variable (before : List Field) (f : Field) (after : List Field)

theorem foldlM_addField (fs : List Field) (members : List Entry) :
    (fs.map Field.text).foldlM (fun s l => addField s (trim l)) members = .ok (members ++ fs.map Field.entry) := by
  induction fs generalizing members with
  | nil => simp [pure, Except.pure]
  | cons f fs ih =>
    rw [List.map_cons, List.foldlM_cons, f.addField_text]
    refine (ih _).trans ?_
    rw [List.append_assoc]
    rfl

include hclose

theorem readStruct_bodyText (fs : List Field) : readStruct whole (bodyText "struct".toList h (fs.map Field.text) close) =
    some (.ok (some (⟨String.ofList h.name.chars, fs.map Field.entry, none⟩, close))) :=
  readGroup_of_foldlM addField rfl id h (openLines_of_bodyLine (bodyLine_map Field.text_bodyLine fs)) hclose whole (foldlM_addField fs [])

include hsaid

theorem readStruct_commented (hbrace : '\x7d' ∉ said) :
    readStruct whole (bodyText "struct".toList h (commentedLines Field.text before f said after) close) =
      some (.ok (some (⟨String.ofList h.name.chars,
        ((before ++ f :: after).map Field.entry).modify before.length (Entry.saying said), none⟩, close))) := by
  have hlines := commentedLines_bodyLine Field.text_bodyLine hsaid hbrace before f after
  have hfold : (commentedLines Field.text before f said after).foldlM (fun s l => addField s (trim l)) [] =
      .ok (before.map Field.entry ++ f.entry.saying said :: after.map Field.entry) := by
    rw [commentedLines, foldlM_append_cons (foldlM_addField before []), f.addField_commented hsaid hbrace]
    refine (foldlM_addField after _).trans ?_
    simp
  have hentries := modify_append_cons (before.map Field.entry) f.entry (after.map Field.entry) (Entry.saying said)
  rw [List.length_map] at hentries
  rw [List.map_append, List.map_cons, hentries]
  exact readGroup_of_foldlM addField rfl id h (openLines_of_bodyLine hlines) hclose whole hfold

omit hclose

theorem readStruct_closed (hbrace : '\x7d' ∈ said) (close : List Char) :
    ∃ rest, readStruct whole (bodyText "struct".toList h (commentedLines Field.text before f said after) close) =
      some (.ok (some (⟨String.ofList h.name.chars, before.map Field.entry, none⟩, rest))) :=
  readGroup_closed Field.text_bodyLine hsaid rfl id h hbrace (foldlM_addField before []) f after close whole

end

/-! ### Enumerations -/

/-- A member without a comment. -/
def Row.plain (m : Member) : Row :=
  .member m none (by rintro n ⟨⟩)

/-- What is read of an enumeration with these members. -/
def memberEntries (ms : List Member) : List Entry :=
  (ordinals 0 (ms.map Row.plain)).map Ordinal.entry

theorem map_text_plain (ms : List Member) : (ms.map Row.plain).map Row.text = ms.map Member.text := by
  rw [List.map_map]
  exact List.map_congr_left fun m _ => List.append_nil m.text

theorem length_ordinals_plain (next : Int) (ms : List Member) : (ordinals next (ms.map Row.plain)).length = ms.length := by
  induction ms generalizing next with
  | nil => rfl
  | cons m ms ih => exact congrArg (· + 1) (ih (m.value next + 1))

@[simp] theorem length_memberEntries (ms : List Member) : (memberEntries ms).length = ms.length := by
  rw [memberEntries, List.length_map, length_ordinals_plain]

/-- Members are counted the same whatever stands behind them, and what a comment says is not counted. -/
theorem ordinals_append_cons (before : List Member) (next : Int) :
    ∃ n, ∀ (m : Member) (note : Option Note) (h : ∀ n ∈ note, m.Admits n) (rows : List Row),
      ordinals next (before.map Row.plain ++ .member m note h :: rows) =
        ordinals next (before.map Row.plain) ++ ⟨m, note, m.value n⟩ :: ordinals (m.value n + 1) rows := by
  induction before generalizing next with
  | nil => exact ⟨next, fun _ _ _ _ => rfl⟩
  | cons b before ih =>
    obtain ⟨n, hn⟩ := ih (b.value next + 1)
    exact ⟨n, fun m note h rows => congrArg (_ :: ·) (hn m note h rows)⟩

section
variable {before : List Member} {m : Member} {after : List Member}
  (hlong : ∀ o ∈ ordinals 0 ((before ++ m :: after).map Row.plain), Decimal.tooLong o.value = false)
include hlong

theorem foldlM_before : ∃ last, (before.map Member.text).foldlM (fun s l => countMember Initializer.evaluate s (trim l)) ⟨[], 0⟩ =
    .ok ⟨memberEntries before, last⟩ := by
  obtain ⟨n, hn⟩ := ordinals_append_cons before 0
  rw [List.map_append, List.map_cons, Row.plain, hn] at hlong
  rw [← map_text_plain]
  exact foldlM_countMember (List.forall_mem_append.mp hlong).1 []

include hsaid

theorem readEnumeration_closed (hbrace : '\x7d' ∈ said) (close : List Char) :
    ∃ rest, readEnumeration (.ofText Initializer.evaluate) found whole
        (bodyText "enum".toList h (commentedLines Member.text before m said after) close) =
      some (.ok (some (⟨String.ofList h.name.chars, memberEntries before, none⟩, rest))) := by
  obtain ⟨last, hfold⟩ := foldlM_before hlong
  exact readGroup_closed Member.text_bodyLine hsaid rfl Counting.members h hbrace hfold m after close whole

include hclose

/-- A value without a comma takes in the comment, if there is no comma in it either, and is then refused. -/
theorem readEnumeration_unparted (hbrace : '\x7d' ∉ said) (hm : m.assigned.isSome) (hcomma : m.comma = none) (hparts : ',' ∉ said) :
    ∃ f, readEnumeration (.ofText Initializer.evaluate) found whole
        (bodyText "enum".toList h (commentedLines Member.text before m said after) close) = some (.error f) := by
  obtain ⟨a, ha⟩ := Option.isSome_iff_exists.mp hm
  obtain ⟨last, hfold⟩ := foldlM_before hlong
  have hvalue : Decimal.tooLong a.numeral.value = false := by
    obtain ⟨n, hn⟩ := ordinals_append_cons before 0
    rw [List.map_append, List.map_cons, Row.plain, hn] at hlong
    have hhere := hlong _ (List.mem_append_right _ List.mem_cons_self)
    rwa [Member.value, ha] at hhere
  obtain ⟨f, hf⟩ := countMember_unparted ha hcomma hparts hvalue ⟨memberEntries before, last⟩
  have hfault := foldlM_append_cons hfold (commented m.text said) (after.map Member.text)
  rw [hf] at hfault
  have hlines := commentedLines_bodyLine Member.text_bodyLine hsaid hbrace before m after
  refine ⟨f, (readGroup_bodyText (countMember Initializer.evaluate) rfl Counting.members h (openLines_of_bodyLine hlines) hclose
    whole).trans ?_⟩
  rw [commentedLines, hfault]
  rfl

theorem readEnumeration_commented (hbrace : '\x7d' ∉ said) (hparts : m.assigned.isSome → m.comma.isSome ∨ ',' ∈ said) :
    readEnumeration (.ofText Initializer.evaluate) found whole
        (bodyText "enum".toList h (commentedLines Member.text before m said after) close) =
      some (.ok (some (⟨String.ofList h.name.chars,
        (memberEntries (before ++ m :: after)).modify before.length (Entry.saying said), none⟩, close))) := by
  have hadmits : ∀ n ∈ some (Note.behind said hsaid hbrace), m.spaced.Admits n := by
    rintro n ⟨⟩ hassigned
    exact (hparts hassigned).imp id fun hcomma => ⟨rfl, hcomma⟩
  -- The line is a row of its own, whose member has one more blank behind it and so counts as before.
  obtain ⟨n, hn⟩ := ordinals_append_cons before 0
  have hplain := hn m none (by rintro n ⟨⟩) (after.map Row.plain)
  have hnoted := hn m.spaced (some (.behind said hsaid hbrace)) hadmits (after.map Row.plain)
  have hlong' : ∀ o ∈ ordinals 0 (before.map Row.plain ++ .member m.spaced _ hadmits :: after.map Row.plain),
      Decimal.tooLong o.value = false := by
    rw [List.map_append, List.map_cons, Row.plain, hplain] at hlong
    obtain ⟨hbefore, hrest⟩ := List.forall_mem_append.mp hlong
    obtain ⟨hhere, hafter⟩ := List.forall_mem_cons.mp hrest
    rw [hnoted]
    exact List.forall_mem_append.mpr ⟨hbefore, List.forall_mem_cons.mpr ⟨hhere, hafter⟩⟩
  have hentries : (memberEntries (before ++ m :: after)).modify before.length (Entry.saying said) =
      memberEntries before ++ (Ordinal.entry ⟨m, none, m.value n⟩).saying said ::
        (ordinals (m.value n + 1) (after.map Row.plain)).map Ordinal.entry := by
    have hmodify := modify_append_cons (memberEntries before) (Ordinal.entry ⟨m, none, m.value n⟩)
      ((ordinals (m.value n + 1) (after.map Row.plain)).map Ordinal.entry) (Entry.saying said)
    rw [length_memberEntries] at hmodify
    rw [← hmodify, memberEntries, memberEntries, List.map_append, List.map_cons, Row.plain, hplain, List.map_append, List.map_cons]
  have hread := readEnumeration_bodyText h hlong' hclose found whole
  rw [List.map_append, List.map_cons, map_text_plain, map_text_plain, Row.text, line_spaced, hnoted, List.map_append,
    List.map_cons] at hread
  rw [hentries]
  exact hread

end

end

/-- A comment behind a member changes only what is read of that member's comment, exactly if it does not close the body
and, in an enumeration, if a value before it is parted from it by a comma, or by one that stands in it. -/
theorem trailing_comment_iff {said close : List Char} (hsaid : Printed said) (h : Heading) (hclose : Closes close)
    (found : Definitions) (whole : List Char) :
    (∀ before m after, (∀ o ∈ ordinals 0 ((before ++ m :: after).map Row.plain), Decimal.tooLong o.value = false) →
      readEnumeration (.ofText Initializer.evaluate) found whole
            (bodyText "enum".toList h ((before ++ m :: after).map Member.text) close) =
          some (.ok (some (⟨String.ofList h.name.chars, memberEntries (before ++ m :: after), none⟩, close))) ∧
        (readEnumeration (.ofText Initializer.evaluate) found whole
              (bodyText "enum".toList h (commentedLines Member.text before m said after) close) =
            some (.ok (some (⟨String.ofList h.name.chars,
              (memberEntries (before ++ m :: after)).modify before.length (Entry.saying said), none⟩, close))) ↔
          '\x7d' ∉ said ∧ (m.assigned.isSome → m.comma.isSome ∨ ',' ∈ said))) ∧
    ∀ before f after,
      readStruct whole (bodyText "struct".toList h ((before ++ f :: after).map Field.text) close) =
          some (.ok (some (⟨String.ofList h.name.chars, (before ++ f :: after).map Field.entry, none⟩, close))) ∧
        (readStruct whole (bodyText "struct".toList h (commentedLines Field.text before f said after) close) =
            some (.ok (some (⟨String.ofList h.name.chars,
              ((before ++ f :: after).map Field.entry).modify before.length (Entry.saying said), none⟩, close))) ↔
          '\x7d' ∉ said) := by
  refine ⟨fun before m after hlong => ⟨?_, ?_, ?_⟩, fun before f after => ⟨readStruct_bodyText h hclose whole _, ?_, ?_⟩⟩
  · have hread := readEnumeration_bodyText h hlong hclose found whole
    rwa [map_text_plain] at hread
  · intro hread
    by_cases hbrace : '\x7d' ∈ said
    · -- What is closed too early has too few members.
      obtain ⟨rest, hclosed⟩ := readEnumeration_closed hsaid h found whole hlong hbrace close
      have hlength := length_eq_of_read hclosed hread
      simp at hlength
    · refine ⟨hbrace, fun hm => ?_⟩
      by_contra hparts
      obtain ⟨hcomma, hnone⟩ := not_or.mp hparts
      obtain ⟨f, hf⟩ := readEnumeration_unparted hsaid h hclose found whole hlong hbrace hm
        (Option.not_isSome_iff_eq_none.mp hcomma) hnone
      rw [hread] at hf
      cases hf
  · rintro ⟨hbrace, hparts⟩
    exact readEnumeration_commented hsaid h hclose found whole hlong hbrace hparts
  · intro hread hbrace
    obtain ⟨rest, hclosed⟩ := readStruct_closed hsaid h whole before f after hbrace close
    have hlength := length_eq_of_read hclosed hread
    simp at hlength
  · exact readStruct_commented hsaid h hclose whole before f after

/-- A member `A = 1`, with or without a comma. -/
def sampleMember (comma : Option Gap) : Member :=
  ⟨.spaces 4, ⟨"A".toList, by decide, by decide⟩, some ⟨.spaces 1, .spaces 1, ⟨false, 1⟩⟩, comma, .spaces 0⟩

def sampleField : Field :=
  ⟨.spaces 4, ⟨"int".toList, by decide, by decide⟩, .spaces 1, by decide, ⟨"a".toList, by decide, by decide⟩, .spaces 0, .spaces 0⟩

theorem printed_one : Printed "one".toList :=
  ⟨by decide, ⟨by decide, by decide⟩, by decide⟩

theorem tooLong_sampleMember (comma : Option Gap) :
    ∀ o ∈ ordinals 0 (([] ++ sampleMember comma :: []).map Row.plain), Decimal.tooLong o.value = false := by
  intro o ho
  obtain rfl := List.mem_singleton.mp ho
  have hone : Decimal.tooLong 1 = false := Decimal.tooLong_eq_false 1 (by decide) (by decide)
  exact hone

theorem trailing_comment_sample :
    (Printed "one".toList ∧ Closes "\x7d;\n".toList) ∧
    readEnumeration (.ofText Initializer.evaluate) {} [] "enum Level \x7b\n    A = 1, /* one */\n\x7d;\n".toList =
      some (.ok (some (⟨"Level", [⟨"A", some "1", some "one"⟩], none⟩, "\x7d;\n".toList))) ∧
    readStruct [] "struct Level \x7b\n    int a; /* one */\n\x7d;\n".toList =
      some (.ok (some (⟨"Level", [⟨"a", some "int", some "one"⟩], none⟩, "\x7d;\n".toList))) := by
  have hclose := closes_closing []
  obtain ⟨henum, hstruct⟩ := trailing_comment_iff printed_one sampleHeading hclose {} []
  have hmember := (henum [] (sampleMember (some (.spaces 0))) [] (tooLong_sampleMember _)).2.mpr ⟨by decide, fun _ => .inl rfl⟩
  have hfield := (hstruct [] sampleField []).2.mpr (by decide)
  exact ⟨⟨printed_one, hclose⟩, hmember, hfield⟩

/-- Without a comma the value of a member runs into the comment, and the enumeration is refused. -/
theorem comment_in_value :
    (∃ f, readEnumeration (.ofText Initializer.evaluate) {} [] "enum Level \x7b\n    A = 1 /* one */\n\x7d;\n".toList =
      some (.error f)) ∧
    readEnumeration (.ofText Initializer.evaluate) {} [] "enum Level \x7b\n    A = 1\n\x7d;\n".toList =
      some (.ok (some (⟨"Level", [⟨"A", some "1", some ""⟩], none⟩, "\x7d;\n".toList))) := by
  have hclose := closes_closing []
  have hlong := tooLong_sampleMember none
  have hplain := readEnumeration_bodyText sampleHeading hlong hclose {} []
  exact ⟨readEnumeration_unparted printed_one sampleHeading hclose {} [] hlong (by decide) rfl rfl (by decide), hplain⟩

end Header

end CodeBridge
