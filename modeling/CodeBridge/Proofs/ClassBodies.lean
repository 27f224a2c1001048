import CodeBridge.Proofs.ClassLines
import CodeBridge.Proofs.FailedReading

/-! # Classes without a body

The names and comments that are read of a header keep to their lines. A class has a body in the text that is written
exactly when its group has a member line before its closing brace: a body on the line of its opening brace, one of lines
that are no members and one without lines all leave a class without a body (`classes_bodied_iff`). What the initialisers
stand for does not matter. -/

namespace CodeBridge.Header

open Text Relation
open Evaluator (readFrom)

/-! ### What a line says stands on it -/

theorem dropMarks_subset (cs : List Char) : dropMarks cs ⊆ cs := by
  induction cs using dropMarks_induction with
  | nil => exact List.Subset.refl _
  | single a => rw [dropMarks_single]; exact List.Subset.refl _
  | mark a b cs hmark ih =>
    rw [dropMarks_mark hmark]
    exact fun c hc => List.mem_cons_of_mem _ (List.mem_cons_of_mem _ (ih hc))
  | plain a b cs hmark ih =>
    rw [dropMarks_plain hmark]
    exact List.cons_subset_cons _ ih

theorem remark?_subset {cs comment : List Char} (h : remark? cs = some comment) : comment ⊆ cs := by
  obtain ⟨m, rest, -, -, rfl, rfl⟩ := of_remark?_eq_some h
  have hclosing : dropClosing rest ⊆ rest := by
    rcases dropClosing_cases rest with e | ⟨inner, -, e, e'⟩
    · rw [e]
      exact List.Subset.refl _
    · rw [e']
      intro c hc
      rw [e]
      exact List.mem_append_left _ hc
  exact fun c hc => List.mem_cons_of_mem _ (List.mem_cons_of_mem _ (hclosing hc))

/-- A comment says nothing that is not on the line. -/
theorem cleanComment_subset {comment : Option (List Char)} {line : List Char}
    (h : ∀ cs, comment = some cs → cs ⊆ line) : (cleanComment comment).toList ⊆ line := by
  cases comment with
  | none => exact List.nil_subset _
  | some cs =>
    rw [cleanComment, String.toList_ofList]
    exact fun c hc => h cs rfl (dropMarks_subset cs ((trim_isInfix _).subset hc))

theorem of_afterBlanks_eq_some {α : Type} {read : List Char → Option α} {cs : List Char} {a : α}
    (h : afterBlanks read cs = some a) : ∃ rest, rest <:+ cs ∧ read rest = some a := by
  induction cs with
  | nil => exact ⟨[], List.suffix_refl _, h⟩
  | cons c cs ih =>
    rw [afterBlanks] at h
    split at h
    · split at h
      · next b hb =>
        obtain ⟨rest, hrest, hread⟩ := ih (hb.trans h)
        exact ⟨rest, hrest.trans (List.suffix_cons c cs), hread⟩
      · exact ⟨c :: cs, List.suffix_refl _, h⟩
    · exact ⟨c :: cs, List.suffix_refl _, h⟩

theorem trimLeft_subset (cs : List Char) : trimLeft cs ⊆ cs :=
  (List.dropWhile_suffix _).subset

theorem memberTail?_subset {cs : List Char} {comment : Option (List Char)} (h : memberTail? cs = some comment) :
    ∀ c, comment = some c → c ⊆ cs := by
  rintro c rfl
  unfold memberTail? at h
  dsimp only at h
  split at h
  · cases h
  · obtain ⟨comment, hremark, e⟩ := Option.map_eq_some_iff.mp h
    cases e
    have hc := remark?_subset hremark
    split at hc
    · next rest hrest =>
      exact fun d hd => trimLeft_subset cs (hrest ▸ List.mem_cons_of_mem _ (trimLeft_subset rest (hc hd)))
    · exact fun d hd => trimLeft_subset cs (hc hd)

theorem longestValue_subset {cs value : List Char} {comment : Option (List Char)} (h : longestValue cs = some (value, comment)) :
    ∀ c, comment = some c → c ⊆ cs := by
  induction cs generalizing value with
  | nil => cases h
  | cons d cs ih =>
    rw [longestValue] at h
    split at h
    · cases h
    · split at h
      · next value' comment' hlongest =>
        cases h
        exact fun c hc a ha => List.mem_cons_of_mem _ (ih hlongest c hc ha)
      · obtain ⟨comment', htail, e⟩ := Option.map_eq_some_iff.mp h
        cases e
        exact fun c hc a ha => List.mem_cons_of_mem _ (memberTail?_subset htail c hc ha)

/-- An entry that is read of a line is named by a word, and its comment is on the line. -/
theorem Entry.Tidy.of_subset {line : List Char} (hl : '\n' ∉ line) {name : String} (hname : IsWord name.toList)
    {comment : Option (List Char)} (hcomment : ∀ cs, comment = some cs → cs ⊆ line) (content : Option String) :
    (⟨name, content, some (cleanComment comment)⟩ : Entry).Tidy where
  name := hname
  comment := by
    rintro _ ⟨⟩ hmem
    exact hl (cleanComment_subset hcomment hmem)

theorem fieldTail?_subset {cs : List Char} {comment : Option (List Char)} (h : fieldTail? cs = some comment) :
    ∀ c, comment = some c → c ⊆ cs := by
  rintro c rfl
  unfold fieldTail? at h
  split at h
  · cases h
  · obtain ⟨comment, hremark, e⟩ := Option.map_eq_some_iff.mp h
    cases e
    exact fun d hd => trimLeft_subset cs (remark?_subset hremark hd)

theorem tidy_of_fieldLine? {line : List Char} {e : Entry} (hl : '\n' ∉ line) (h : fieldLine? line = some e) : e.Tidy := by
  simp only [fieldLine?, Option.bind_eq_bind, Option.bind_eq_some_iff] at h
  obtain ⟨⟨type, r₁⟩, h₁, r₂, h₂, ⟨name, r₃⟩, h₃, h⟩ := h
  obtain ⟨-, -, rfl⟩ := word?_eq_some_iff.mp h₁
  obtain ⟨gap, -, rfl⟩ := of_behindBlanks?_eq_some h₂
  obtain ⟨hword, -, rfl⟩ := word?_eq_some_iff.mp h₃
  dsimp only at h
  split at h
  · next rest hrest =>
    obtain ⟨comment, htail, h⟩ := Option.bind_eq_some_iff.mp h
    cases h
    have hline : rest ⊆ type ++ (gap ++ (name ++ r₃)) := fun d hd =>
      List.mem_append_right _ (List.mem_append_right _ (List.mem_append_right _
        (trimLeft_subset r₃ (hrest ▸ List.mem_cons_of_mem _ hd))))
    exact .of_subset hl (by rwa [String.toList_ofList]) (fun cs hcs d hd => hline (fieldTail?_subset htail cs hcs hd)) _
  · cases h

theorem of_memberLine?_eq_some {line : List Char} {m : MemberLine} (h : memberLine? line = some m) :
    IsWord m.name.toList ∧ ∀ cs, m.comment = some cs → cs ⊆ line := by
  simp only [memberLine?, Option.bind_eq_bind, Option.bind_eq_some_iff] at h
  obtain ⟨⟨name, r₁⟩, h₁, h⟩ := h
  obtain ⟨hword, -, rfl⟩ := word?_eq_some_iff.mp h₁
  dsimp only at h
  split at h
  · next rest hrest =>
    obtain ⟨⟨value, comment⟩, hvalue, h⟩ := Option.bind_eq_some_iff.mp h
    cases h
    obtain ⟨behind, hbehind, hread⟩ := of_afterBlanks_eq_some hvalue
    refine ⟨by rwa [String.toList_ofList], fun cs hcs d hd => List.mem_append_right _ (trimLeft_subset r₁ ?_)⟩
    exact hrest ▸ List.mem_cons_of_mem _ (hbehind.subset (longestValue_subset hread cs hcs hd))
  · obtain ⟨comment, htail, h⟩ := Option.bind_eq_some_iff.mp h
    cases h
    exact ⟨by rwa [String.toList_ofList], fun cs hcs d hd => List.mem_append_right _ (memberTail?_subset htail cs hcs hd)⟩

theorem lineFeed_not_mem_lineOf (rest : List Char) : '\n' ∉ lineOf rest := by
  rcases exists_line_or_not_mem rest with hl | ⟨l, behind, hl, rfl⟩
  · rw [lineOf_of_not_mem hl]
    exact fun hm => hl (List.dropLast_subset rest ((trim_isInfix _).subset hm))
  · rw [lineOf_line hl]
    exact fun hm => hl ((trim_isInfix l).subset hm)

/-! ### Lines of a body -/

/-- A line that is taken for a member of a group with this keyword. -/
def takes (keyword line : List Char) : Bool :=
  if keyword = "enum".toList then (memberLine? line).isSome else (fieldLine? line).isSome

/-- The lines of a body: those that end before the first one with a closing brace. -/
def bodyLines (inside : List Char) : List (List Char) :=
  (Emit.splitLines inside).dropLast.takeWhile fun l => !l.contains '\x7d'

section
variable {l : List Char} {rest : List Char}

theorem bodyLines_of_not_mem (hl : '\n' ∉ l) : bodyLines l = [] := by
  rw [bodyLines, splitLines_of_not_mem hl]
  rfl

theorem bodyLines_line (hl : '\n' ∉ l) (rest : List Char) :
    bodyLines (l ++ '\n' :: rest) = if '\x7d' ∈ l then [] else l :: bodyLines rest := by
  have hne : Emit.splitLines rest ≠ [] := by
    obtain ⟨first, others, e, -, -⟩ := Emit.splitLines_spec rest
    rw [e]
    exact List.cons_ne_nil _ _
  rw [bodyLines, splitLines_append_lineEnd, splitLines_of_not_mem hl, List.singleton_append, List.dropLast_cons_of_ne_nil hne,
    List.takeWhile_cons]
  by_cases hbrace : '\x7d' ∈ l
  · simp [hbrace]
  · simp [hbrace, bodyLines]

end

theorem of_countMember_eq_ok {value : String → Except Fault (String × Int)} {s s' : Counting} {line : List Char}
    (h : countMember value s line = .ok s') :
    (memberLine? line = none ∧ s' = s) ∨ ∃ m text, memberLine? line = some m ∧
      s'.members = s.members ++ [⟨m.name, some text, some (cleanComment m.comment)⟩] := by
  rw [countMember] at h
  cases hline : memberLine? line with
  | none =>
    rw [hline] at h
    cases h
    exact .inl ⟨rfl, rfl⟩
  | some m =>
    rw [hline] at h
    obtain ⟨⟨text, n⟩, -, h⟩ := exists_of_bind_eq_ok h
    cases h
    exact .inr ⟨m, text, rfl, rfl⟩

theorem of_addField_eq_ok {members members' : List Entry} {line : List Char} (h : addField members line = .ok members') :
    (fieldLine? line = none ∧ members' = members) ∨ ∃ e, fieldLine? line = some e ∧ members' = members ++ [e] := by
  rw [addField] at h
  cases hline : fieldLine? line with
  | none =>
    rw [hline] at h
    cases h
    exact .inl ⟨rfl, rfl⟩
  | some e =>
    rw [hline] at h
    cases h
    exact .inr ⟨e, rfl, rfl⟩

section
variable {ev : Evaluator} {whole u : List Char} {d : Definitions} {k : Kind} (hk : KindAt ev whole u d k)
include hk

/-- A line adds one member or none, and what it adds keeps to the line. -/
theorem of_step_eq_ok {s s' : k.State} {rest : List Char} (h : k.step rest s = .ok s') :
    (takes k.keyword (lineOf rest) = false ∧ k.members s' = k.members s) ∨
      (takes k.keyword (lineOf rest) = true ∧ ∃ e : Entry, k.members s' = k.members s ++ [e] ∧ e.Tidy) := by
  have hl := lineFeed_not_mem_lineOf rest
  cases hk with
  | enumeration =>
    have htakes : takes "enum".toList (lineOf rest) = (memberLine? (lineOf rest)).isSome := if_pos rfl
    rcases of_countMember_eq_ok h with ⟨hline, rfl⟩ | ⟨m, text, hline, hmembers⟩
    · exact .inl ⟨htakes.trans (by rw [hline]; rfl), rfl⟩
    · obtain ⟨hname, hcomment⟩ := of_memberLine?_eq_some hline
      exact .inr ⟨htakes.trans (by rw [hline]; rfl), _, hmembers, .of_subset hl hname hcomment _⟩
  | struct =>
    have htakes : takes "struct".toList (lineOf rest) = (fieldLine? (lineOf rest)).isSome := if_neg (by decide)
    rcases of_addField_eq_ok h with ⟨hline, rfl⟩ | ⟨e, hline, rfl⟩
    · exact .inl ⟨htakes.trans (by rw [hline]; rfl), rfl⟩
    · exact .inr ⟨htakes.trans (by rw [hline]; rfl), e, rfl, tidy_of_fieldLine? hl hline⟩

/-- The lines of a body that ends add a member each if they are taken for one. -/
theorem of_scanBody_eq_ok {s s' : k.State} {b v : List Char} (h : scanBody k.step s b = .ok (s', some v)) :
    ∃ added, k.members s' = k.members s ++ added ∧ (∀ e ∈ added, e.Tidy) ∧
      added.length = (bodyLines b).countP fun l => takes k.keyword (trim l) := by
  induction hn : b.length using Nat.strong_induction_on generalizing b s with
  | _ n ih =>
    subst hn
    have hnothing : s' = s → bodyLines b = [] → ∃ added, k.members s' = k.members s ++ added ∧ (∀ e ∈ added, e.Tidy) ∧
        added.length = (bodyLines b).countP fun l => takes k.keyword (trim l) := by
      rintro rfl hlines
      exact ⟨[], (List.append_nil _).symm, List.forall_mem_nil _, by rw [hlines]; rfl⟩
    by_cases hclosed : Closes b
    · -- The line that closes the body is none of its lines.
      have hsame : s' = s := by
        cases (hclosed.scanBody k.step s).symm.trans h
        rfl
      refine hnothing hsame ?_
      rcases exists_line_or_not_mem b with hl | ⟨l, rest, hl, rfl⟩
      · exact bodyLines_of_not_mem hl
      · rw [bodyLines_line hl, if_pos ((closes_line hl rest).mp hclosed)]
    rcases exists_line_or_not_mem b with hl | ⟨l, rest, hl, rfl⟩
    · by_cases hne : b = []
      · subst hne
        cases (scanBody_nil k.step s).symm.trans h
        exact hnothing rfl (bodyLines_of_not_mem hl)
      · cases (eq_bodyEnd_of_scanBody h).trans (bodyEnd_last hne hl hclosed)
    · have hbrace : '\x7d' ∉ l := (closes_line hl rest).not.mp hclosed
      rw [scanBody_line hl hbrace] at h
      obtain ⟨s₁, hstep, h⟩ := exists_of_bind_eq_ok h
      obtain ⟨added, hmembers, htidy, hlength⟩ := ih rest.length (by simp only [List.length_append, List.length_cons]; omega) h rfl
      rw [bodyLines_line hl, if_neg hbrace, List.countP_cons]
      rcases of_step_eq_ok hk hstep with ⟨htakes, hsame⟩ | ⟨htakes, e, hmore, he⟩
      · rw [lineOf_line hl] at htakes
        exact ⟨added, by rw [hmembers, hsame], htidy, by rw [hlength, htakes]; rfl⟩
      · rw [lineOf_line hl] at htakes
        refine ⟨e :: added, by rw [hmembers, hmore, List.append_assoc]; rfl, List.forall_mem_cons.mpr ⟨he, htidy⟩, ?_⟩
        rw [List.length_cons, hlength, htakes]
        rfl

end

/-! ### Groups -/

theorem unended_or_detached (u : List Char) : Unended u ∨ Detached [] u := by
  by_cases h : Unended u
  · exact .inl h
  · refine .inr ⟨fun hne => ?_, fun _ hm => absurd rfl hm⟩
    by_contra hlast
    exact h ⟨hne, hlast⟩

theorem detached_of_path {ev : Evaluator} {text : List Char} {a b : Definitions × List Char}
    (h : ReflTransGen (Turn ev text) a b) (ha : Detached [] a.2) : Detached [] b.2 := by
  induction h with
  | refl => exact ha
  | tail _ hturn ih => exact hturn.detached ih

/-- Where a body opens at this place, one of its lines is taken for a member. -/
def Populated (rest : List Char) : Prop :=
  ∀ keyword ∈ ["enum".toList, "struct".toList], ∀ name inside, opening? keyword rest = some (name, inside) →
    ∃ l ∈ bodyLines inside, takes keyword (trim l) = true

theorem Bodiless.populated {rest : List Char} (h : Bodiless rest) : Populated rest := by
  intro keyword hkeyword name inside hopen
  rcases List.mem_pair.mp hkeyword with rfl | rfl
  · cases h.enumeration.symm.trans hopen
  · cases h.struct.symm.trans hopen

/-- All groups have members. -/
def Definitions.Membered (d : Definitions) : Prop :=
  ∀ g ∈ d.enumerations ++ d.structs, g.members ≠ []

section
variable {ev : Evaluator} {text u : List Char} {d e : Definitions}

/-- Where reading comes to its end the body of a group ends behind its start. -/
theorem exists_scanBody_of_read (hpath : ReflTransGen (Turn ev text) (d, text) (e, u)) {k : Kind} (hk : KindAt ev text u e k)
    {name : String} {inside : List Char} (hopen : opening? k.keyword u = some (name, inside)) {g : Group} {v : List Char}
    (hread : k.read text u = some (.ok (some (g, v)))) {e' : Definitions} (hend : readFrom ev text u e = some (.ok (), e')) :
    ∃ s, scanBody k.step k.start inside = .ok (s, some v) ∧ g = ⟨name, k.members s, none⟩ := by
  obtain ⟨s, hbody, rfl⟩ := Kind.of_read_eq_some hopen hread
  refine ⟨s, ?_, rfl⟩
  rcases hscan : scanBody k.step k.start inside with f | ⟨s', _ | v'⟩
  · cases (readBody_of_fault hscan text).symm.trans hbody
  · -- Only in a text without a last line end does a body go round, and behind it reading would not come to its end.
    rcases unended_or_detached inside with hinside | hinside
    swap
    · rcases hinside.readBody_cases text k.step k.start with ⟨f, hfault⟩ | ⟨s₁, v₁, -, hscan', -⟩
      · cases hfault.symm.trans hbody
      · cases hscan.symm.trans hscan'
    have hbrace : '\x7d' ∉ inside.dropLast := by
      intro hbrace
      obtain ⟨v₁, -, -, hv₁, -⟩ := hinside.bodyEnd_closed hbrace
      cases (eq_bodyEnd_of_scanBody hscan).trans hv₁
    rcases unended_or_detached text with htext | htext
    · exact absurd hend (htext.not_returns (goes_of_path hpath) hk hopen hinside hbrace hread e e')
    · obtain ⟨start, -, rfl, -⟩ := brace_not_mem_opening k.keyword_brace hopen
      have hu := detached_of_path hpath htext
      exact absurd ((hu.behind (by decide) (by decide)).lines hinside.ne_nil) hinside.last
  · cases (readBody_of_scan hscan text).symm.trans hbody
    rfl

/-! ### What is read at a place -/

theorem Definitions.tidy_empty : ({} : Definitions).Tidy :=
  ⟨List.forall_mem_nil _, List.forall_mem_nil _⟩

theorem Definitions.Tidy.note (h : e.Tidy) (o : Option Entry) : (e.note o).Tidy := by
  cases o <;> exact ⟨h.enumerations, h.structs⟩

theorem Definitions.membered_note_iff (o : Option Entry) : (e.note o).Membered ↔ e.Membered := by
  cases o <;> rfl

section
variable {k : Kind} (hk : KindAt ev text u e k)
include hk

theorem Definitions.Tidy.add (h : e.Tidy) {g : Group} (hg : g.Tidy) : (k.add e g).Tidy := by
  cases hk with
  | enumeration => exact ⟨List.forall_mem_append.mpr ⟨h.enumerations, by simpa using hg⟩, h.structs⟩
  | struct => exact ⟨h.enumerations, List.forall_mem_append.mpr ⟨h.structs, by simpa using hg⟩⟩

theorem Definitions.membered_add_iff (g : Group) : (k.add e g).Membered ↔ e.Membered ∧ g.members ≠ [] := by
  cases hk with
  | enumeration =>
    have hgroups : (e.addEnumeration g).Membered ↔ e.Membered ∧ g.members ≠ [] := by
      simp only [Membered, addEnumeration, List.forall_mem_append, List.forall_mem_singleton]
      exact and_right_comm
    exact hgroups
  | struct =>
    have hgroups : (e.addStruct g).Membered ↔ e.Membered ∧ g.members ≠ [] := by
      simp only [Membered, addStruct, List.forall_mem_append, List.forall_mem_singleton, and_assoc]
    exact hgroups

/-- Where a body of a kind opens, only its lines count. -/
theorem populated_iff_of_opening {name : String} {inside : List Char} (hopen : opening? k.keyword u = some (name, inside)) :
    Populated u ↔ ∃ l ∈ bodyLines inside, takes k.keyword (trim l) = true := by
  have hkeyword : k.keyword ∈ ["enum".toList, "struct".toList] := by
    cases hk with
    | enumeration => exact List.mem_cons_self
    | struct => exact List.mem_cons_of_mem _ List.mem_cons_self
  refine ⟨fun h => h k.keyword hkeyword name inside hopen, fun h keyword hmem name' inside' hopen' => ?_⟩
  have hsame : k.keyword = keyword := by
    rcases List.mem_pair.mp hmem with rfl | rfl
    · have henumeration : KindAt ev text u e _ := .enumeration
      exact hk.keyword_eq henumeration hopen hopen'
    · have hstruct : KindAt ev text u e _ := .struct
      exact hk.keyword_eq hstruct hopen hopen'
  subst hsame
  cases hopen.symm.trans hopen'
  exact h

end

/-- What is read at a place keeps to its lines, and it has members if lines of its body are taken for them. -/
theorem tidy_and_membered_of_readDefinition (hpath : ReflTransGen (Turn ev text) (d, text) (e, u))
    {next : Option (List Char)} {e₁ e' : Definitions} (hread : readDefinition ev text u e = some (.ok next, e₁))
    (hend : readFrom ev text u e = some (.ok (), e')) (he : e.Tidy) :
    e₁.Tidy ∧ (e₁.Membered ↔ e.Membered ∧ Populated u) := by
  rcases of_readDefinition_eq_ok hread with ⟨k, hk, name, inside, g, v, hopen, hgroup, -, rfl⟩ | ⟨hnone, -, rfl⟩
  · obtain ⟨s, hscan, rfl⟩ := exists_scanBody_of_read hpath hk hopen hgroup hend
    obtain ⟨added, hmembers, htidy, hlength⟩ := of_scanBody_eq_ok hk hscan
    have hempty : k.members k.start = [] := by cases hk <;> rfl
    rw [hempty, List.nil_append] at hmembers
    have hname : IsWord name.toList := by
      obtain ⟨gap, word, gap', -, hword, -, rfl, -⟩ := opening?_eq_some_iff.mp hopen
      rwa [String.toList_ofList]
    refine ⟨he.add hk ⟨hname, rfl, by rwa [hmembers]⟩, ?_⟩
    rw [Definitions.membered_add_iff hk, populated_iff_of_opening hk hopen, hmembers, ← List.length_pos_iff, hlength,
      List.countP_pos_iff]
  · exact ⟨he.note _, (Definitions.membered_note_iff _).trans (and_iff_left hnone.populated).symm⟩

/-- All groups get members just if the bodies on the way have lines that are taken for them. -/
theorem tidy_and_membered_of_path {a b : Definitions × List Char} (hpath : ReflTransGen (Turn ev text) a b) {e' : Definitions}
    (hstop : Stops ev text b (.ok (), e')) (hbefore : ReflTransGen (Turn ev text) (d, text) a) (ha : a.1.Tidy) :
    e'.Tidy ∧ (e'.Membered ↔ a.1.Membered ∧ ∀ c, ReflTransGen (Turn ev text) a c → Populated c.2) := by
  induction hpath using ReflTransGen.head_induction_on with
  | refl =>
    have hend := hstop.readFrom
    cases hstop with
    | finish e =>
      rw [forall_path_of_stop (not_turn_nil _)]
      exact ⟨ha, (and_iff_left (Bodiless.populated ⟨rfl, rfl⟩)).symm⟩
    | unended hne hread hnext =>
      rw [forall_path_of_stop (not_turn_of_last hread hnext)]
      exact tidy_and_membered_of_readDefinition hbefore hread hend ha
  | @head a c hturn hrest ih =>
    have hend : readFrom ev text a.2 a.1 = some (.ok (), e') := (readFrom_of_path (hrest.head hturn)).trans hstop.readFrom
    have hstep : c.1.Tidy ∧ (c.1.Membered ↔ a.1.Membered ∧ Populated a.2) := by
      cases hturn with
      | body hne hread => exact tidy_and_membered_of_readDefinition hbefore hread hend ha
      | line hne hread hnext => exact tidy_and_membered_of_readDefinition hbefore hread hend ha
    obtain ⟨htidy, hmembered⟩ := ih (hbefore.tail hturn) hstep.1
    rw [forall_path_of_turn hturn, hmembered, hstep.2, and_assoc]
    exact ⟨htidy, Iff.rfl⟩

theorem tidy_and_membered_of_read {d : Definitions} (h : read ev text {} = some (.ok (), d)) :
    d.Tidy ∧ (d.Membered ↔ ∀ e w, Visits ev text {} e w → Populated w) := by
  obtain ⟨b, hpath, hstop⟩ := readFrom_eq_some_iff.mp h
  obtain ⟨htidy, hmembered⟩ := tidy_and_membered_of_path hpath hstop .refl Definitions.tidy_empty
  refine ⟨htidy, hmembered.trans ?_⟩
  constructor
  · rintro ⟨-, hall⟩ e w hvisits
    exact hall _ hvisits
  · exact fun hall => ⟨List.forall_mem_nil _, fun c hc => hall c.1 c.2 hc⟩

end

/-! ### Classes of a header -/

/-- The classes of the enumerations and structs of a header all have bodies exactly when every body that reading comes to
has a line that is taken for a member. -/
theorem classes_bodied_iff (ev : Evaluator) {c : List Char} {d : Definitions}
    (h : read ev (unifyLineEnds c) {} = some (.ok (), d)) :
    ∃ text, classesText d = .ok text ∧ (classRows d).map ClassRow.text = Emit.splitLines text.toList ∧
      ((classRows d).filter ClassRow.opens).map ClassRow.text =
        (d.enumerations.map enumerationHead ++ d.structs.map structHead).map String.toList ∧
      (Bodied (classRows d) ↔ ∀ e w, Visits ev (unifyLineEnds c) {} e w → Populated w) := by
  obtain ⟨htidy, hmembered⟩ := tidy_and_membered_of_read h
  exact ⟨_, classesText_eq d, htidy.text_classRows, classRows_opens d, htidy.bodied_iff.trans hmembered⟩

/-- An enumeration and a struct with one member line each. -/
def lampText : List Char :=
  "enum Level \x7b\n    LOW,\n\x7d;\n\nstruct Lamp \x7b\n    int level;\n\x7d;\n\n".toList

def lampDefinitions : Definitions where
  enumerations := [⟨"Level", [⟨"LOW", some "0", some ""⟩], none⟩]
  structs := [⟨"Lamp", [⟨"level", some "int", some ""⟩], none⟩]

theorem classes_bodied_lamp :
    read (.ofText Initializer.evaluate) (unifyLineEnds lampText) {} = some (.ok (), lampDefinitions) ∧
    ∃ text, classesText lampDefinitions = .ok text ∧
      (classRows lampDefinitions).map ClassRow.text = Emit.splitLines text.toList ∧ Bodied (classRows lampDefinitions) ∧
      ∀ e w, Visits (.ofText Initializer.evaluate) (unifyLineEnds lampText) {} e w → Populated w := by
  have hlow : memberLine? (trim "    LOW,".toList) = some ⟨"LOW", none, none⟩ := rfl
  have hcount : ["    LOW,".toList].foldlM (fun s l => countMember Initializer.evaluate s (trim l)) ⟨[], 0⟩ =
      .ok ⟨[⟨"LOW", some "0", some ""⟩], 1⟩ := by
    rw [List.foldlM_cons, countMember_of_line hlow (counted_eq (Decimal.tooLong_eq_false 1 (by decide) (by decide)))]
    rfl
  have hfields : ["    int level;".toList].foldlM (fun s l => addField s (trim l)) [] =
      .ok [⟨"level", some "int", some ""⟩] := rfl
  have hlevel : OpensBody "enum".toList "Level" ["enum Level \x7b".toList] := ⟨' ', .inl rfl, by decide⟩
  have hlamp : OpensBody "struct".toList "Lamp" ["struct Lamp \x7b".toList] := ⟨' ', .inl rfl, by decide⟩
  have hlines := ((Reads.enumeration hlevel (by decide) (by decide) hcount {}).append
    (.struct hlamp (by decide) (by decide) hfields _)).read
  have hread : read (.ofText Initializer.evaluate) (unifyLineEnds lampText) {} = some (.ok (), lampDefinitions) := by
    rw [unifyLineEnds_of_not_mem (by decide)]
    exact hlines
  obtain ⟨text, htext, hrows, -, hiff⟩ := classes_bodied_iff _ hread
  have hbodied : Bodied (classRows lampDefinitions) := (tidy_and_membered_of_read hread).1.bodied_iff.mpr (by decide)
  exact ⟨hread, text, htext, hrows, hbodied, hiff.mp hbodied⟩

/-- An enumeration that is opened and shut on one line. -/
def flatText : List Char :=
  "enum Level \x7b LOW, HIGH \x7d;\n".toList

/-- None of the members is taken in, and the class is left without a body. -/
theorem classes_bodiless_flat :
    read (.ofText Initializer.evaluate) (unifyLineEnds flatText) {} = some (.ok (), ⟨[], [⟨"Level", [], none⟩], []⟩) ∧
    ∃ text, classesText ⟨[], [⟨"Level", [], none⟩], []⟩ = .ok text ∧
      (classRows ⟨[], [⟨"Level", [], none⟩], []⟩).map ClassRow.text = Emit.splitLines text.toList ∧
      ¬Bodied (classRows ⟨[], [⟨"Level", [], none⟩], []⟩) := by
  have hname : IsName "Level" := by decide
  have hopen : opening? "enum".toList flatText = some ("Level", " LOW, HIGH \x7d;\n".toList) :=
    opening?_line "enum".toList hname (.inl rfl) _
  have hclosed : Closes " LOW, HIGH \x7d;\n".toList := (closes_line (l := " LOW, HIGH \x7d;".toList) (by decide) []).mpr (by decide)
  have hkind : KindAt (.ofText Initializer.evaluate) flatText flatText {} _ := .enumeration
  have hbody := turn_of_read hkind hopen (by
    rw [Kind.read_eq _ hopen, readBody_of_scan (hclosed.scanBody _ _)]
    rfl)
  have hbodiless : Bodiless " LOW, HIGH \x7d;\n".toList := ⟨rfl, rfl⟩
  have hline := Turn.line (by decide) (hbodiless.readDefinition (.ofText Initializer.evaluate) flatText ⟨[], [⟨"Level", [], none⟩], []⟩)
    (afterLine?_line (l := " LOW, HIGH \x7d;".toList) (by decide) [])
  have hread : read (.ofText Initializer.evaluate) (unifyLineEnds flatText) {} = some (.ok (), ⟨[], [⟨"Level", [], none⟩], []⟩) := by
    rw [unifyLineEnds_of_not_mem (by decide)]
    exact read_of_path (.tail (.single hbody) hline)
  have htidy := (tidy_and_membered_of_read hread).1
  exact ⟨hread, _, classesText_eq _, htidy.text_classRows, htidy.bodied_iff.not.mpr (by decide)⟩

end CodeBridge.Header
