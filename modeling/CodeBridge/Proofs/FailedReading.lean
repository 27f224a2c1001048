import CodeBridge.Proofs.LastLine
import CodeBridge.Proofs.TrailingComments

/-! # What a failed reading leaves

Reading a text of whole lines can fail only in the body of an enumeration. The definitions found until then are those
that the text before the enumeration gives on its own, if the values of initialisers hang on nothing but their texts. No
turn on the way looks at the text from there on: a body that is passed ends with a line that has a closing brace, and the
line at which reading fails has none (`path_cut`). -/

namespace CodeBridge.Header

open Text Relation
open Evaluator (readFrom)

/-! ### Where reading fails -/

section
variable {ev : Evaluator} {whole : List Char}

/-- A fault is raised at a place that reading comes to, with the definitions found on the way there. -/
theorem exists_path_of_fault {rest : List Char} {d d' : Definitions} {f : Fault}
    (h : readFrom ev whole rest d = some (.error f, d')) :
    ∃ x, x ≠ [] ∧ ReflTransGen (Turn ev whole) (d, rest) (d', x) ∧ readDefinition ev whole x d' = some (.error f, d') := by
  obtain ⟨⟨e, x⟩, hpath, hstop⟩ := readFrom_eq_some_iff.mp h
  cases hstop with
  | fault hne hread =>
    obtain rfl := (of_readDefinition_eq_error hread).2
    exact ⟨x, hne, hpath, hread⟩

/-- What fails is an enumeration, and its line is not closed before its body is looked at. -/
theorem enumeration_of_fault {x : List Char} {d d' : Definitions} {f : Fault}
    (h : readDefinition ev whole x d = some (.error f, d')) :
    ∃ p, opening? "enum".toList x = some p ∧ readEnumeration ev d whole x = some (.error f) ∧ ¬Closes x := by
  obtain ⟨⟨k, hk, name, inside, hopen, hfault⟩, -⟩ := of_readDefinition_eq_error h
  have hclosed : ¬Closes x := by
    intro hc
    obtain ⟨-, -, g, hgroup⟩ := hc.read hopen whole
    cases hgroup.symm.trans hfault
  cases hk with
  | enumeration => exact ⟨_, hopen, hfault, hclosed⟩
  | struct => exact absurd hfault (struct_read_ne_fault hopen f)

end

/-! ### The text before the place -/

theorem Closes.of_append {v x : List Char} (hv : Detached [] v) (hne : v ≠ []) (h : Closes (v ++ x)) : Closes v := by
  obtain ⟨l, rest, hl, rfl⟩ := hv.exists_line hne
  rw [List.append_assoc, List.cons_append, closes_line hl] at h
  exact (closes_line hl rest).mpr h

theorem Detached.line_append {l v : List Char} (h : Detached [] v) : Detached [] (l ++ '\n' :: v) where
  lines _ := by
    rw [List.getLast?_append_cons]
    by_cases hne : v = []
    · subst hne
      rfl
    · rw [List.getLast?_cons_of_ne_nil hne]
      exact h.lines hne
  closed _ hmore := absurd rfl hmore

theorem Detached.of_append_right {a v : List Char} (hne : v ≠ []) (h : Detached [] v) : Detached [] (a ++ v) where
  lines _ := by
    rw [List.getLast?_append_of_ne_nil a hne]
    exact h.lines hne
  closed _ hmore := absurd rfl hmore

/-- No body opens in a part of a text before which none opens in the whole. -/
theorem Bodiless.of_append {v x : List Char} (h : Bodiless (v ++ x)) : Bodiless v := by
  have hnone : ∀ {keyword : List Char}, '\x7d' ∉ keyword → opening? keyword (v ++ x) = none → opening? keyword v = none := by
    intro keyword hkeyword hall
    by_contra hsome
    obtain ⟨⟨name, inside⟩, hopen⟩ := Option.ne_none_iff_exists'.mp hsome
    obtain ⟨start, -, rfl, hmore⟩ := brace_not_mem_opening hkeyword hopen
    rw [List.append_assoc, List.cons_append, hmore] at hall
    cases hall
  exact ⟨hnone (by decide) h.enumeration, hnone (by decide) h.struct⟩

section
variable {value : String → Except Fault (String × Int)} {whole u x y : List Char} {d e : Definitions}

/-- Where initialisers stand for the same wherever they are seen, a kind reads its lines alike in every text. -/
theorem KindAt.of_text {k : Kind} (h : KindAt (.ofText value) whole u d k) (whole' u' : List Char) (d' : Definitions) :
    KindAt (.ofText value) whole' u' d' k ∧ ∃ f, k.step = onLine f := by
  cases h with
  | enumeration => exact ⟨.enumeration, countMember value, rfl⟩
  | struct => exact ⟨.struct, addField, rfl⟩

/-- A line that is passed is passed in the same way when the text is cut somewhere behind it. -/
theorem turn_line_cut (hne : u ≠ []) (hu : Detached [] u) (hread : readDefinition (.ofText value) whole u d = some (.ok none, e))
    (hnext : afterLine? u = some (y ++ x)) (hy : Detached [] y) :
    ∃ v, u = v ++ x ∧ Detached [] v ∧ ∀ whole', Turn (.ofText value) whole' (d, v) (e, y) := by
  obtain ⟨l, rest, hl, rfl⟩ := hu.exists_line hne
  rw [afterLine?_line hl] at hnext
  obtain rfl : rest = y ++ x := Option.some.inj hnext
  have hsplit : l ++ '\n' :: (y ++ x) = l ++ '\n' :: y ++ x := by rw [List.append_assoc, List.cons_append]
  obtain ⟨_, _, _, _, _, _, _, _, hnone, _⟩ | ⟨hbodiless, -, rfl⟩ := of_readDefinition_eq_ok hread
  · cases hnone
  have hcut : Bodiless (l ++ '\n' :: y) := Bodiless.of_append (hsplit ▸ hbodiless)
  refine ⟨l ++ '\n' :: y, hsplit, hy.line_append, fun whole' => .line (by simp) ?_ (afterLine?_line hl y)⟩
  rw [hcut.readDefinition, lineOf_line hl, lineOf_line hl]

/-- A body that is passed is passed in the same way when the text is cut somewhere behind the line that closes it. -/
theorem turn_body_cut (hu : Detached [] u) (hread : readDefinition (.ofText value) whole u d = some (.ok (some (y ++ x)), e))
    (hx : x ≠ []) (hopen : ¬Closes x) (hy : Detached [] y) :
    ∃ v, u = v ++ x ∧ Detached [] v ∧ ∀ whole', Turn (.ofText value) whole' (d, v) (e, y) := by
  obtain ⟨k, hk, name, inside, g, v, hopening, hgroup, hnext, rfl⟩ | ⟨-, hnone, -⟩ := of_readDefinition_eq_ok hread
  swap
  · cases hnone
  cases hnext
  obtain ⟨start, -, hsplit, hall⟩ := brace_not_mem_opening k.keyword_brace hopening
  subst hsplit
  obtain ⟨s, hbody, rfl⟩ := Kind.of_read_eq_some hopening hgroup
  obtain ⟨-, f, hf⟩ := hk.of_text whole [] d
  have hscan : scanBody k.step k.start inside = .ok (s, some (y ++ x)) := by
    rcases (hu.behind (by decide) (by decide)).readBody_cases whole k.step k.start with ⟨f, hfault⟩ | ⟨s', v', -, hscan, hbody'⟩
    · cases hfault.symm.trans hbody
    · cases hbody'.symm.trans hbody
      exact hscan
  -- The body ends with a line that has a brace. This is not the line at `x`, so the text is cut behind it.
  obtain ⟨⟨ls, hls, rfl⟩, hend⟩ := openUpTo_of_bodyEnd (eq_bodyEnd_of_scanBody hscan).symm
  have hclosed : Closes (y ++ x) := hend.resolve_left (List.append_ne_nil_of_right_ne_nil y hx)
  have hne : y ≠ [] := by
    rintro rfl
    exact hopen hclosed
  rw [hf, scanBody_lines hls] at hscan
  obtain ⟨s', hfold, hscan⟩ := exists_of_bind_eq_ok hscan
  cases (hclosed.scanBody _ s').symm.trans hscan
  have hscan' : scanBody k.step k.start (unlines ls ++ y) = .ok (s, some y) := by
    rw [hf, scanBody_lines hls, hfold]
    exact (hclosed.of_append hy hne).scanBody _ s
  refine ⟨start ++ '\x7b' :: (unlines ls ++ y), by simp, ?_, fun whole' => ?_⟩
  · have hdetached : Detached [] ((start ++ '\x7b' :: unlines ls) ++ y) := .of_append_right hne hy
    rwa [List.append_assoc, List.cons_append] at hdetached
  · refine turn_of_read (hk.of_text whole' _ d).1 (hall _) ?_
    rw [k.read_eq (hall _), readBody_of_scan hscan']
    rfl

theorem Turn.detached {ev : Evaluator} {a b : Definitions × List Char} (h : Turn ev whole a b) (ha : Detached [] a.2) :
    Detached [] b.2 := by
  cases h with
  | body hne hread =>
    rcases ha.readDefinition_cases ev whole _ with ⟨f, hfault⟩ | ⟨d', hnone⟩ | ⟨v, d', hv, -, hsome⟩
    · cases hfault.symm.trans hread
    · cases hnone.symm.trans hread
    · cases hsome.symm.trans hread
      exact ha.of_isSuffix hv
  | line hne hread hnext => exact ha.of_isSuffix (suffix_of_afterLine?_eq_some hnext)

/-- The way through a text to a line that has no brace is the way through the text before this line. -/
theorem path_cut {a b : Definitions × List Char} (hpath : ReflTransGen (Turn (.ofText value) whole) a b) (ha : Detached [] a.2)
    (hb : b.2 ≠ []) (hopen : ¬Closes b.2) :
    ∃ v, a.2 = v ++ b.2 ∧ Detached [] v ∧ ∀ whole', ReflTransGen (Turn (.ofText value) whole') (a.1, v) (b.1, []) := by
  induction hpath using ReflTransGen.head_induction_on with
  | refl => exact ⟨[], rfl, .nil [], fun _ => .refl⟩
  | @head a c hturn _ ih =>
    obtain ⟨y, hc, hy, hrest⟩ := ih (hturn.detached ha)
    have hcut : ∃ v, a.2 = v ++ b.2 ∧ Detached [] v ∧ ∀ whole', Turn (.ofText value) whole' (a.1, v) (c.1, y) := by
      cases hturn with
      | body hne hread =>
        obtain rfl := hc
        exact turn_body_cut ha hread hb hopen hy
      | line hne hread hnext =>
        obtain rfl := hc
        exact turn_line_cut hne ha hread hnext hy
    obtain ⟨v, hsplit, hv, hfirst⟩ := hcut
    exact ⟨v, hsplit, hv, fun whole' => (hrest whole').head (hfirst whole')⟩

/-- A way that leads to the end of the text is all of its reading. -/
theorem read_of_path {ev : Evaluator} {v : List Char} (hpath : ReflTransGen (Turn ev v) (d, v) (e, [])) :
    read ev v d = some (.ok (), e) :=
  readFrom_eq_some_iff.mpr ⟨_, hpath, .finish e⟩

end

/-! ### Files -/

/-- A place of a text that does not start with a line feed is a place of the file. -/
theorem exists_take_of_unifyLineEnds {c a b : List Char} (h : unifyLineEnds c = a ++ b) (hb : b.head? ≠ some '\n') :
    ∃ p, unifyLineEnds (c.take p) = a ∧ unifyLineEnds (c.drop p) = b := by
  fun_induction unifyLineEnds c generalizing a with
  | case1 rest ih =>
    cases a with
    | nil =>
      rw [← show _ = b from h] at hb
      exact absurd rfl hb
    | cons z a =>
      obtain ⟨rfl, htail⟩ := List.cons.inj h
      obtain ⟨p, rfl, hdrop⟩ := ih htail
      exact ⟨p + 2, rfl, hdrop⟩
  | case2 rest hrest ih =>
    cases a with
    | nil =>
      rw [← show _ = b from h] at hb
      exact absurd rfl hb
    | cons z a =>
      obtain ⟨rfl, htail⟩ := List.cons.inj h
      obtain ⟨p, rfl, hdrop⟩ := ih htail
      refine ⟨p + 1, ?_, hdrop⟩
      rw [List.take_succ_cons, unifyLineEnds]
      intro next e
      obtain ⟨more, hmore⟩ : '\n' :: next <+: rest := e ▸ List.take_prefix p rest
      exact hrest (next ++ more) (by rw [← hmore, List.cons_append])
  | case3 z rest h₁ h₂ ih =>
    cases a with
    | nil => exact ⟨0, rfl, by rw [List.drop_zero, unifyLineEnds, h, List.nil_append] <;> assumption⟩
    | cons z' a =>
      obtain ⟨rfl, htail⟩ := List.cons.inj h
      obtain ⟨p, rfl, hdrop⟩ := ih htail
      refine ⟨p + 1, ?_, hdrop⟩
      rw [List.take_succ_cons, unifyLineEnds]
      · exact fun next e => absurd e h₂
      · exact h₂
  | case4 =>
    obtain ⟨rfl, rfl⟩ := List.append_eq_nil_iff.mp h.symm
    exact ⟨0, rfl, rfl⟩

/-- Reading a file of whole lines fails only at an enumeration. It leaves the definitions that were found on the way
there, which are those that the file before that place gives, and all that were there at the start. -/
theorem read_fault_at_enumeration (value : String → Except Fault (String × Int)) {c : List Char}
    (h : c = [] ∨ c.getLast? = some '\n') {d d' : Definitions} {f : Fault}
    (hread : read (.ofText value) (unifyLineEnds c) d = some (.error f, d')) :
    ∃ p, p < c.length ∧ unifyLineEnds c = unifyLineEnds (c.take p) ++ unifyLineEnds (c.drop p) ∧
      (∃ name inside, opening? "enum".toList (unifyLineEnds (c.drop p)) = some (name, inside)) ∧
      readEnumeration (.ofText value) d' (unifyLineEnds c) (unifyLineEnds (c.drop p)) = some (.error f) ∧
      ReflTransGen (Turn (.ofText value) (unifyLineEnds c)) (d, unifyLineEnds c) (d', unifyLineEnds (c.drop p)) ∧
      read (.ofText value) (unifyLineEnds (c.take p)) d = some (.ok (), d') ∧ d.Grown d' := by
  have hlines : Detached [] (unifyLineEnds c) := by
    rcases h with rfl | h
    · exact .nil []
    · exact .of_suffix_line (unifyLineEnds_lines (List.singleton_suffix_iff_getLast?_eq_some.mpr h))
  obtain ⟨x, hx, hpath, hfault⟩ := exists_path_of_fault hread
  obtain ⟨⟨name, inside⟩, hopen, hgroup, hclosed⟩ := enumeration_of_fault hfault
  obtain ⟨v, hsplit, hv, hcut⟩ := path_cut hpath hlines hx hclosed
  have hfirst : x.head? ≠ some '\n' := by
    obtain ⟨gap, word, gap', -, -, -, -, rfl⟩ := opening?_eq_some_iff.mp hopen
    exact fun e => absurd (Option.some.inj e) (by decide)
  obtain ⟨p, rfl, rfl⟩ := exists_take_of_unifyLineEnds hsplit hfirst
  have hp : p < c.length := by
    by_contra hle
    rw [List.drop_eq_nil_of_le (Nat.le_of_not_lt hle)] at hx
    exact hx rfl
  exact ⟨p, hp, hsplit, ⟨name, inside, hopen⟩, hgroup, hpath, read_of_path (hcut _), grown_of_path hpath⟩

/-- An enumeration whose second member is refused. -/
def refusedEnumeration : List Char :=
  bodyText "enum".toList sampleHeading
    (commentedLines Member.text [sampleMember (some (.spaces 0))] (sampleMember none) "one".toList []) "\x7d;\n".toList

/-- A macro before that enumeration. -/
def refusedText : List Char :=
  "#define N 3\nenum Level \x7b\n    A = 1,\n    A = 1 /* one */\n\x7d;\n".toList

/-- The macro stays, and the first member of the enumeration is not kept. -/
theorem read_fault_at_level : refusedText.getLast? = some '\n' ∧
    ∃ f p, read (.ofText Initializer.evaluate) (unifyLineEnds refusedText) {} = some (.error f, ⟨[⟨"N", some "3", some ""⟩], [], []⟩) ∧
      readEnumeration (.ofText Initializer.evaluate) ⟨[⟨"N", some "3", some ""⟩], [], []⟩ (unifyLineEnds refusedText)
        (unifyLineEnds (refusedText.drop p)) = some (.error f) ∧
      read (.ofText Initializer.evaluate) (unifyLineEnds (refusedText.take p)) {} =
        some (.ok (), ⟨[⟨"N", some "3", some ""⟩], [], []⟩) := by
  have hlast : refusedText.getLast? = some '\n' := rfl
  have hunify : unifyLineEnds refusedText = refusedText := unifyLineEnds_of_not_mem (by decide)
  have hsplit : refusedText = "#define N 3".toList ++ '\n' :: refusedEnumeration := by decide +kernel
  have hvalues : ∀ o ∈ ordinals 0 (([sampleMember (some (.spaces 0))] ++ sampleMember none :: []).map Row.plain),
      o.value.natAbs < 10 ^ 1 := by decide
  obtain ⟨f, hf⟩ := readEnumeration_unparted printed_one sampleHeading (closes_closing []) ⟨[⟨"N", some "3", some ""⟩], [], []⟩
    refusedText (fun o ho => Decimal.tooLong_eq_false 1 (by decide) (hvalues o ho)) (by decide) rfl rfl (by decide)
  -- The macro is noted, and then the enumeration fails.
  have hbodiless : Bodiless refusedText := ⟨rfl, rfl⟩
  have hconstant : constant? (lineOf refusedText) = some ⟨"N", some "3", some ""⟩ := by decide +kernel
  have hmacro := hbodiless.readDefinition (.ofText Initializer.evaluate) refusedText {}
  rw [hconstant] at hmacro
  have hafter : afterLine? refusedText = some refusedEnumeration := by
    rw [hsplit]
    exact afterLine?_line (by decide) _
  have hlevel : IsName "Level" := by decide
  have hopen : opening? "enum".toList refusedEnumeration = some _ := opening?_line "enum".toList hlevel (.inl rfl) _
  have hfault := fault_of_read .enumeration hopen hf
  have hread : read (.ofText Initializer.evaluate) refusedText {} = some (.error f, ⟨[⟨"N", some "3", some ""⟩], [], []⟩) :=
    (readFrom_of_none (by decide) hmacro hafter).trans (readFrom_of_error (by decide) hfault)
  rw [← hunify] at hread
  obtain ⟨p, -, -, -, hgroup, -, hstart, -⟩ := read_fault_at_enumeration Initializer.evaluate (.inr hlast) hread
  exact ⟨hlast, f, p, hread, hgroup, hstart⟩

end CodeBridge.Header
