import CodeBridge.Proofs.Tags

/-! # Where the words of a name start

The machine behind snake case holds one character back and writes underscores before and behind it. On ASCII texts it
does what can be said by places: an underscore goes before every capital, the first character apart, that has a small
letter right before or right behind it; then all is written in small letters, each run of underscores becomes one, and
one at the start is dropped. What comes out has no capitals, no two underscores together and none at the start, and such
a text is its own snake case. -/

namespace CodeBridge.Name

open Text

/-! ### The words of a text -/

/-- Whether a word starts at this place of a text, behind the first: there is a capital, and right before or right behind
it a small letter. -/
def startsWord (cs : List Char) (i : Nat) : Bool :=
  0 < i && cs[i]?.any Char.isUpper && (cs[i - 1]?.any Char.isLower || cs[i + 1]?.any Char.isLower)

/-- A text with an underscore before each place where a word starts. -/
def marked (cs : List Char) : List Char :=
  cs.zipIdx.flatMap fun p => if startsWord cs p.2 then ['_', p.1] else [p.1]

/-- A text in which each run of underscores has become one. -/
def squeezed (cs : List Char) : List Char :=
  cs.destutter fun a b => ¬(a = '_' ∧ b = '_')

theorem joinUnderscores_eq_squeezed (cs : List Char) : joinUnderscores cs = squeezed cs := by
  fun_induction joinUnderscores cs with
  | case1 rest ih =>
    rw [ih, squeezed, squeezed, List.destutter_cons_cons, if_neg (by simp), List.destutter_cons']
  | case2 c rest hnext ih =>
    rw [ih]
    cases rest with
    | nil => rfl
    | cons d rest =>
      have hapart : ¬(c = '_' ∧ d = '_') := by
        rintro ⟨rfl, rfl⟩
        exact hnext rest rfl rfl
      rw [squeezed, squeezed, List.destutter_cons_cons, if_pos hapart, List.destutter_cons']
  | case3 => rfl

/-- Whether a word starts at a character between these two. -/
def breaks (before : Option Char) (c : Char) (next : Option Char) : Bool :=
  before.isSome && c.isUpper && (before.any Char.isLower || next.any Char.isLower)

/-- The rest of a text behind a character, in small letters, with an underscore before each word. -/
def spaced (before : Option Char) : List Char → List Char
  | [] => []
  | c :: rest => (if breaks before c rest.head? then ['_'] else []) ++ c.toLower :: spaced (some c) rest

/-- Whether a word starts at a place is seen from its neighbours. -/
theorem startsWord_length (init : List Char) (c : Char) (rest : List Char) :
    startsWord (init ++ c :: rest) init.length = breaks init.getLast? c rest.head? := by
  have hbehind : (init ++ c :: rest)[init.length + 1]? = rest.head? := by
    rw [List.getElem?_append_right (Nat.le_add_right _ 1), Nat.add_sub_cancel_left, List.getElem?_cons_succ,
      List.head?_eq_getElem?]
  cases init using List.reverseRecOn with
  | nil => rfl
  | append_singleton init b =>
    have hbefore : (init ++ [b] ++ c :: rest)[(init ++ [b]).length - 1]? = some b := by simp
    have hplace : (init ++ [b] ++ c :: rest)[(init ++ [b]).length]? = some c := by simp
    rw [startsWord, hbehind, hbefore, hplace, breaks, List.getLast?_concat]
    simp

/-- What is written for the characters behind `init` depends on the last of `init` only. -/
theorem map_toLower_marked_append (init rest : List Char) :
    ((rest.zipIdx init.length).flatMap fun p => if startsWord (init ++ rest) p.2 then ['_', p.1] else [p.1]).map Char.toLower =
      spaced init.getLast? rest := by
  induction rest generalizing init with
  | nil => rfl
  | cons c rest ih =>
    have hrest := ih (init ++ [c])
    rw [List.length_append, List.length_singleton, List.append_assoc, List.singleton_append, List.getLast?_concat] at hrest
    rw [List.zipIdx_cons, List.flatMap_cons, List.map_append, hrest, spaced, startsWord_length]
    split
    · rfl
    · rfl

theorem map_toLower_marked (cs : List Char) : (marked cs).map Char.toLower = spaced none cs :=
  map_toLower_marked_append [] cs

/-! ### Underscores side by side -/

theorem joinUnderscores_cons (c : Char) (cs : List Char) :
    joinUnderscores (c :: cs) = if c = '_' ∧ cs.head? = some '_' then joinUnderscores cs else c :: joinUnderscores cs := by
  split
  · next h =>
    obtain ⟨rfl, hhead⟩ := h
    obtain ⟨rest, rfl⟩ := List.head?_eq_some_iff.mp hhead
    rw [joinUnderscores]
  · next h =>
    rw [joinUnderscores]
    rintro rest rfl rfl
    exact h ⟨rfl, rfl⟩

theorem joinUnderscores_twice (a b : List Char) : joinUnderscores (a ++ '_' :: '_' :: b) = joinUnderscores (a ++ '_' :: b) := by
  induction a with
  | nil => rw [List.nil_append, List.nil_append, joinUnderscores]
  | cons c a ih =>
    have hhead : (a ++ '_' :: '_' :: b).head? = (a ++ '_' :: b).head? := by
      rw [List.head?_append, List.head?_append]
      rfl
    rw [List.cons_append, List.cons_append, joinUnderscores_cons, joinUnderscores_cons, hhead, ih]

/-! ### Steps of the machine -/

section
variable {c d : Char}

theorem allUpper_singleton (hc : c.toNat < 128) : allUpper [c] = c.isUpper := by
  have all : ∀ n : Fin 128, allUpper [Char.ofNat n] = (Char.ofNat n).isUpper := by decide
  exact of_ascii (p := fun c => allUpper [c] = c.isUpper) all hc

theorem allLower_singleton (hc : c.toNat < 128) : allLower [c] = c.isLower := by
  have all : ∀ n : Fin 128, allLower [Char.ofNat n] = (Char.ofNat n).isLower := by decide
  exact of_ascii (p := fun c => allLower [c] = c.isLower) all hc

theorem lowered_singleton (hc : c.toNat < 128) : lowered [c] = [c.toLower] := by
  have all : ∀ n : Fin 128, lowered [Char.ofNat n] = [(Char.ofNat n).toLower] := by decide
  exact of_ascii (p := fun c => lowered [c] = [c.toLower]) all hc

theorem lowered_eq_map {cs : List Char} (h : ∀ c ∈ cs, c.toNat < 128) : lowered cs = cs.map Char.toLower := by
  induction cs with
  | nil => rfl
  | cons c cs ih =>
    obtain ⟨hc, hcs⟩ := List.forall_mem_cons.mp h
    have hsplit : lowered (c :: cs) = lowered [c] ++ lowered cs := by simp [lowered]
    rw [hsplit, lowered_singleton hc, ih hcs]
    rfl

/-- The underscore that is written behind a small letter when a capital comes. -/
def trail (before : Option Char) (c : Char) : List Char :=
  if before.any Char.isLower && c.isUpper then ['_'] else []

/-- The underscore that is written before a capital when a small letter comes. -/
def lead (before : Option Char) (c d : Char) : List Char :=
  if before.isSome && c.isUpper && d.isLower then ['_'] else []

/-- The character in hand goes out as a small letter, with an underscore before it or behind it. -/
theorem emitted_singleton {result : List Char} {before : Option Char} (hresult : result.isEmpty = before.isNone)
    (hc : c.toNat < 128) (hd : d.toNat < 128) :
    Snake.emitted result [c] [d] = lead before c d ++ c.toLower :: trail (some c) d := by
  rw [Snake.emitted, allUpper_singleton hc, allUpper_singleton hd, allLower_singleton hc, allLower_singleton hd,
    lowered_singleton hc, lead, trail, Option.any_some, hresult]
  cases hupper : c.isUpper with
  | false =>
    -- What is no capital is written as it is, and no underscore comes before it.
    rw [Char.toLower_eq_of_not_isUpper (ne_true_of_eq_false hupper)]
    cases d.isUpper <;> cases c.isLower <;> simp
  | true =>
    rw [eq_false_of_ne_true (Char.not_isLower_of_isUpper hupper)]
    cases hnext : d.isUpper with
    | true => simp [Char.not_isLower_of_isUpper hnext]
    | false => cases d.isLower <;> cases before <;> simp

/-- The underscore behind one character and the one before the next are one in the end. -/
theorem joinUnderscores_trail_lead (before : Option Char) (c d : Char) (a b : List Char) :
    joinUnderscores (a ++ (trail before c ++ (lead before c d ++ b))) =
      joinUnderscores (a ++ ((if breaks before c (some d) then ['_'] else []) ++ b)) := by
  rw [trail, lead, breaks, Option.any_some]
  cases before with
  | none => rfl
  | some e =>
    -- Two underscores come together only around a capital with small letters on both sides.
    cases c.isUpper <;> cases hbefore : e.isLower <;> cases d.isLower <;> simp [hbefore, joinUnderscores_twice]

end

namespace Snake

/-- The text of the machine when the piece in hand goes out in small letters. -/
def ended (s : Snake) : List Char :=
  s.result ++ lowered (s.previous.getD [])

/-- With `c` in hand behind `before`, the machine writes the rest of a text with an underscore before each word, except
that some underscores are written twice. -/
theorem joinUnderscores_ended_foldl {c : Char} {rest : List Char} (hc : c.toNat < 128) (hrest : ∀ d ∈ rest, d.toNat < 128)
    {result : List Char} {before : Option Char} (hresult : result.isEmpty = before.isNone) :
    joinUnderscores (rest.foldl (fun (s : Snake) d => s.push [d]) ⟨result ++ trail before c, some [c]⟩).ended =
      joinUnderscores (result ++ spaced before (c :: rest)) := by
  induction rest generalizing c result before with
  | nil =>
    have hlast : spaced before [c] = trail before c ++ [c.toLower] := by
      cases before <;> simp [spaced, breaks, trail, Bool.and_comm]
    rw [hlast, ← lowered_singleton hc, ← List.append_assoc]
    rfl
  | cons d rest ih =>
    obtain ⟨hd, hrest⟩ := List.forall_mem_cons.mp hrest
    have hwritten : (result ++ trail before c).isEmpty = before.isNone := by
      cases before with
      | none =>
        rw [List.isEmpty_iff.mp hresult]
        rfl
      | some b => cases result <;> simp_all
    have hpush : (⟨result ++ trail before c, some [c]⟩ : Snake).push [d] =
        ⟨result ++ trail before c ++ lead before c d ++ [c.toLower] ++ trail (some c) d, some [d]⟩ := by
      simp [push, emitted_singleton hwritten hc hd]
    have hinit : (result ++ trail before c ++ lead before c d ++ [c.toLower]).isEmpty = (some c).isNone := by simp
    calc
      _ = joinUnderscores (result ++ trail before c ++ lead before c d ++ [c.toLower] ++ spaced (some c) (d :: rest)) := by
        rw [List.foldl_cons, hpush, ih hd hrest hinit]
      _ = joinUnderscores (result ++ (trail before c ++ (lead before c d ++ c.toLower :: spaced (some c) (d :: rest)))) := by
        simp
      _ = joinUnderscores (result ++ spaced before (c :: d :: rest)) := joinUnderscores_trail_lead before c d result _

end Snake

/-! ### Whole names -/

/-- The snake case of a name is made of its words. -/
theorem snake_eq_spaced {name : String} (hne : name ≠ "") (h : ∀ c ∈ name.toList, c.toNat < 128) :
    snake name = .ok (String.ofList (dropUnderscore (squeezed (spaced none name.toList)))) := by
  obtain ⟨last, hlast, e⟩ := snake_eq hne
  have hended : (Snake.pushed name.toList).result ++ lowered [last] = (Snake.pushed name.toList).ended := by
    rw [Snake.ended, hlast, Option.getD_some]
  rw [e, hended]
  obtain ⟨c, rest, hname⟩ := List.exists_cons_of_ne_nil (l := name.toList) (by simpa using hne)
  rw [hname] at h ⊢
  obtain ⟨hc, hrest⟩ := List.forall_mem_cons.mp h
  have hempty : ([] : List Char).isEmpty = (none : Option Char).isNone := rfl
  have hall : joinUnderscores (Snake.pushed (c :: rest)).ended = joinUnderscores (spaced none (c :: rest)) :=
    Snake.joinUnderscores_ended_foldl hc hrest hempty
  rw [hall, joinUnderscores_eq_squeezed]

/-- Underscores apart, the characters of a name come out in order and in small letters. -/
theorem unscored_snake_eq_map {name tag : String} (h : ∀ c ∈ name.toList, c.toNat < 128) (htag : snake name = .ok tag) :
    unscored tag.toList = (unscored name.toList).map Char.toLower := by
  have hascii : ∀ c ∈ unscored name.toList, c.toNat < 128 := fun c hc => h c (List.mem_of_mem_filter hc)
  rw [unscored_snake h htag, lowered_eq_map hascii]

/-- The snake case of a name is the name with an underscore before each place where a word starts, in small letters, with
each run of underscores made one and none at the start. No character but underscores is lost, added or put elsewhere. -/
theorem snake_eq_marked {name : String} (hne : name ≠ "") (h : ∀ c ∈ name.toList, c.toNat < 128) :
    ∃ tag, snake name = .ok tag ∧ tag.toList = dropUnderscore (squeezed ((marked name.toList).map Char.toLower)) ∧
      unscored tag.toList = (unscored name.toList).map Char.toLower := by
  have htag := snake_eq_spaced hne h
  refine ⟨_, htag, ?_, unscored_snake_eq_map h htag⟩
  rw [String.toList_ofList, map_toLower_marked]

theorem snake_eq_marked_mixed :
    "_HTTPServer__v2Id_" ≠ "" ∧ (∀ c ∈ "_HTTPServer__v2Id_".toList, c.toNat < 128) ∧
      ∃ tag, snake "_HTTPServer__v2Id_" = .ok tag ∧
        tag.toList = dropUnderscore (squeezed ((marked "_HTTPServer__v2Id_".toList).map Char.toLower)) ∧
        unscored tag.toList = (unscored "_HTTPServer__v2Id_".toList).map Char.toLower :=
  ⟨by decide, by decide, snake_eq_marked (by decide) (by decide)⟩

example : dropUnderscore (squeezed ((marked "_HTTPServer__v2Id_".toList).map Char.toLower)) = "http_server_v2_id_".toList := by
  decide

/-! ### Names in snake case -/

/-- The characters of a text in snake case: ASCII, without capitals, no two underscores together and none at the start. -/
structure IsSnake (cs : List Char) : Prop where
  ascii : ∀ c ∈ cs, c.toNat < 128
  small : ∀ c ∈ cs, c.isUpper = false
  apart : cs.IsChain fun a b => ¬(a = '_' ∧ b = '_')
  start : cs.head? ≠ some '_'

theorem mem_spaced {before : Option Char} {cs : List Char} {d : Char} (h : d ∈ spaced before cs) :
    d = '_' ∨ ∃ c ∈ cs, d = c.toLower := by
  induction cs generalizing before with
  | nil => cases h
  | cons c cs ih =>
    rcases List.mem_append.mp h with h | h
    · split at h
      · exact .inl (List.mem_singleton.mp h)
      · cases h
    rcases List.mem_cons.mp h with rfl | h
    · exact .inr ⟨c, List.mem_cons_self, rfl⟩
    · rcases ih h with rfl | ⟨e, he, rfl⟩
      · exact .inl rfl
      · exact .inr ⟨e, List.mem_cons_of_mem _ he, rfl⟩

/-- What has no capitals has no words to part and no letters to lower. -/
theorem spaced_of_small {cs : List Char} (h : ∀ c ∈ cs, c.isUpper = false) (before : Option Char) :
    spaced before cs = cs := by
  induction cs generalizing before with
  | nil => rfl
  | cons c cs ih =>
    obtain ⟨hc, hcs⟩ := List.forall_mem_cons.mp h
    have hbreaks : breaks before c cs.head? = false := by simp [breaks, hc]
    rw [spaced, hbreaks, Char.toLower_eq_of_not_isUpper (ne_true_of_eq_false hc), ih hcs]
    rfl

theorem toNat_toLower_lt {c : Char} (hc : c.toNat < 128) : c.toLower.toNat < 128 := by
  have all : ∀ n : Fin 128, (Char.ofNat n).toLower.toNat < 128 := by decide
  exact of_ascii (p := fun c => c.toLower.toNat < 128) all hc

theorem isSnake_of_words {cs : List Char} (h : ∀ c ∈ cs, c.toNat < 128) :
    IsSnake (dropUnderscore (squeezed (spaced none cs))) := by
  have hmem : ∀ d ∈ dropUnderscore (squeezed (spaced none cs)), d.toNat < 128 ∧ d.isUpper = false := by
    intro d hd
    have hspaced : d ∈ spaced none cs := (List.destutter_sublist _ _).subset (mem_of_mem_dropUnderscore hd)
    rcases mem_spaced hspaced with rfl | ⟨c, hc, rfl⟩
    · decide
    · exact ⟨toNat_toLower_lt (h c hc), Char.isUpper_toLower_eq_false c⟩
  constructor
  · exact fun d hd => (hmem d hd).1
  · exact fun d hd => (hmem d hd).2
  · have hchain := List.isChain_destutter (fun a b => ¬(a = '_' ∧ b = '_')) (spaced none cs)
    unfold dropUnderscore
    split
    · next rest e =>
      rw [← squeezed, e] at hchain
      exact hchain.tail
    · exact hchain
  · rw [← joinUnderscores_eq_squeezed]
    exact head?_dropUnderscore_joinUnderscores _

/-- A text in snake case is its own snake case. -/
theorem IsSnake.snake_eq {name : String} (h : IsSnake name.toList) (hne : name ≠ "") : snake name = .ok name := by
  have hsqueezed : squeezed name.toList = name.toList := List.destutter_of_isChain _ _ h.apart
  have hdrop : dropUnderscore name.toList = name.toList := by
    unfold dropUnderscore
    split
    · next rest e => exact absurd (by rw [e]; rfl) h.start
    · rfl
  rw [snake_eq_spaced hne h.ascii, spaced_of_small h.small, hsqueezed, hdrop, String.ofList_toList]

/-- Snake case changes nothing more when it is applied once more, for every name with something else than underscores. -/
theorem snake_snake {name : String} (h : ∀ c ∈ name.toList, c.toNat < 128) (hs : ∃ c ∈ name.toList, c ≠ '_') :
    ∃ tag, snake name = .ok tag ∧ snake tag = .ok tag := by
  have hne : name ≠ "" := by
    rintro rfl
    obtain ⟨c, hc, -⟩ := hs
    cases hc
  have htag := snake_eq_spaced hne h
  refine ⟨_, htag, IsSnake.snake_eq ?_ ?_⟩
  · rw [String.toList_ofList]
    exact isSnake_of_words h
  · -- What is no underscore in the name is not lost in its snake case.
    intro hempty
    obtain ⟨c, hc, hcne⟩ := hs
    have hmem : c ∈ unscored name.toList := List.mem_filter.mpr ⟨hc, by simpa using hcne⟩
    have hkept := unscored_snake_eq_map h htag
    rw [hempty] at hkept
    exact List.ne_nil_of_mem hmem (List.map_eq_nil_iff.mp hkept.symm)

theorem snake_snake_mixed :
    (∀ c ∈ "__XMLFile2HTMLa__B".toList, c.toNat < 128) ∧ (∃ c ∈ "__XMLFile2HTMLa__B".toList, c ≠ '_') ∧
      ∃ tag, snake "__XMLFile2HTMLa__B" = .ok tag ∧ snake tag = .ok tag :=
  ⟨by decide, by decide, snake_snake (by decide) (by decide)⟩

end CodeBridge.Name
