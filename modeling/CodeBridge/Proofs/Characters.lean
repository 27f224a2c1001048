import Mathlib
import CodeBridge.Text.Blank
import CodeBridge.Text.Lines
import CodeBridge.Text.Word

/-! # Characters of names and lines

The characters that a name is made of, texts that trimming leaves alone, and texts made of whole lines. -/

namespace CodeBridge.Text

-- What holds of the characters of a text is decided along the text, not by a search through all characters there are.
instance decidableAll {p : Char → Prop} [DecidablePred p] (cs : List Char) : Decidable (∀ c ∈ cs, p c) :=
  List.decidableBAll p cs

instance decidableAny {p : Char → Prop} [DecidablePred p] (cs : List Char) : Decidable (∃ c ∈ cs, p c) :=
  List.decidableBEx p cs

/-! ### Names -/

/-- The characters of names: the letters and digits of ASCII and the underscore. -/
def isName (c : Char) : Bool :=
  c.isAlphanum || c == '_'

/-- A text that can be a name: not empty, and of nothing but the characters of names. -/
def IsName (s : String) : Prop :=
  s.toList ≠ [] ∧ ∀ c ∈ s.toList, isName c = true

instance : DecidablePred IsName := fun s => inferInstanceAs (Decidable (s.toList ≠ [] ∧ ∀ c ∈ s.toList, isName c = true))

theorem toNat_lt_of_isName {c : Char} (h : isName c = true) : c.toNat < 128 := by
  simp only [isName, Char.isAlphanum, Char.isAlpha, Char.isUpper, Char.isLower, Char.isDigit, Bool.or_eq_true,
    Bool.and_eq_true, decide_eq_true_eq, beq_iff_eq] at h
  rcases h with ((⟨-, h⟩ | ⟨-, h⟩) | ⟨-, h⟩) | rfl
  · exact Nat.lt_of_le_of_lt (UInt32.le_iff_toNat_le.mp h) (by decide)
  · exact Nat.lt_of_le_of_lt (UInt32.le_iff_toNat_le.mp h) (by decide)
  · exact Nat.lt_of_le_of_lt (UInt32.le_iff_toNat_le.mp h) (by decide)
  · decide

/-- What holds of the first 128 code points holds of every ASCII character. -/
theorem of_ascii {p : Char → Prop} (h : ∀ n : Fin 128, p (Char.ofNat n)) {c : Char} (hc : c.toNat < 128) : p c := by
  have hp := h ⟨c.toNat, hc⟩
  rwa [Char.ofNat_toNat] at hp

theorem isWord_of_isName {c : Char} (h : isName c = true) : isWord c = true := by
  simp only [isWord, toNat_lt_of_isName h, ↓reduceIte]
  exact h

/-- The code points of the blanks. -/
def blankCodes : List Nat :=
  [9, 10, 11, 12, 13, 28, 29, 30, 31, 32, 0x85, 0xa0, 0x1680, 0x2000, 0x2001, 0x2002, 0x2003, 0x2004, 0x2005, 0x2006, 0x2007,
    0x2008, 0x2009, 0x200a, 0x2028, 0x2029, 0x202f, 0x205f, 0x3000]

theorem mem_blankCodes {c : Char} (h : isBlank c = true) : c.toNat ∈ blankCodes := by
  simp only [isBlank, Bool.or_eq_true, Bool.and_eq_true, decide_eq_true_eq, beq_iff_eq] at h
  simp only [blankCodes, List.mem_cons, List.not_mem_nil, or_false]
  omega

theorem isWord_of_isBlank {c : Char} (h : isBlank c = true) : isWord c = false := by
  have all : ∀ n ∈ blankCodes, isWord (Char.ofNat n) = false := by decide +kernel
  have hc := all _ (mem_blankCodes h)
  rwa [Char.ofNat_toNat] at hc

theorem isBlank_of_isWord {c : Char} (h : isWord c = true) : isBlank c = false := by
  by_contra hb
  rw [isWord_of_isBlank (eq_true_of_ne_false hb)] at h
  cases h

theorem isBlank_of_isName {c : Char} (h : isName c = true) : isBlank c = false :=
  isBlank_of_isWord (isWord_of_isName h)

theorem not_mem_of_forall {p : Char → Bool} {cs : List Char} (h : ∀ c ∈ cs, p c = true) {c : Char} (hc : p c = false) :
    c ∉ cs := by
  intro hm
  rw [h c hm] at hc
  cases hc

theorem forall_mem_append {p : Char → Bool} {s t : String} (hs : ∀ c ∈ s.toList, p c = true)
    (ht : ∀ c ∈ t.toList, p c = true) : ∀ c ∈ (s ++ t).toList, p c = true := by
  intro c hc
  rw [String.toList_append] at hc
  rcases List.mem_append.mp hc with hc | hc
  · exact hs c hc
  · exact ht c hc

theorem IsName.append {s t : String} (hs : IsName s) (ht : IsName t) : IsName (s ++ t) :=
  ⟨by simp [hs.1], forall_mem_append hs.2 ht.2⟩

/-! ### Runs of characters -/

theorem bne_of_not_mem {c : Char} {cs : List Char} (h : c ∉ cs) : ∀ d ∈ cs, (d != c) = true := by
  intro d hd
  have hne : d ≠ c := fun e => h (e ▸ hd)
  simpa using hne

theorem takeWhile_append_of_head {p : Char → Bool} {a b : List Char} (ha : ∀ c ∈ a, p c = true)
    (hb : ∀ c ∈ b.head?, p c = false) : (a ++ b).takeWhile p = a := by
  rw [List.takeWhile_append_of_pos ha]
  cases b with
  | nil => simp
  | cons c b => simp [hb c rfl]

theorem dropWhile_append_of_head {p : Char → Bool} {a b : List Char} (ha : ∀ c ∈ a, p c = true)
    (hb : ∀ c ∈ b.head?, p c = false) : (a ++ b).dropWhile p = b := by
  rw [List.dropWhile_append_of_pos ha]
  cases b with
  | nil => rfl
  | cons c b => simp [hb c rfl]

/-! ### Trimming -/

/-- A text that starts and ends with something that can be seen. -/
structure Solid (cs : List Char) : Prop where
  first : ∃ c ∈ cs.head?, isBlank c = false
  last : ∃ c ∈ cs.getLast?, isBlank c = false

theorem trimLeft_of_first {cs : List Char} (h : ∃ c ∈ cs.head?, isBlank c = false) : trimLeft cs = cs := by
  obtain ⟨c, hc, hb⟩ := h
  cases cs with
  | nil => cases hc
  | cons d cs =>
    obtain rfl : d = c := Option.some.inj hc
    simp [trimLeft, hb]

theorem trimRight_of_last {cs : List Char} (h : ∃ c ∈ cs.getLast?, isBlank c = false) : trimRight cs = cs := by
  have hr : trimLeft cs.reverse = cs.reverse := trimLeft_of_first (by rwa [List.head?_reverse])
  show (trimLeft cs.reverse).reverse = cs
  rw [hr, List.reverse_reverse]

theorem Solid.trim_eq {cs : List Char} (h : Solid cs) : trim cs = cs := by
  rw [trim, trimLeft_of_first h.first, trimRight_of_last h.last]

theorem Solid.ne_nil {cs : List Char} (h : Solid cs) : cs ≠ [] := by
  rintro rfl
  obtain ⟨c, hc, -⟩ := h.first
  cases hc

theorem first_append {a : List Char} (h : ∃ c ∈ a.head?, isBlank c = false) (b : List Char) :
    ∃ c ∈ (a ++ b).head?, isBlank c = false := by
  obtain ⟨c, hc, hb⟩ := h
  exact ⟨c, by simp [List.head?_append, Option.mem_def.mp hc], hb⟩

theorem last_append {b : List Char} (h : ∃ c ∈ b.getLast?, isBlank c = false) (a : List Char) :
    ∃ c ∈ (a ++ b).getLast?, isBlank c = false := by
  obtain ⟨c, hc, hb⟩ := h
  exact ⟨c, by simp [List.getLast?_append, Option.mem_def.mp hc], hb⟩

theorem Solid.append {a b : List Char} (ha : ∃ c ∈ a.head?, isBlank c = false)
    (hb : ∃ c ∈ b.getLast?, isBlank c = false) : Solid (a ++ b) :=
  ⟨first_append ha b, last_append hb a⟩

theorem Solid.of_forall {cs : List Char} (hne : cs ≠ []) (h : ∀ c ∈ cs, isBlank c = false) : Solid cs where
  first := ⟨cs.head hne, List.head?_eq_some_head hne, h _ (List.head_mem hne)⟩
  last := ⟨cs.getLast hne, List.getLast?_eq_some_getLast hne, h _ (List.getLast_mem hne)⟩

theorem IsName.solid {s : String} (h : IsName s) : Solid s.toList :=
  .of_forall h.1 fun c hc => isBlank_of_isName (h.2 c hc)

theorem trimLeft_blanks_append {pre : List Char} (h : ∀ c ∈ pre, isBlank c = true) (cs : List Char) :
    trimLeft (pre ++ cs) = trimLeft cs :=
  List.dropWhile_append_of_pos h

theorem trim_blanks_append {pre : List Char} (h : ∀ c ∈ pre, isBlank c = true) (cs : List Char) :
    trim (pre ++ cs) = trim cs := by
  rw [trim, trim, trimLeft_blanks_append h]

theorem trimRight_append_blanks (cs : List Char) {post : List Char} (h : ∀ c ∈ post, isBlank c = true) :
    trimRight (cs ++ post) = trimRight cs := by
  show (trimLeft (cs ++ post).reverse).reverse = (trimLeft cs.reverse).reverse
  rw [List.reverse_append, trimLeft_blanks_append fun c hc => h c (List.mem_reverse.mp hc)]

theorem Solid.trim_between {cs : List Char} (h : Solid cs) {pre post : List Char} (hpre : ∀ c ∈ pre, isBlank c = true)
    (hpost : ∀ c ∈ post, isBlank c = true) : trim (pre ++ (cs ++ post)) = cs := by
  rw [trim_blanks_append hpre, trim, trimLeft_of_first (first_append h.first post), trimRight_append_blanks cs hpost,
    trimRight_of_last h.last]

/-- What starts with something that can be seen on both sides still starts with it when it is trimmed. -/
theorem Solid.trim_append {a : List Char} (h : Solid a) (b : List Char) : ∃ t, trim (a ++ b) = a ++ t := by
  have hleft : trimLeft a.reverse = a.reverse := trimLeft_of_first (by rw [List.head?_reverse]; exact h.last)
  have htrim : trim (a ++ b) = (trimLeft (b.reverse ++ a.reverse)).reverse := by
    rw [trim, trimLeft_of_first (first_append h.first b), ← List.reverse_append]
    rfl
  by_cases hb : trimLeft b.reverse = []
  · refine ⟨[], ?_⟩
    rw [htrim, trimLeft, List.dropWhile_append, if_pos (by simpa [trimLeft] using hb),
      show a.reverse.dropWhile isBlank = a.reverse from hleft, List.reverse_reverse, List.append_nil]
  · refine ⟨trimRight b, ?_⟩
    rw [htrim, trimLeft, List.dropWhile_append, if_neg (by simpa [trimLeft] using hb), List.reverse_append,
      List.reverse_reverse]
    rfl

theorem first_of_trimLeft_ne_nil {cs : List Char} (h : trimLeft cs ≠ []) :
    ∃ c ∈ (trimLeft cs).head?, isBlank c = false := by
  exact ⟨(trimLeft cs).head h, List.head?_eq_some_head h, List.head_dropWhile_not isBlank h⟩

theorem trimRight_isPrefix (cs : List Char) : trimRight cs <+: cs := by
  have h : trimLeft cs.reverse <:+ cs.reverse := List.dropWhile_suffix isBlank
  have := List.reverse_prefix.mpr h
  rwa [List.reverse_reverse] at this

theorem trim_isInfix (cs : List Char) : trim cs <:+: cs :=
  (trimRight_isPrefix _).isInfix.trans (List.dropWhile_suffix isBlank).isInfix

theorem solid_trim {cs : List Char} (h : trim cs ≠ []) : Solid (trim cs) where
  first := by
    have hl : trimLeft cs ≠ [] := fun e => h (by rw [trim, e]; rfl)
    obtain ⟨c, hc, hb⟩ := first_of_trimLeft_ne_nil hl
    obtain ⟨t, ht⟩ : trim cs <+: trimLeft cs := trimRight_isPrefix _
    refine ⟨c, ?_, hb⟩
    rw [← ht, List.head?_append, List.head?_eq_some_head h, Option.some_or] at hc
    rwa [List.head?_eq_some_head h]
  last := by
    have hr : trimLeft (trimLeft cs).reverse ≠ [] := fun e => h (by
      show (trimLeft (trimLeft cs).reverse).reverse = []
      rw [e]
      rfl)
    obtain ⟨c, hc, hb⟩ := first_of_trimLeft_ne_nil hr
    refine ⟨c, ?_, hb⟩
    show c ∈ (trimLeft (trimLeft cs).reverse).reverse.getLast?
    rwa [List.getLast?_reverse]

theorem blank_of_trim_eq_nil {cs : List Char} (h : trim cs = []) : ∀ c ∈ cs, isBlank c = true := by
  have hright : (trimLeft (trimLeft cs).reverse).reverse = [] := h
  rw [List.reverse_eq_nil_iff, trimLeft, List.dropWhile_eq_nil_iff] at hright
  by_cases hne : trimLeft cs = []
  · exact List.dropWhile_eq_nil_iff.mp hne
  · obtain ⟨c, hc, hb⟩ := first_of_trimLeft_ne_nil hne
    rw [hright c (List.mem_reverse.mpr (List.mem_of_mem_head? hc))] at hb
    cases hb

theorem getLast?_trim {c : Char} {cs : List Char} (h : cs.getLast? = some c) (hc : isBlank c = false) :
    (trim cs).getLast? = some c := by
  have hleft : (trimLeft cs).getLast? = some c := by
    rw [← List.takeWhile_append_dropWhile (p := isBlank) (l := cs), List.getLast?_append] at h
    cases hlast : (trimLeft cs).getLast? with
    | some d => rwa [show (cs.dropWhile isBlank).getLast? = some d from hlast] at h
    | none =>
      rw [show (cs.dropWhile isBlank).getLast? = none from hlast] at h
      rw [List.mem_takeWhile_imp (List.mem_of_getLast? h)] at hc
      cases hc
  rwa [trim, trimRight_of_last ⟨c, hleft, hc⟩]

theorem mem_trim {c : Char} {cs : List Char} (hc : isBlank c = false) (h : c ∈ cs) : c ∈ trim cs := by
  have kept : ∀ {cs : List Char}, c ∈ cs → c ∈ trimLeft cs := by
    intro cs h
    rw [← List.takeWhile_append_dropWhile (p := isBlank) (l := cs)] at h
    rcases List.mem_append.mp h with h | h
    · rw [List.mem_takeWhile_imp h] at hc
      cases hc
    · exact h
  show c ∈ (trimLeft (trimLeft cs).reverse).reverse
  exact List.mem_reverse.mpr (kept (List.mem_reverse.mpr (kept h)))

/-! ### Lines -/

/-- Lines as one text, each ended by a line feed. -/
def unlines (ls : List (List Char)) : List Char :=
  ls.flatMap (· ++ ['\n'])

@[simp] theorem unlines_nil : unlines [] = [] := rfl

@[simp] theorem unlines_cons (l : List Char) (ls : List (List Char)) :
    unlines (l :: ls) = l ++ '\n' :: unlines ls := by
  simp [unlines]

@[simp] theorem unlines_append (a b : List (List Char)) : unlines (a ++ b) = unlines a ++ unlines b := by
  simp [unlines]

/-- A text without carriage returns is read as it is. -/
theorem unifyLineEnds_of_not_mem {cs : List Char} (h : '\r' ∉ cs) : unifyLineEnds cs = cs := by
  induction cs with
  | nil => rfl
  | cons c cs ih =>
    have hc : c ≠ '\r' := fun e => h (e ▸ List.mem_cons_self)
    have hcs : '\r' ∉ cs := fun m => h (List.mem_cons_of_mem _ m)
    rw [unifyLineEnds, ih hcs]
    · exact fun _ e => absurd e hc
    · exact hc

/-- Line ends are unified piece by piece, unless a piece ends between the two characters of one line end. -/
theorem unifyLineEnds_append {a b : List Char} (h : a.getLast? ≠ some '\r' ∨ b.head? ≠ some '\n') :
    unifyLineEnds (a ++ b) = unifyLineEnds a ++ unifyLineEnds b := by
  have behind : ∀ {c : Char} {a : List Char}, (c :: a).getLast? ≠ some '\r' ∨ b.head? ≠ some '\n' →
      a.getLast? ≠ some '\r' ∨ b.head? ≠ some '\n' := by
    rintro c a (h | h)
    · exact .inl fun e => h (by rw [List.getLast?_cons, e, Option.getD_some])
    · exact .inr h
  fun_induction unifyLineEnds a with
  | case1 rest ih => rw [List.cons_append, List.cons_append, unifyLineEnds, ih (behind (behind h)), List.cons_append]
  | case2 rest hrest ih =>
    rw [List.cons_append, unifyLineEnds, ih (behind h), List.cons_append]
    -- The carriage return is not followed by a line feed, in the rest of its piece or behind it.
    intro next e
    cases rest with
    | nil =>
      rcases h with h | h
      · exact h rfl
      · exact h (by rw [show b = _ from e]; rfl)
    | cons d rest =>
      cases e
      exact hrest rest rfl
  | case3 c rest h₁ h₂ ih =>
    rw [List.cons_append, unifyLineEnds, ih (behind h), List.cons_append]
    · exact fun next e => absurd e h₂
    · exact h₂
  | case4 => rfl

end CodeBridge.Text
