import CodeBridge.Header.Line
import CodeBridge.Proofs.Numerals

/-! # Reading one line

A line that is built from a name and a value is taken apart into the same name and value: macro definitions,
members of an enumeration and members of a struct, and the line or lines that open a body. -/

namespace CodeBridge.Header

open Text

/-! ### Words -/

theorem behind?_append (start rest : List Char) : behind? start (start ++ rest) = some rest := by
  induction start with
  | nil => rfl
  | cons c start ih => simp [behind?, ih]

theorem behind?_eq_some_iff {start cs rest : List Char} : behind? start cs = some rest ↔ cs = start ++ rest := by
  constructor
  · intro h
    fun_induction behind? start cs with
    | case1 cs => exact Option.some.inj h
    | case2 c start d cs hcd ih => rw [beq_iff_eq.mp hcd, ih h, List.cons_append]
    | case3 => cases h
    | case4 => cases h
  · rintro rfl
    exact behind?_append start rest

/-- At least one blank. -/
def IsGap (cs : List Char) : Prop :=
  cs ≠ [] ∧ ∀ c ∈ cs, isBlank c = true

def IsWord (cs : List Char) : Prop :=
  cs ≠ [] ∧ ∀ c ∈ cs, isWord c = true

theorem of_behindBlanks?_eq_some {cs rest : List Char} (h : behindBlanks? cs = some rest) :
    ∃ gap, IsGap gap ∧ cs = gap ++ rest := by
  unfold behindBlanks? at h
  split at h
  · next c r =>
    split at h
    · next hc =>
      cases h
      refine ⟨c :: r.takeWhile isBlank, ⟨List.cons_ne_nil _ _, ?_⟩, ?_⟩
      · exact List.forall_mem_cons.mpr ⟨hc, fun d hd => List.mem_takeWhile_imp hd⟩
      · rw [List.cons_append, trimLeft, List.takeWhile_append_dropWhile]
    · cases h
  · cases h

theorem behindBlanks?_append {gap cs : List Char} (hgap : IsGap gap) (hcs : ∀ c ∈ cs.head?, isBlank c = false) :
    behindBlanks? (gap ++ cs) = some cs := by
  obtain ⟨hne, hall⟩ := hgap
  cases gap with
  | nil => exact absurd rfl hne
  | cons c gap =>
    obtain ⟨hc, hgap⟩ := List.forall_mem_cons.mp hall
    rw [List.cons_append, behindBlanks?, if_pos hc, trimLeft, dropWhile_append_of_head hgap hcs]

theorem word?_eq_some_iff {cs word rest : List Char} :
    word? cs = some (word, rest) ↔ IsWord word ∧ (∀ c ∈ rest.head?, isWord c = false) ∧ cs = word ++ rest := by
  constructor
  · intro h
    unfold word? at h
    split at h
    · cases h
    · next hne =>
      cases h
      refine ⟨⟨hne, fun c hc => List.mem_takeWhile_imp hc⟩, ?_, List.takeWhile_append_dropWhile.symm⟩
      intro c hc
      have hnil : cs.dropWhile isWord ≠ [] := List.ne_nil_of_mem (List.mem_of_mem_head? hc)
      rw [List.head?_eq_some_head hnil] at hc
      cases hc
      exact List.head_dropWhile_not isWord hnil
  · rintro ⟨⟨hne, hall⟩, hrest, rfl⟩
    unfold word?
    rw [takeWhile_append_of_head hall hrest, dropWhile_append_of_head hall hrest]
    cases word with
    | nil => exact absurd rfl hne
    | cons c word => rfl

theorem word?_name {name : String} (h : IsName name) {c : Char} (hc : isWord c = false) (rest : List Char) :
    word? (name.toList ++ c :: rest) = some (name.toList, c :: rest) := by
  refine word?_eq_some_iff.mpr ⟨⟨h.1, fun c hc => isWord_of_isName (h.2 c hc)⟩, ?_, rfl⟩
  rintro d ⟨⟩
  exact hc

theorem behindBlanks?_cons {cs : List Char} (h : ∃ c ∈ cs.head?, isBlank c = false) :
    behindBlanks? (' ' :: cs) = some cs := by
  have hgap : IsGap [' '] := ⟨by simp, by decide⟩
  obtain ⟨c, hc, hb⟩ := h
  refine behindBlanks?_append hgap fun d hd => ?_
  rwa [Option.mem_unique hd hc]

theorem afterBlanks_of_first {α : Type} (read : List Char → Option α) {cs : List Char}
    (h : ∃ c ∈ cs.head?, isBlank c = false) : afterBlanks read cs = read cs := by
  obtain ⟨c, hc, hb⟩ := h
  cases cs with
  | nil => cases hc
  | cons d cs =>
    obtain rfl : d = c := Option.some.inj hc
    simp [afterBlanks, hb]

/-! ### Comments -/

/-- A text in which no comment opens. -/
structure Uncommented (cs : List Char) : Prop where
  line : ¬['/', '/'] <:+: cs
  block : ¬['/', '*'] <:+: cs

theorem Uncommented.of_isInfix {a b : List Char} (h : Uncommented b) (hi : a <:+: b) : Uncommented a :=
  ⟨fun m => h.line (m.trans hi), fun m => h.block (m.trans hi)⟩

theorem Uncommented.of_not_mem {cs : List Char} (h : '/' ∉ cs) : Uncommented cs :=
  ⟨fun m => h (m.subset (by simp)), fun m => h (m.subset (by simp))⟩

theorem pair_infix_of_between {a b x y : Char} {cs : List Char} (ha : a ≠ x) (hb : b ≠ y)
    (h : [a, b] <:+: x :: (cs ++ [y])) : [a, b] <:+: cs := by
  rcases List.infix_cons_iff.mp h with h | h
  · exact absurd (List.cons_prefix_cons.mp h).1 ha
  rcases List.infix_concat_iff.mp h with h | h
  · rcases List.suffix_concat_iff.mp h with h | ⟨t, ht, -⟩
    · cases h
    · have hlast := congrArg List.getLast? ht
      rw [List.getLast?_concat] at hlast
      exact absurd (Option.some.inj hlast) hb
  · exact h

theorem Uncommented.between {cs : List Char} (h : Uncommented cs) {x y : Char} (hx : x ≠ '/') (hy : y ≠ '/' ∧ y ≠ '*') :
    Uncommented (x :: (cs ++ [y])) :=
  ⟨fun m => h.line (pair_infix_of_between hx.symm hy.1.symm m),
    fun m => h.block (pair_infix_of_between hx.symm hy.2.symm m)⟩

theorem Uncommented.remark? {cs : List Char} (h : Uncommented cs) : remark? cs = none := by
  unfold Header.remark?
  split
  · next c rest => exact absurd (List.prefix_append ['/', '/'] (c :: rest)).isInfix h.line
  · next c rest => exact absurd (List.prefix_append ['/', '*'] (c :: rest)).isInfix h.block
  · rfl

/-! ### Macro definitions -/

theorem shortestValue_of_uncommented {cs : List Char} (h : Uncommented cs) : shortestValue cs = (cs, none) := by
  induction cs with
  | nil => rfl
  | cons c cs ih =>
    have hcs := h.of_isInfix (List.suffix_cons c cs).isInfix
    simp [shortestValue, hcs.remark?, ih hcs]

theorem macroValue?_eq {cs : List Char} (hne : cs ≠ []) (hl : '\n' ∉ cs) (h : Uncommented cs) :
    macroValue? cs = some (cs, none) := by
  have hall := bne_of_not_mem hl
  simp [macroValue?, List.takeWhile_eq_self_iff.mpr hall, List.dropWhile_eq_nil_iff.mpr hall, hne,
    shortestValue_of_uncommented h]

theorem constant?_line {name value : String} (hn : IsName name) (hv : Solid value.toList) (hl : '\n' ∉ value.toList)
    (hu : Uncommented value.toList) :
    constant? ("#define " ++ name ++ " " ++ value).toList = some ⟨name, some value, some ""⟩ := by
  have hline : ("#define " ++ name ++ " " ++ value).toList =
      "#define".toList ++ ' ' :: (name.toList ++ ' ' :: value.toList) := by simp
  unfold constant?
  rw [hline, behind?_append]
  simp [behindBlanks?_cons (first_append hn.solid.first _), word?_name hn (c := ' ') rfl, afterBlanks_of_first _ hv.first,
    macroValue?_eq hv.ne_nil hl hu, hv.trim_eq, cleanComment, show isBlank ' ' = true from rfl]

/-! ### Members of an enumeration -/

theorem longestValue_append {value tail : List Char} (hne : value ≠ []) (hv : ',' ∉ value)
    (hend : longestValue tail = none) {comment : Option (List Char)} (htail : memberTail? tail = some comment) :
    longestValue (value ++ tail) = some (value, comment) := by
  induction value with
  | nil => exact absurd rfl hne
  | cons c value ih =>
    have hc : c ≠ ',' := fun e => hv (e ▸ List.mem_cons_self)
    by_cases hnil : value = []
    · subst hnil
      simp [longestValue, hc, hend, htail]
    · have hrest := ih hnil fun m => hv (List.mem_cons_of_mem _ m)
      simp [longestValue, hc, hrest]

theorem memberLine?_line {name value tail : String} (hn : IsName name) (hv : IsNumeral value)
    (ht : tail = "" ∨ tail = ",") :
    memberLine? (name ++ " = " ++ value ++ tail).toList = some ⟨name, some value, none⟩ := by
  have hline : (name ++ " = " ++ value ++ tail).toList =
      name.toList ++ ' ' :: '=' :: ' ' :: (value.toList ++ tail.toList) := by simp
  have hvalue : longestValue (value.toList ++ tail.toList) = some (value.toList, none) := by
    rcases ht with rfl | rfl
    · exact longestValue_append hv.1 (not_mem_of_forall hv.2 rfl) rfl rfl
    · exact longestValue_append hv.1 (not_mem_of_forall hv.2 rfl) rfl rfl
  have hafter : afterBlanks longestValue (' ' :: (value.toList ++ tail.toList)) = some (value.toList, none) := by
    have hrest := afterBlanks_of_first longestValue (first_append hv.solid.first tail.toList)
    simp [afterBlanks, hrest, hvalue, show isBlank ' ' = true from rfl]
  unfold memberLine?
  rw [hline, word?_name hn rfl]
  simp [trimLeft, show isBlank ' ' = true from rfl, show isBlank '=' = false from rfl, hafter]

/-! ### Members of a struct -/

theorem dropMarks_of_uncommented {cs : List Char} (h : Uncommented cs) (hc : ¬['*', '/'] <:+: cs) :
    dropMarks cs = cs := by
  induction cs with
  | nil => rfl
  | cons c cs ih =>
    have hcs := ih (h.of_isInfix (List.suffix_cons c cs).isInfix) fun m => hc (m.trans (List.suffix_cons c cs).isInfix)
    rw [dropMarks, hcs]
    · rintro rest rfl rfl
      exact h.block (List.prefix_append ['/', '*'] rest).isInfix
    · rintro rest rfl rfl
      exact hc (List.prefix_append ['*', '/'] rest).isInfix
    · rintro rest rfl rfl
      exact h.line (List.prefix_append ['/', '/'] rest).isInfix

theorem dropClosing_append {cs : List Char} (h : cs ≠ []) : dropClosing (cs ++ ['*', '/']) = cs := by
  have hr : (cs ++ ['*', '/']).reverse = '/' :: '*' :: cs.reverse := by simp
  unfold dropClosing
  rw [hr]
  cases hc : cs.reverse with
  | nil => exact absurd (List.reverse_eq_nil_iff.mp hc) h
  | cons c rest =>
    show (c :: rest).reverse = cs
    rw [← hc, List.reverse_reverse]

theorem cleanComment_between {cs : List Char} (hs : Solid cs) (h : Uncommented cs) (hc : ¬['*', '/'] <:+: cs) :
    cleanComment (some (' ' :: (cs ++ [' ']))) = String.ofList cs := by
  have hdrop : dropMarks (' ' :: (cs ++ [' '])) = ' ' :: (cs ++ [' ']) :=
    dropMarks_of_uncommented (h.between (by decide) (by decide))
      fun m => hc (pair_infix_of_between (by decide) (by decide) m)
  have htrim : trim ([' '] ++ (cs ++ [' '])) = cs := hs.trim_between (by decide) (by decide)
  rw [List.singleton_append] at htrim
  rw [cleanComment, hdrop, htrim]

theorem fieldLine?_line {type name : String} (ht : IsName type) (hn : IsName name) {tail : List Char}
    {comment : Option (List Char)} (h : fieldTail? tail = some comment) :
    fieldLine? ((type ++ " " ++ name ++ ";").toList ++ tail) = some ⟨name, some type, some (cleanComment comment)⟩ := by
  have hline : (type ++ " " ++ name ++ ";").toList ++ tail =
      type.toList ++ ' ' :: (name.toList ++ ';' :: tail) := by simp
  unfold fieldLine?
  rw [hline, word?_name ht rfl]
  simp [behindBlanks?_cons (first_append hn.solid.first _), word?_name hn (c := ';') rfl, trimLeft,
    show isBlank ';' = false from rfl, h]

theorem fieldLine?_of_not_word {c : Char} (h : isWord c = false) (cs : List Char) : fieldLine? (c :: cs) = none := by
  simp [fieldLine?, word?, h]

/-! ### Bodies -/

/-- A body opens where the keyword, blanks, a name and perhaps further blanks stand before a brace. -/
theorem opening?_eq_some_iff {keyword cs : List Char} {name : String} {rest : List Char} :
    opening? keyword cs = some (name, rest) ↔ ∃ gap word gap', IsGap gap ∧ IsWord word ∧ (∀ c ∈ gap', isBlank c = true) ∧
      name = String.ofList word ∧ cs = keyword ++ (gap ++ (word ++ (gap' ++ '\x7b' :: rest))) := by
  constructor
  · intro h
    simp only [opening?, Option.bind_eq_bind, Option.bind_eq_some_iff, behind?_eq_some_iff] at h
    obtain ⟨r₁, rfl, r₂, h₂, ⟨word, r₃⟩, h₃, h⟩ := h
    obtain ⟨gap, hgap, rfl⟩ := of_behindBlanks?_eq_some h₂
    obtain ⟨hword, -, rfl⟩ := word?_eq_some_iff.mp h₃
    split at h
    · next r hr =>
      cases h
      refine ⟨gap, word, r₃.takeWhile isBlank, hgap, hword, fun c hc => List.mem_takeWhile_imp hc, rfl, ?_⟩
      rw [← hr, trimLeft, List.takeWhile_append_dropWhile]
    · cases h
  · rintro ⟨gap, word, gap', hgap, hword, hgap', rfl, rfl⟩
    have hafter : ∀ c ∈ (gap' ++ '\x7b' :: rest).head?, isWord c = false := by
      cases gap' with
      | nil =>
        rintro c ⟨⟩
        rfl
      | cons b gap' =>
        rintro c ⟨⟩
        exact isWord_of_isBlank (hgap' b List.mem_cons_self)
    have hfirst : ∀ c ∈ (word ++ (gap' ++ '\x7b' :: rest)).head?, isBlank c = false := by
      cases word with
      | nil => exact absurd rfl hword.1
      | cons b word =>
        rintro c ⟨⟩
        exact isBlank_of_isWord (hword.2 b List.mem_cons_self)
    have hbrace : trimLeft (gap' ++ '\x7b' :: rest) = '\x7b' :: rest := dropWhile_append_of_head hgap' (by rintro c ⟨⟩; rfl)
    simp only [opening?, behind?_append, behindBlanks?_append hgap hfirst, word?_eq_some_iff.mpr ⟨hword, hafter, rfl⟩, hbrace,
      Option.bind_eq_bind, Option.bind_some]

/-- A body opens behind its keyword and its name, whether its brace stands on the same line or on the next. -/
theorem opening?_line (keyword : List Char) {name : String} (hn : IsName name) {gap : Char}
    (hg : gap = ' ' ∨ gap = '\n') (rest : List Char) :
    opening? keyword (keyword ++ ' ' :: (name.toList ++ gap :: '\x7b' :: rest)) = some (name, rest) := by
  have hword : IsWord name.toList := ⟨hn.1, fun c hc => isWord_of_isName (hn.2 c hc)⟩
  have hblank : ∀ c ∈ [gap], isBlank c = true := by rcases hg with rfl | rfl <;> decide
  exact opening?_eq_some_iff.mpr ⟨[' '], name.toList, [gap], ⟨by simp, by decide⟩, hword, hblank, by simp, rfl⟩

end CodeBridge.Header
