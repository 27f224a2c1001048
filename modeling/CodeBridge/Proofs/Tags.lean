import CodeBridge.Name.Snake
import CodeBridge.Proofs.Characters

/-! # Tags

Every name that is not empty has a form in snake case. What holds of its characters holds of those of the form, if
small letters and the underscore have it too: the text written so far together with the piece in hand keeps it at each
step of the machine. So a name of name characters which are not all underscores gives such a name again, since what is
no underscore is never lost and keeps its order, and a name without a line feed gives one without. -/

namespace CodeBridge.Name

open Text

/-! ### Lower case -/

/-- What the underscore has, and the small letters of all characters that have it. -/
structure Kept (p : Char → Prop) : Prop where
  lower : ∀ c, p c → ∀ d ∈ lower c, p d
  underscore : p '_'

theorem Kept.lowered {p : Char → Prop} (hp : Kept p) {cs : List Char} (h : ∀ c ∈ cs, p c) : ∀ c ∈ lowered cs, p c := by
  intro d hd
  obtain ⟨c, hc, hd⟩ := List.mem_flatMap.mp hd
  exact hp.lower c (h c hc) d hd

theorem kept_isName : Kept fun c => isName c = true where
  lower c hc := by
    have all : ∀ n : Fin 128, isName (Char.ofNat n) = true → ∀ d ∈ lower (Char.ofNat n), isName d = true := by decide
    exact of_ascii (p := fun c => isName c = true → ∀ d ∈ lower c, isName d = true) all (toNat_lt_of_isName hc) hc
  underscore := by decide

/-- The tables of letters lead to small letters or beyond all marks of ASCII. -/
theorem lowerShifts_beyond : ∀ s ∈ lowerShifts, 125 < (s.span.first : Int) + s.distance ∨
    (s.span.last = s.span.first ∧ (s.span.first : Int) + s.distance = 107) := by
  decide +kernel

theorem toNat_of_mem_lower {c d : Char} (h : d ∈ lower c) :
    d = c ∨ d.toNat = 0 ∨ (97 ≤ d.toNat ∧ d.toNat ≤ 122) ∨ 125 < d.toNat := by
  have hofNat : ∀ n, (Char.ofNat n).toNat = n ∨ (Char.ofNat n).toNat = 0 := by
    intro n
    rw [Char.toNat_ofNat]
    split
    · exact .inl rfl
    · exact .inr rfl
  unfold lower at h
  split at h
  · split at h
    · next hcapital =>
      rw [List.mem_singleton.mp h]
      simp only [Bool.and_eq_true, decide_eq_true_eq] at hcapital
      have hfirst : 65 ≤ c.toNat := hcapital.1
      have hlast : c.toNat ≤ 90 := hcapital.2
      have := hofNat (c.toNat + 32)
      omega
    · exact .inl (List.mem_singleton.mp h)
  · split at h
    · have all : ∀ d ∈ ['i', Char.ofNat 0x307], d.toNat = 105 ∨ 125 < d.toNat := by decide
      have := all d h
      omega
    · split at h
      · next s hs =>
        rw [List.mem_singleton.mp h]
        have hholds := List.find?_some hs
        simp only [Span.holds, Bool.and_eq_true, decide_eq_true_eq] at hholds
        have hbeyond := lowerShifts_beyond s (List.mem_of_find?_eq_some hs)
        have := hofNat (c.toNat + s.distance).toNat
        omega
      · exact .inl (List.mem_singleton.mp h)

/-- A character of ASCII that no other is written as in small letters. -/
def IsUnmade (c : Char) : Prop :=
  c ≠ '_' ∧ 0 < c.toNat ∧ c.toNat ≤ 125 ∧ ¬(97 ≤ c.toNat ∧ c.toNat ≤ 122)

instance : DecidablePred IsUnmade := fun c =>
  inferInstanceAs (Decidable (c ≠ '_' ∧ 0 < c.toNat ∧ c.toNat ≤ 125 ∧ ¬(97 ≤ c.toNat ∧ c.toNat ≤ 122)))

theorem IsUnmade.kept_ne {x : Char} (hx : IsUnmade x) : Kept fun c => c ≠ x where
  lower c hc d hd := by
    rintro rfl
    obtain ⟨-, hx⟩ := hx
    rcases toNat_of_mem_lower hd with rfl | h
    · exact hc rfl
    · omega
  underscore := hx.1.symm

theorem kept_ne_lineFeed : Kept fun c => c ≠ '\n' :=
  IsUnmade.kept_ne (by decide)

theorem spoken_lowered {cs : List Char} (h : ∀ c ∈ cs, isName c = true) (hs : ∃ c ∈ cs, c ≠ '_') :
    ∃ c ∈ lowered cs, c ≠ '_' := by
  have all : ∀ n : Fin 128, Char.ofNat n ≠ '_' → ∃ d ∈ lower (Char.ofNat n), d ≠ '_' := by decide
  obtain ⟨c, hc, hne⟩ := hs
  obtain ⟨d, hd, hd'⟩ := of_ascii (p := fun c => c ≠ '_' → ∃ d ∈ lower c, d ≠ '_') all
    (toNat_lt_of_isName (h c hc)) hne
  exact ⟨d, List.mem_flatMap.mpr ⟨c, hc, hd⟩, hd'⟩

theorem lowered_of_not_upper {c : Char} (hc : c.toNat < 128) (h : allUpper [c] = false) : lowered [c] = [c] := by
  have all : ∀ n : Fin 128, allUpper [Char.ofNat n] = false → lowered [Char.ofNat n] = [Char.ofNat n] := by decide
  exact of_ascii (p := fun c => allUpper [c] = false → lowered [c] = [c]) all hc h

/-! ### Underscores -/

theorem mem_joinUnderscores {c : Char} {cs : List Char} : c ∈ joinUnderscores cs ↔ c ∈ cs := by
  fun_induction joinUnderscores cs with
  | case1 rest ih => simpa using ih
  | case2 d rest _ ih => simp [ih]
  | case3 => rfl

theorem mem_of_mem_dropUnderscore {c : Char} {cs : List Char} (h : c ∈ dropUnderscore cs) : c ∈ cs := by
  unfold dropUnderscore at h
  split at h
  · exact List.mem_cons_of_mem _ h
  · exact h

theorem mem_dropUnderscore {c : Char} (hc : c ≠ '_') {cs : List Char} (h : c ∈ cs) : c ∈ dropUnderscore cs := by
  unfold dropUnderscore
  split
  · exact (List.mem_cons.mp h).resolve_left hc
  · exact h

/-- The characters of a text that are no underscores. -/
def unscored (cs : List Char) : List Char :=
  cs.filter (· != '_')

theorem unscored_append (a b : List Char) : unscored (a ++ b) = unscored a ++ unscored b :=
  List.filter_append ..

theorem unscored_lowered {cs : List Char} (h : ∀ c ∈ cs, c.toNat < 128) :
    unscored (lowered cs) = lowered (unscored cs) := by
  have all : ∀ n : Fin 128, unscored (lower (Char.ofNat n)) = lowered (unscored [Char.ofNat n]) := by decide
  induction cs with
  | nil => rfl
  | cons c cs ih =>
    obtain ⟨hc, hcs⟩ := List.forall_mem_cons.mp h
    have hfirst := of_ascii (p := fun c => unscored (lower c) = lowered (unscored [c])) all hc
    have hsplit : unscored (c :: cs) = unscored [c] ++ unscored cs := unscored_append [c] cs
    rw [hsplit, lowered, List.flatMap_cons, unscored_append, hfirst]
    simp only [lowered] at ih ⊢
    rw [ih hcs, List.flatMap_append]

theorem unscored_joinUnderscores (cs : List Char) : unscored (joinUnderscores cs) = unscored cs := by
  fun_induction joinUnderscores cs with
  | case1 rest ih => simpa [unscored] using ih
  | case2 c rest _ ih =>
    rw [unscored] at ih
    simp [unscored, List.filter_cons, ih]
  | case3 => rfl

theorem unscored_dropUnderscore (cs : List Char) : unscored (dropUnderscore cs) = unscored cs := by
  unfold dropUnderscore
  split
  · simp [unscored]
  · rfl

theorem head?_unscored {cs : List Char} (h : cs.head? ≠ some '_') : (unscored cs).head? = cs.head? := by
  cases cs with
  | nil => rfl
  | cons c cs =>
    have hc : c ≠ '_' := fun e => h (e ▸ rfl)
    simp [unscored, hc]

theorem head?_joinUnderscores (cs : List Char) : (joinUnderscores cs).head? = cs.head? := by
  fun_induction joinUnderscores cs with
  | case1 rest ih => exact ih
  | case2 c rest _ _ => rfl
  | case3 => rfl

/-- No underscore is left at the start of a text whose underscores are joined. -/
theorem head?_dropUnderscore_joinUnderscores (cs : List Char) :
    (dropUnderscore (joinUnderscores cs)).head? ≠ some '_' := by
  fun_induction joinUnderscores cs with
  | case1 rest ih => exact ih
  | case2 c rest hnext _ =>
    by_cases hc : c = '_'
    · subst hc
      rw [dropUnderscore, head?_joinUnderscores]
      intro hhead
      obtain ⟨tail, rfl⟩ := List.head?_eq_some_iff.mp hhead
      exact hnext tail rfl rfl
    · rw [dropUnderscore]
      · simpa using hc
      · rintro tail ⟨rfl, -⟩
        exact hc rfl
  | case3 => simp [dropUnderscore]

namespace Snake

/-! ### Steps of the machine -/

/-- The text of the machine: what is written and the piece in hand. -/
def text (s : Snake) : List Char :=
  s.result ++ s.previous.getD []

/-- The piece in hand is written in small letters, or as it is if it is no capital, and at most an underscore comes
beside it. -/
theorem emitted_cases (result previous next : List Char) :
    ∃ piece, (piece = previous ∧ allUpper previous = false ∨ piece = lowered previous) ∧
      (emitted result previous next = piece ∨ emitted result previous next = piece ++ ['_'] ∨
        emitted result previous next = '_' :: piece) := by
  unfold emitted
  split
  · split
    · exact ⟨lowered previous, .inr rfl, .inl rfl⟩
    next hupper =>
      have hupper := eq_false_of_ne_true hupper
      split
      · exact ⟨previous, .inl ⟨rfl, hupper⟩, .inr (.inl rfl)⟩
      · exact ⟨previous, .inl ⟨rfl, hupper⟩, .inl rfl⟩
  split
  · split
    · split
      · exact ⟨lowered previous, .inr rfl, .inl rfl⟩
      · exact ⟨lowered previous, .inr rfl, .inr (.inr rfl)⟩
    next hupper =>
      split
      · exact ⟨previous, .inl ⟨rfl, eq_false_of_ne_true hupper⟩, .inl rfl⟩
      · exact ⟨lowered previous, .inr rfl, .inl rfl⟩
  · exact ⟨lowered previous, .inr rfl, .inl rfl⟩

theorem kept_emitted {p : Char → Prop} (hp : Kept p) {result previous next : List Char} (h : ∀ c ∈ previous, p c) :
    ∀ c ∈ emitted result previous next, p c := by
  obtain ⟨piece, hpiece, hemitted⟩ := emitted_cases result previous next
  have hkept : ∀ c ∈ piece, p c := by
    rcases hpiece with ⟨rfl, -⟩ | rfl
    · exact h
    · exact hp.lowered h
  rcases hemitted with e | e | e
  · rwa [e]
  · rw [e]
    simpa [or_imp, forall_and, hp.underscore] using hkept
  · rw [e]
    simpa [hp.underscore] using hkept

theorem spoken_emitted (result next : List Char) {previous : List Char} (h : ∀ c ∈ previous, isName c = true)
    (hs : ∃ c ∈ previous, c ≠ '_') : ∃ c ∈ emitted result previous next, c ≠ '_' := by
  obtain ⟨piece, hpiece, hemitted⟩ := emitted_cases result previous next
  obtain ⟨c, hc, hne⟩ : ∃ c ∈ piece, c ≠ '_' := by
    rcases hpiece with ⟨rfl, -⟩ | rfl
    · exact hs
    · exact spoken_lowered h hs
  rcases hemitted with e | e | e <;> exact ⟨c, by simp [e, hc], hne⟩

/-- A character goes out in small letters, underscores apart. -/
theorem unscored_emitted (result next : List Char) {c : Char} (hc : c.toNat < 128) :
    unscored (emitted result [c] next) = lowered (unscored [c]) := by
  have hlowered : ∀ d ∈ [c], d.toNat < 128 := by simpa using hc
  obtain ⟨piece, hpiece, hemitted⟩ := emitted_cases result [c] next
  obtain rfl : piece = lowered [c] := by
    rcases hpiece with ⟨rfl, hupper⟩ | rfl
    · exact (lowered_of_not_upper hc hupper).symm
    · rfl
  rw [← unscored_lowered hlowered]
  rcases hemitted with e | e | e <;> simp [e, unscored]

theorem kept_push {p : Char → Prop} (hp : Kept p) {s : Snake} {c : Char} (hs : ∀ c ∈ s.text, p c) (hc : p c) :
    ∀ d ∈ (s.push [c]).text, p d := by
  intro d hd
  cases hprevious : s.previous with
  | none =>
    simp only [text, push, hprevious, Option.getD_some, List.mem_append, List.mem_singleton] at hd
    rcases hd with hd | rfl
    · exact hs d (List.mem_append_left _ hd)
    · exact hc
  | some previous =>
    have hkept : ∀ c ∈ previous, p c := fun c hc => hs c (by simp [text, hprevious, hc])
    simp only [text, push, hprevious, Option.getD_some, List.mem_append, List.mem_singleton] at hd
    rcases hd with (hd | hd) | rfl
    · exact hs d (List.mem_append_left _ hd)
    · exact kept_emitted hp hkept d hd
    · exact hc

theorem spoken_push {s : Snake} {c : Char} (hs : ∀ c ∈ s.text, isName c = true)
    (h : (∃ c ∈ s.text, c ≠ '_') ∨ c ≠ '_') : ∃ d ∈ (s.push [c]).text, d ≠ '_' := by
  rcases h with ⟨d, hd, hne⟩ | hne
  · cases hp : s.previous with
    | none => exact ⟨d, by simp_all [text, push], hne⟩
    | some previous =>
      have hprevious : ∀ c ∈ previous, isName c = true := fun c hc => hs c (by simp [text, hp, hc])
      simp only [text, hp, Option.getD_some, List.mem_append] at hd
      -- What is written stays; the piece in hand goes out, and a letter in it may become a small one.
      rcases hd with hd | hd
      · exact ⟨d, by simp [text, push, hp, hd], hne⟩
      · obtain ⟨e, he, hne⟩ := spoken_emitted s.result [c] hprevious ⟨d, hd, hne⟩
        exact ⟨e, by simp [text, push, hp, he], hne⟩
  · refine ⟨c, ?_, hne⟩
    cases hp : s.previous <;> simp [text, push, hp]

/-! ### Runs of the machine -/

/-- The machine after the characters of a text, the last of them still in hand. -/
def pushed (cs : List Char) : Snake :=
  cs.foldl (fun s c => s.push [c]) ⟨[], none⟩

theorem pushed_concat (cs : List Char) (c : Char) : pushed (cs ++ [c]) = (pushed cs).push [c] := by
  simp [pushed]

theorem previous_pushed_concat (cs : List Char) (c : Char) : (pushed (cs ++ [c])).previous = some [c] := by
  rw [pushed_concat, push]
  split <;> rfl

theorem kept_pushed {p : Char → Prop} (hp : Kept p) {cs : List Char} (h : ∀ c ∈ cs, p c) :
    ∀ c ∈ (pushed cs).text, p c := by
  induction cs using List.reverseRecOn with
  | nil => exact fun c hc => nomatch hc
  | append_singleton cs c ih =>
    rw [pushed_concat]
    exact kept_push hp (ih fun d hd => h d (List.mem_append_left _ hd)) (h c (by simp))

theorem spoken_pushed {cs : List Char} (h : ∀ c ∈ cs, isName c = true) (hs : ∃ c ∈ cs, c ≠ '_') :
    ∃ c ∈ (pushed cs).text, c ≠ '_' := by
  induction cs using List.reverseRecOn with
  | nil => exact hs
  | append_singleton cs c ih =>
    have hcs : ∀ d ∈ cs, isName d = true := fun d hd => h d (List.mem_append_left _ hd)
    rw [pushed_concat]
    refine spoken_push (kept_pushed kept_isName hcs) ?_
    obtain ⟨d, hd, hne⟩ := hs
    rcases List.mem_append.mp hd with hd | hd
    · exact .inl (ih hcs ⟨d, hd, hne⟩)
    · exact .inr (List.mem_singleton.mp hd ▸ hne)

/-- What is written are the characters before the last in small letters, underscores apart. -/
theorem unscored_result_pushed {cs : List Char} (h : ∀ c ∈ cs, c.toNat < 128) (c : Char) :
    unscored (pushed (cs ++ [c])).result = lowered (unscored cs) := by
  induction cs using List.reverseRecOn generalizing c with
  | nil => rfl
  | append_singleton cs b ih =>
    obtain ⟨hcs, hb⟩ := List.forall_mem_append.mp h
    have hprevious := previous_pushed_concat cs b
    rw [pushed_concat, push, hprevious, unscored_append, ih hcs b, unscored_emitted _ _ (hb b List.mem_cons_self),
      unscored_append, lowered, lowered, lowered, List.flatMap_append]

end Snake

/-! ### Whole names -/

/-- The last piece goes out in small letters, and then the underscores are put in order. -/
theorem snake_eq {name : String} (h : name ≠ "") :
    ∃ c, (Snake.pushed name.toList).previous = some [c] ∧ snake name =
      .ok (String.ofList (dropUnderscore (joinUnderscores ((Snake.pushed name.toList).result ++ lowered [c])))) := by
  have hne : name.toList ≠ [] := by simpa using h
  obtain ⟨c, hc⟩ : ∃ c, (Snake.pushed name.toList).previous = some [c] := by
    rw [← List.dropLast_concat_getLast hne]
    exact ⟨_, Snake.previous_pushed_concat _ _⟩
  refine ⟨c, hc, ?_⟩
  have hfinish : (Snake.pushed name.toList).finish = .ok ⟨(Snake.pushed name.toList).result ++ lowered [c], none⟩ := by
    rw [Snake.finish, hc]
  have htext : Snake.ofText name.toList =
      .ok ⟨dropUnderscore (joinUnderscores ((Snake.pushed name.toList).result ++ lowered [c])), none⟩ := by
    show (do
      let s ← (Snake.pushed name.toList).finish
      return Snake.mk (dropUnderscore (joinUnderscores s.result)) s.previous) = _
    rw [hfinish]
    rfl
  rw [snake, htext]
  rfl

/-- What all characters of a name have, those of its snake case have too. -/
theorem Kept.snake {p : Char → Prop} (hp : Kept p) {name tag : String} (h : ∀ c ∈ name.toList, p c)
    (htag : Name.snake name = .ok tag) : ∀ c ∈ tag.toList, p c := by
  have hne : name ≠ "" := by
    rintro rfl
    cases htag
  obtain ⟨c, hc, e⟩ := snake_eq hne
  cases htag.symm.trans e
  have hkept := Snake.kept_pushed hp h
  simp only [Snake.text, hc, Option.getD_some] at hkept
  intro d hd
  rw [String.toList_ofList] at hd
  rcases List.mem_append.mp (mem_joinUnderscores.mp (mem_of_mem_dropUnderscore hd)) with hd | hd
  · exact hkept d (List.mem_append_left _ hd)
  · exact hp.lowered (fun d hd => hkept d (List.mem_append_right _ hd)) d hd

/-- No character but underscores is lost, added or put elsewhere. -/
theorem unscored_snake {name tag : String} (h : ∀ c ∈ name.toList, c.toNat < 128) (htag : snake name = .ok tag) :
    unscored tag.toList = lowered (unscored name.toList) := by
  have hne : name ≠ "" := by
    rintro rfl
    cases htag
  obtain ⟨c, hc, e⟩ := snake_eq hne
  cases htag.symm.trans e
  have hlast := List.dropLast_concat_getLast (l := name.toList) (by simpa using hne)
  rw [String.toList_ofList, unscored_dropUnderscore, unscored_joinUnderscores, unscored_append]
  rw [← hlast] at hc h ⊢
  obtain ⟨hinit, hend⟩ := List.forall_mem_append.mp h
  cases hc.symm.trans (Snake.previous_pushed_concat _ _)
  rw [Snake.unscored_result_pushed hinit, unscored_lowered hend, unscored_append, lowered, lowered, lowered,
    List.flatMap_append]

theorem head?_snake {name tag : String} (h : ∀ c ∈ name.toList, c.toNat < 128) (htag : snake name = .ok tag) :
    tag.toList.head? = (lowered (unscored name.toList)).head? := by
  have hne : name ≠ "" := by
    rintro rfl
    cases htag
  have hfirst : tag.toList.head? ≠ some '_' := by
    obtain ⟨c, -, e⟩ := snake_eq hne
    cases htag.symm.trans e
    rw [String.toList_ofList]
    exact head?_dropUnderscore_joinUnderscores _
  rw [← unscored_snake h htag, head?_unscored hfirst]

/-- The snake case of a name of name characters, not all of them underscores, is such a name. -/
theorem isName_snake {name : String} (h : IsName name) (hs : ∃ c ∈ name.toList, c ≠ '_') :
    ∃ tag, snake name = .ok tag ∧ IsName tag := by
  have hne : name ≠ "" := by
    rintro rfl
    exact h.1 rfl
  obtain ⟨c, hc, e⟩ := snake_eq hne
  refine ⟨_, e, ?_, kept_isName.snake h.2 e⟩
  have hname := Snake.kept_pushed kept_isName h.2
  have hspoken := Snake.spoken_pushed h.2 hs
  simp only [Snake.text, hc, Option.getD_some] at hname hspoken
  have hlast : ∀ d ∈ [c], isName d = true := fun d hd => hname d (List.mem_append_right _ hd)
  obtain ⟨d, hd, hne⟩ : ∃ d ∈ (Snake.pushed name.toList).result ++ lowered [c], d ≠ '_' := by
    obtain ⟨d, hd, hne⟩ := hspoken
    rcases List.mem_append.mp hd with hd | hd
    · exact ⟨d, List.mem_append_left _ hd, hne⟩
    · obtain ⟨d, hd, hne⟩ := spoken_lowered hlast ⟨d, hd, hne⟩
      exact ⟨d, List.mem_append_right _ hd, hne⟩
  rw [String.toList_ofList]
  exact List.ne_nil_of_mem (mem_dropUnderscore hne (mem_joinUnderscores.mpr hd))

end CodeBridge.Name
