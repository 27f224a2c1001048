import CodeBridge.Proofs.HeaderContents

/-! # String literals

What a string literal of C stands for. A backslash changes the meaning of the character behind it, and a quote that no
backslash belongs to ends the literal. The two tables by which texts are quoted give the same literal, and it is one
literal that stands for the text, whatever the text holds. -/

namespace CodeBridge.Text

namespace Literal

/-! ### Reading -/

/-- The character that a letter behind a backslash stands for. -/
def meaning? (c : Char) : Option Char :=
  match c with
  | '"' => some '"'
  | '\\' => some '\\'
  | 'n' => some '\n'
  | 'r' => some '\r'
  | 't' => some '\t'
  | 'f' => some '\x0c'
  | 'b' => some '\x08'
  | 'a' => some '\x07'
  | 'v' => some '\x0b'
  | _ => none

/-- What the inside of a literal stands for, read from left to right. A backslash without a meaning is refused. -/
def decode : List Char → Option (List Char)
  | [] => some []
  | '\\' :: m :: cs => do return (← meaning? m) :: (← decode cs)
  | c :: cs => if c = '\\' then none else do return c :: (← decode cs)

theorem decode_backslash {m c : Char} (h : meaning? m = some c) (cs : List Char) :
    decode ('\\' :: m :: cs) = (decode cs).map (c :: ·) := by
  rw [decode, h]
  cases decode cs <;> rfl

theorem decode_cons {c : Char} (h : c ≠ '\\') (cs : List Char) : decode (c :: cs) = (decode cs).map (c :: ·) := by
  rw [decode, if_neg h]
  · cases decode cs <;> rfl
  · exact fun _ _ hc _ => h hc

/-- How many backslashes there are at the end. -/
def backslashes (cs : List Char) : Nat :=
  (cs.rtakeWhile (· == '\\')).length

/-- No backslash belongs to what stands behind these characters: those at their end belong to each other. -/
def Free (before : List Char) : Prop :=
  backslashes before % 2 = 0

instance : DecidablePred Free := fun before => inferInstanceAs (Decidable (backslashes before % 2 = 0))

/-- A single literal that stands for the text: the quotes at its ends are the only ones without a backslash, and what is
between them stands for the text. -/
structure Spells (literal text : String) : Prop where
  decoded : ∃ inside, literal.toList = '"' :: inside ++ ['"'] ∧ decode inside = some text.toList
  single : ∀ before after, literal.toList = before ++ '"' :: after → (Free before ↔ before = [] ∨ after = [])

/-! ### Backslashes -/

theorem backslashes_concat (cs : List Char) (c : Char) :
    backslashes (cs ++ [c]) = if c = '\\' then backslashes cs + 1 else 0 := by
  unfold backslashes
  rw [List.rtakeWhile_concat]
  by_cases hc : c = '\\' <;> simp [hc]

theorem free_concat {c : Char} (hc : c ≠ '\\') (cs : List Char) : Free (cs ++ [c]) := by
  rw [Free, backslashes_concat, if_neg hc]

theorem free_concat_backslash (cs : List Char) : Free (cs ++ ['\\']) ↔ ¬Free cs := by
  rw [Free, Free, backslashes_concat, if_pos rfl]
  omega

/-- What is in front of another character than a backslash does not count. -/
theorem backslashes_cons {c : Char} (hc : c ≠ '\\') (cs : List Char) : backslashes (c :: cs) = backslashes cs := by
  induction cs using List.reverseRecOn with
  | nil => exact (backslashes_concat [] c).trans (if_neg hc)
  | append_singleton cs d ih => rw [← List.cons_append, backslashes_concat, backslashes_concat, ih]

theorem free_of_not_mem {cs : List Char} (h : '\\' ∉ cs) : Free cs := by
  rcases List.eq_nil_or_concat' cs with rfl | ⟨cs, c, rfl⟩
  · rfl
  · have hc : c ≠ '\\' := by
      rintro rfl
      exact h (by simp)
    exact free_concat hc cs

/-- A literal is single if no backslash belongs to what ends it, and to each quote inside of it one does. -/
theorem Spells.of_inside {literal text : String} {inside : List Char} (hliteral : literal.toList = '"' :: inside ++ ['"'])
    (hdecode : decode inside = some text.toList) (hfree : Free inside)
    (hinside : ∀ before after, inside = before ++ '"' :: after → ¬Free before) : Spells literal text where
  decoded := ⟨inside, hliteral, hdecode⟩
  single := by
    intro before after h
    rw [hliteral] at h
    cases before with
    | nil => exact iff_of_true rfl (.inl rfl)
    | cons c before =>
      rw [List.cons_append, List.cons_append] at h
      obtain ⟨rfl, hrest⟩ := List.cons.inj h
      have hcons : Free ('"' :: before) ↔ Free before := by rw [Free, Free, backslashes_cons (by decide)]
      rw [hcons]
      rcases List.eq_nil_or_concat' after with rfl | ⟨after, d, rfl⟩
      · obtain ⟨rfl, -⟩ := List.append_inj' hrest rfl
        exact iff_of_true hfree (.inr rfl)
      · rw [← List.cons_append, ← List.append_assoc] at hrest
        obtain ⟨hbefore, -⟩ := List.append_inj' hrest rfl
        exact iff_of_false (hinside before after hbefore) (by simp)

end Literal

/-! ### Quoted texts -/

namespace Escape

open Literal

theorem meaning?_of_mark? {c m : Char} (h : mark? c = some m) : meaning? m = some c := by
  unfold mark? at h
  split at h <;> cases h <;> rfl

theorem ne_of_mark?_eq_none {c d : Char} (h : mark? c = none) (hd : (mark? d).isSome = true) : c ≠ d := by
  rintro rfl
  rw [h] at hd
  cases hd

theorem encode_concat (cs : List Char) (c : Char) : encode (cs ++ [c]) = encode cs ++ encodeChar c := by
  simp [encode]

theorem decode_encode (cs : List Char) : decode (encode cs) = some cs := by
  induction cs with
  | nil => rfl
  | cons c cs ih =>
    have hcons : encode (c :: cs) = encodeChar c ++ encode cs := List.flatMap_cons
    rw [hcons, encodeChar]
    cases hmark : mark? c with
    | some m =>
      show decode ('\\' :: m :: encode cs) = _
      rw [decode_backslash (meaning?_of_mark? hmark), ih]
      rfl
    | none =>
      show decode (c :: encode cs) = _
      rw [decode_cons (ne_of_mark?_eq_none hmark rfl), ih]
      rfl

/-- Each character of a text is written so that no backslash is left for the next one. -/
theorem free_encode (cs : List Char) : Free (encode cs) := by
  induction cs using List.reverseRecOn with
  | nil => rfl
  | append_singleton cs c ih =>
    rw [encode_concat, encodeChar]
    cases hmark : mark? c with
    | some m =>
      show Free (encode cs ++ ['\\', m])
      rw [List.append_cons]
      by_cases hm : m = '\\'
      · subst hm
        rw [free_concat_backslash, free_concat_backslash, not_not]
        exact ih
      · exact free_concat hm _
    | none => exact free_concat (ne_of_mark?_eq_none hmark rfl) _

/-- A quote in what a character is written as stands behind a backslash. -/
theorem eq_of_encodeChar_eq_append {c : Char} {before after : List Char} (h : encodeChar c = before ++ '"' :: after) :
    before = ['\\'] := by
  unfold encodeChar at h
  cases hmark : mark? c with
  | some m =>
    rw [hmark] at h
    rcases before with _ | ⟨x, _ | ⟨y, before⟩⟩
    · exact absurd (List.cons.inj h).1 (by decide)
    · rw [(List.cons.inj h).1]
    · simp at h
  | none =>
    rw [hmark] at h
    rcases before with _ | ⟨x, before⟩
    · exact absurd (List.cons.inj h).1 (ne_of_mark?_eq_none hmark rfl)
    · simp at h

theorem not_free_of_encode_eq_append {cs before after : List Char} (h : encode cs = before ++ '"' :: after) :
    ¬Free before := by
  induction cs using List.reverseRecOn generalizing after with
  | nil => simp [encode] at h
  | append_singleton cs c ih =>
    rw [encode_concat] at h
    rcases List.append_eq_append_iff.mp h with ⟨front, rfl, hchar⟩ | ⟨back, hencode, hback⟩
    · -- The quote is part of the last character.
      rw [eq_of_encodeChar_eq_append hchar, free_concat_backslash, not_not]
      exact free_encode cs
    · cases back with
      | nil =>
        have hnil : [] = ['\\'] := eq_of_encodeChar_eq_append hback.symm
        cases hnil
      | cons d back =>
        obtain ⟨rfl, -⟩ := List.cons.inj hback
        exact ih hencode

theorem toList_quote (s : String) : (quote s).toList = '"' :: encode s.toList ++ ['"'] := by
  simp [quote, escape]

theorem spells_quote (s : String) : Spells (quote s) s :=
  .of_inside (toList_quote s) (decode_encode s.toList) (free_encode s.toList) fun _ _ => not_free_of_encode_eq_append

end Escape

end CodeBridge.Text

namespace CodeBridge.Emit.Printers

open Text

/-- The table of the printers holds what the marks say. -/
theorem lookup_escapes (c : Char) : escapes.lookup c = (Escape.mark? c).map fun m => String.ofList ['\\', m] := by
  unfold Escape.mark?
  split
  case h_10 h₁ h₂ h₃ h₄ h₅ h₆ h₇ h₈ h₉ =>
    simpa [escapes, List.lookup_eq_none_iff] using ⟨h₁, h₂, h₃, h₄, h₅, h₆, h₇, h₈, h₉⟩
  all_goals rfl

theorem escape_eq (s : String) : escape s = Escape.escape s := by
  have hchar : ∀ c, ((escapes.lookup c).getD (String.singleton c)).toList = Escape.encodeChar c := by
    intro c
    rw [lookup_escapes, Escape.encodeChar]
    cases Escape.mark? c <;> simp
  rw [← String.toList_inj, escape, Escape.escape, String.toList_join, String.toList_ofList, List.flatMap_map]
  simp only [hchar, Escape.encode]

theorem quote_eq (s : String) : quote s = Escape.quote s := by
  rw [quote, Escape.quote, escape_eq]

/-- Whatever text a constant has, its literal in the header is the one that the printers give. It holds no character that
ends a line or moves the place of printing, and it is a single literal that stands for the text. -/
theorem constant_literal_spells (text : String) :
    Header.literal (.text text) = .ok (quote text) ∧ quote text = Escape.quote text ∧
      (∀ c ∈ ['\n', '\r', '\t', '\x0c', '\x08', '\x07', '\x0b'], c ∉ (quote text).toList) ∧
      Literal.Spells (quote text) text := by
  rw [quote_eq]
  refine ⟨rfl, rfl, ?_, Escape.spells_quote text⟩
  have hcontrol : ∀ c ∈ ['\n', '\r', '\t', '\x0c', '\x08', '\x07', '\x0b'],
      (Escape.mark? c).isSome = true ∧ c ∉ Escape.marks ∧ c ≠ '"' := by decide
  intro c hc
  obtain ⟨hmark, hmarks, hquote⟩ := hcontrol c hc
  rw [Escape.toList_quote]
  simpa [hquote] using Escape.not_mem_encode hmark hmarks text.toList

end CodeBridge.Emit.Printers
