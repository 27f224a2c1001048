import CodeBridge.Initializer.Evaluation
import CodeBridge.Proofs.Characters

/-! # Written numbers

The characters of numbers as text, and that the text of a whole number, taken as an initialiser, has that
number as its value. -/

namespace CodeBridge

open Text

/-! ### Characters -/

/-- The characters of written numbers and flags. -/
def isNumeral (c : Char) : Bool :=
  c.isAlphanum || c == '.' || c == '+' || c == '-'

/-- A text that can be a written number: not empty, and of nothing but the characters of numbers. -/
def IsNumeral (s : String) : Prop :=
  s.toList ≠ [] ∧ ∀ c ∈ s.toList, isNumeral c = true

instance : DecidablePred IsNumeral := fun s =>
  inferInstanceAs (Decidable (s.toList ≠ [] ∧ ∀ c ∈ s.toList, isNumeral c = true))

theorem isNumeral_of_isDigit {c : Char} (h : c.isDigit = true) : isNumeral c = true := by
  simp [isNumeral, Char.isAlphanum, h]

theorem isBlank_of_isNumeral {c : Char} (h : isNumeral c = true) : isBlank c = false := by
  simp only [isNumeral, Bool.or_eq_true, beq_iff_eq] at h
  rcases h with ((h | rfl) | rfl) | rfl
  · exact isBlank_of_isName (by simp [isName, h])
  · decide
  · decide
  · decide

theorem IsNumeral.solid {s : String} (h : IsNumeral s) : Solid s.toList :=
  .of_forall h.1 fun c hc => isBlank_of_isNumeral (h.2 c hc)

theorem IsNumeral.append {s t : String} (hs : IsNumeral s) (ht : IsNumeral t) : IsNumeral (s ++ t) :=
  ⟨by simp [hs.1], forall_mem_append hs.2 ht.2⟩

namespace Decimal

theorem tooLong_eq_false_iff {n : Int} : tooLong n = false ↔ n.natAbs < 10 ^ digitLimit := by
  rw [tooLong, decide_eq_false_iff_not, Nat.not_le, Nat.pow_eq]

theorem tooLong_eq_false {n : Int} (k : Nat) (hk : k ≤ digitLimit) (h : n.natAbs < 10 ^ k) : tooLong n = false :=
  tooLong_eq_false_iff.mpr (Nat.lt_of_lt_of_le h (Nat.pow_le_pow_right (by decide) hk))

@[simp] theorem toList_natText (n : Nat) : (natText n).toList = Nat.toDigits 10 n := by
  simp [natText]

theorem isDigit_of_mem_toDigits {n : Nat} {c : Char} (h : c ∈ Nat.toDigits 10 n) : c.isDigit = true :=
  Nat.isDigit_of_mem_toDigits (by decide) (by decide) h

theorem isNumeral_ofList {ds : List Char} (hne : ds ≠ []) (h : ∀ c ∈ ds, c.isDigit = true) :
    IsNumeral (String.ofList ds) := by
  refine ⟨by simpa using hne, fun c hc => isNumeral_of_isDigit (h c ?_)⟩
  simpa using hc

theorem isNumeral_natText (n : Nat) : IsNumeral (natText n) :=
  isNumeral_ofList Nat.toDigits_ne_nil fun _ => isDigit_of_mem_toDigits

theorem isNumeral_intText (n : Int) : IsNumeral (intText n) := by
  unfold intText
  split
  · exact .append ⟨by decide, by decide⟩ (isNumeral_natText _)
  · exact isNumeral_natText _

theorem isNumeral_of_mem_zeros {n : Nat} {c : Char} (h : c ∈ (zeros n).toList) : isNumeral c = true := by
  rw [zeros, String.toList_ofList] at h
  rw [(List.mem_replicate.mp h).2]
  decide

/-- Every layout of a decimal consists of its digits, zeros, a point, an exponent and signs. -/
theorem isNumeral_of_mem_layout (f : Layout) (d : Digits) : ∀ c ∈ (f.write d).toList, isNumeral c = true := by
  have hd : ∀ c ∈ Nat.toDigits 10 d.digits, isNumeral c = true := fun c hc =>
    isNumeral_of_isDigit (isDigit_of_mem_toDigits hc)
  have hz : ∀ n, ∀ c ∈ (zeros n).toList, isNumeral c = true := fun _ _ => isNumeral_of_mem_zeros
  unfold Layout.write
  dsimp only
  split
  · split
    · refine forall_mem_append (forall_mem_append ?_ (hz _)) (by decide)
      simpa using hd
    · split
      · refine forall_mem_append (forall_mem_append (by decide) (hz _)) ?_
        simpa using hd
      · refine forall_mem_append (forall_mem_append ?_ (by decide)) ?_
        · rw [String.toList_ofList]
          exact fun c hc => hd c (List.mem_of_mem_take hc)
        · rw [String.toList_ofList]
          exact fun c hc => hd c (List.mem_of_mem_drop hc)
  · refine forall_mem_append (forall_mem_append (forall_mem_append (forall_mem_append ?_
      (by decide)) ?_) (hz _)) (isNumeral_natText _).2
    · split
      · decide
      · next h => simpa [h] using hd
      · next h =>
        have hp : isNumeral '.' = true := by decide
        simpa [h, hp] using hd
    · split <;> decide

theorem isNumeral_layout (f : Layout) (d : Digits) : IsNumeral (f.write d) := by
  refine ⟨?_, isNumeral_of_mem_layout f d⟩
  unfold Layout.write
  dsimp only
  split
  · split
    · simp
    · split <;> simp
  · simp

theorem isNumeral_floatText (x : Float) : IsNumeral (floatText x) := by
  unfold floatText
  split
  · split
    · exact ⟨by decide, by decide⟩
    · split <;> exact ⟨by decide, by decide⟩
  · next b _ =>
    have body : IsNumeral (if b.mantissa == 0 then "0.0"
        else Layout.plain.write (shortestOfBits (x.toBits.toNat % 2 ^ 63) b)) := by
      split
      · exact ⟨by decide, by decide⟩
      · exact isNumeral_layout _ _
    dsimp only
    split
    · exact .append ⟨by decide, by decide⟩ body
    · exact body

end Decimal

/-! ### Reading a whole number back -/

namespace Initializer

open Decimal

theorem digit?_of_isDigit {c : Char} (h : c.isDigit = true) : digit? c = some (c.toNat - 48) := by
  have all : ∀ n : Fin 128, (Char.ofNat n).isDigit = true →
      digit? (Char.ofNat n) = some ((Char.ofNat n).toNat - 48) := by decide
  exact of_ascii (p := fun c => c.isDigit = true → digit? c = some (c.toNat - 48)) all
    (toNat_lt_of_isName (by simp [isName, Char.isAlphanum, h])) h

theorem isDigit_ten {c : Char} (h : c.isDigit = true) : isDigit 10 c = true := by
  have hle : c.toNat ≤ 57 := by
    simp only [Char.isDigit, Bool.and_eq_true, decide_eq_true_eq] at h
    exact UInt32.le_iff_toNat_le.mp h.2
  simp only [isDigit, digit?_of_isDigit h, decide_eq_true_eq]
  omega

theorem beq_eq_false_of_isDigit {c d : Char} (hc : c.isDigit = true) (hd : d.isDigit = false) : (c == d) = false := by
  refine beq_false_of_ne ?_
  rintro rfl
  rw [hc] at hd
  cases hd

/-- What may stand behind a number: nothing, or a blank first. -/
def Parted (rest : List Char) : Prop :=
  ∀ c ∈ rest.head?, c = ' ' ∨ c = '\t'

theorem Parted.eq_nil_or_cons {rest : List Char} (h : Parted rest) :
    rest = [] ∨ ∃ c more, (c = ' ' ∨ c = '\t') ∧ rest = c :: more := by
  cases rest with
  | nil => exact .inl rfl
  | cons c more => exact .inr ⟨c, more, h c rfl, rfl⟩

theorem digits_append {ds rest : List Char} (h : ∀ c ∈ ds, c.isDigit = true) (hrest : Parted rest) :
    digits 10 (ds ++ rest) = (ds, rest) := by
  induction ds with
  | nil =>
    rcases hrest.eq_nil_or_cons with rfl | ⟨c, more, rfl | rfl, rfl⟩
    · rfl
    · rfl
    · rfl
  | cons c ds ih =>
    have hc : c.isDigit = true := h c List.mem_cons_self
    have hu : c ≠ '_' := by
      rintro rfl
      exact absurd hc (by decide)
    rw [List.cons_append, digits, ih fun d hd => h d (List.mem_cons_of_mem _ hd)]
    · simp [isDigit_ten hc]
    · exact fun _ _ e => absurd e hu

theorem digitPart_append {ds rest : List Char} (hne : ds ≠ []) (h : ∀ c ∈ ds, c.isDigit = true) (hrest : Parted rest) :
    digitPart 10 (ds ++ rest) = (ds, rest) := by
  cases ds with
  | nil => exact absurd rfl hne
  | cons c ds =>
    have hu : c ≠ '_' := by
      rintro rfl
      exact absurd (h '_' List.mem_cons_self) (by decide)
    unfold digitPart
    split
    · next heq => exact absurd (List.cons.inj heq).1 hu
    · exact digits_append h hrest

theorem digitsValue_toDigits (n : Nat) : digitsValue 10 (Nat.toDigits 10 n) = n := by
  have fold : ∀ (ds : List Char) (k : Nat), (∀ c ∈ ds, c.isDigit = true) →
      ds.foldl (fun n c => n * 10 + (digit? c).getD 0) k = Nat.ofDigitChars 10 ds k := by
    intro ds
    induction ds with
    | nil => exact fun _ _ => rfl
    | cons c ds ih =>
      intro k h
      rw [List.foldl_cons, ih _ fun d hd => h d (List.mem_cons_of_mem _ hd), Nat.ofDigitChars_cons,
        digit?_of_isDigit (h c List.mem_cons_self), Nat.mul_comm]
      rfl
  rw [digitsValue, fold _ _ fun _ => isDigit_of_mem_toDigits, Nat.ofDigitChars_ten_toDigits]

theorem head?_toDigits_ne {n : Nat} (h : 0 < n) : (Nat.toDigits 10 n).head? ≠ some '0' := by
  induction n using Nat.strongRecOn with
  | _ n ih =>
    rw [Nat.toDigits_eq_if (by decide)]
    split
    · next hlt =>
      have all : ∀ k : Fin 10, 0 < k.val → k.val.digitChar ≠ '0' := by decide
      simpa using all ⟨n, hlt⟩ h
    · next hge =>
      have hpos : 0 < n / 10 := Nat.div_pos (Nat.le_of_not_lt hge) (by decide)
      have hhead := ih (n / 10) (Nat.div_lt_self h (by decide)) hpos
      rw [List.head?_append, List.head?_eq_some_head Nat.toDigits_ne_nil, Option.some_or]
      rwa [List.head?_eq_some_head Nat.toDigits_ne_nil] at hhead

theorem decimal_toDigits {n : Nat} (h : n < 10 ^ digitLimit) {rest : List Char} (hrest : Parted rest) :
    decimal (Nat.toDigits 10 n ++ rest) = some (.int n, rest) := by
  have hzero : ((Nat.toDigits 10 n).head? == some '0' && (Nat.toDigits 10 n).any (· != '0')) = false := by
    rcases Nat.eq_zero_or_pos n with rfl | hpos
    · decide
    · simp [head?_toDigits_ne hpos]
  have hlength : ¬digitLimit < (Nat.toDigits 10 n).length :=
    Nat.not_lt.mpr ((Nat.length_toDigits_le_iff (by decide) (by decide)).mpr h)
  have hdigits := digitPart_append Nat.toDigits_ne_nil (fun _ => isDigit_of_mem_toDigits (n := n)) hrest
  rcases hrest.eq_nil_or_cons with rfl | ⟨c, more, rfl | rfl, rfl⟩
  · rw [List.append_nil] at hdigits ⊢
    simp [decimal, hdigits, exponent?, endsNumber, hzero, hlength, digitsValue_toDigits]
  · simp [decimal, hdigits, exponent?, endsNumber, hzero, hlength, digitsValue_toDigits, show Text.isWord ' ' = false from rfl]
  · simp [decimal, hdigits, exponent?, endsNumber, hzero, hlength, digitsValue_toDigits, show Text.isWord '\t' = false from rfl]

theorem number_append {ds rest : List Char} (hne : ds ≠ []) (h : ∀ c ∈ ds, c.isDigit = true) (hrest : Parted rest) :
    number (ds ++ rest) = decimal (ds ++ rest) := by
  have second : ∀ {m : Char} {more : List Char}, m.isDigit = false → m ≠ ' ' → m ≠ '\t' → ds ++ rest ≠ '0' :: m :: more := by
    intro m more hm hspace htab heq
    cases ds with
    | nil => exact hne rfl
    | cons c ds =>
      obtain ⟨-, hmore⟩ := List.cons.inj heq
      cases ds with
      | nil =>
        rcases hrest m (by rw [show rest = m :: more from hmore]; rfl) with e | e
        · exact hspace e
        · exact htab e
      | cons d ds =>
        rw [(List.cons.inj hmore).1] at h
        rw [h m (by simp)] at hm
        cases hm
  -- The first six ways to write a number have the mark of a base behind their zero.
  unfold number
  split
  · next heq => exact absurd heq (second (by decide) (by decide) (by decide))
  · next heq => exact absurd heq (second (by decide) (by decide) (by decide))
  · next heq => exact absurd heq (second (by decide) (by decide) (by decide))
  · next heq => exact absurd heq (second (by decide) (by decide) (by decide))
  · next heq => exact absurd heq (second (by decide) (by decide) (by decide))
  · next heq => exact absurd heq (second (by decide) (by decide) (by decide))
  · rfl

theorem tokens_of_token? {c : Char} {rest more : List Char} {t : Token} (hc : c ≠ ' ' ∧ c ≠ '\t' ∧ c ≠ '\x0c' ∧ c ≠ '#')
    (h : token? (c :: rest) = some (t, more)) (fuel : Nat) :
    tokens (fuel + 1) (c :: rest) = (tokens fuel more).map (t :: ·) := by
  obtain ⟨hspace, htab, hfeed, hhash⟩ := hc
  simp only [tokens, beq_eq_false_iff_ne.mpr hspace, beq_eq_false_iff_ne.mpr htab, beq_eq_false_iff_ne.mpr hfeed,
    beq_eq_false_iff_ne.mpr hhash, h, Bool.or_self, Bool.false_eq_true, if_false, Option.map_eq_bind]
  rfl

theorem tokens_toDigits {n : Nat} (h : n < 10 ^ digitLimit) {rest : List Char} (hrest : Parted rest) (fuel : Nat) :
    tokens (fuel + 1) (Nat.toDigits 10 n ++ rest) = (tokens fuel rest).map (.literal (.int n) :: ·) := by
  have hall : ∀ c ∈ Nat.toDigits 10 n, c.isDigit = true := fun _ => isDigit_of_mem_toDigits
  have hnum : number (Nat.toDigits 10 n ++ rest) = some (.int n, rest) := by
    rw [number_append Nat.toDigits_ne_nil hall hrest, decimal_toDigits h hrest]
  cases hds : Nat.toDigits 10 n with
  | nil => exact absurd hds Nat.toDigits_ne_nil
  | cons c ds =>
    rw [hds] at hnum hall
    have hc : c.isDigit = true := hall c List.mem_cons_self
    rw [List.cons_append] at hnum ⊢
    have htoken : token? (c :: (ds ++ rest)) = some (.literal (.int n), rest) := by
      simp [token?, beq_eq_false_of_isDigit hc, isDigit_ten hc, hnum]
    have hstart : ∀ {d : Char}, d.isDigit = false → c ≠ d := fun hd => beq_eq_false_iff_ne.mp (beq_eq_false_of_isDigit hc hd)
    exact tokens_of_token? ⟨hstart rfl, hstart rfl, hstart rfl, hstart rfl⟩ htoken fuel

/-- Blanks between the tokens are passed. -/
theorem tokens_gap {gap : List Char} (h : ∀ c ∈ gap, c = ' ' ∨ c = '\t') (fuel : Nat) (rest : List Char) :
    tokens (gap.length + fuel) (gap ++ rest) = tokens fuel rest := by
  induction gap with
  | nil => rw [List.length_nil, Nat.zero_add, List.nil_append]
  | cons c gap ih =>
    obtain ⟨hc, hgap⟩ := List.forall_mem_cons.mp h
    rw [List.length_cons, Nat.add_right_comm, List.cons_append, ← ih hgap]
    rcases hc with rfl | rfl
    · rfl
    · rfl

/-- The digits of a number and blanks behind them are one token. -/
theorem tokens_number {n : Nat} (h : n < 10 ^ digitLimit) {gap : List Char} (hgap : ∀ c ∈ gap, c = ' ' ∨ c = '\t') (fuel : Nat) :
    tokens (fuel + (Nat.toDigits 10 n ++ gap).length + 1) (Nat.toDigits 10 n ++ gap) = some [.literal (.int n)] := by
  obtain ⟨k, hk⟩ : ∃ k, (Nat.toDigits 10 n).length = k + 1 :=
    Nat.exists_eq_add_one.mpr (List.length_pos_iff.mpr Nat.toDigits_ne_nil)
  have hparted : Parted gap := fun c hc => hgap c (List.mem_of_mem_head? hc)
  have hpassed := tokens_gap hgap (fuel + k + 1) []
  rw [List.append_nil, show gap.length + (fuel + k + 1) = fuel + (Nat.toDigits 10 n ++ gap).length by
    rw [List.length_append, hk]; omega] at hpassed
  rw [tokens_toDigits h hparted, hpassed]
  rfl

/-- A whole number as it is written: its digits, and a minus before them if it has one. -/
structure Numeral where
  negative : Bool
  magnitude : Nat

namespace Numeral

def text (k : Numeral) : List Char :=
  if k.negative then '-' :: Nat.toDigits 10 k.magnitude else Nat.toDigits 10 k.magnitude

def value (k : Numeral) : Int :=
  if k.negative then -(k.magnitude : Int) else k.magnitude

def ofInt (n : Int) : Numeral :=
  ⟨decide (n < 0), n.natAbs⟩

theorem natAbs_value (k : Numeral) : k.value.natAbs = k.magnitude := by
  unfold value
  split
  · rw [Int.natAbs_neg, Int.natAbs_natCast]
  · rw [Int.natAbs_natCast]

theorem value_ofInt (n : Int) : (ofInt n).value = n := by
  simp only [value, ofInt, decide_eq_true_eq]
  split
  · omega
  · omega

theorem text_ofInt (n : Int) : String.ofList (ofInt n).text = intText n := by
  simp only [text, ofInt, intText, decide_eq_true_eq]
  split
  · rw [natText, ← String.ofList_append]
    rfl
  · rfl

end Numeral

/-- A written whole number, with or without blanks behind it, is an initialiser with that value. -/
theorem value_numeral {k : Numeral} (h : tooLong k.value = false) {gap : List Char} (hgap : ∀ c ∈ gap, c = ' ' ∨ c = '\t') :
    value (String.ofList (k.text ++ gap)) = .int k.value := by
  have hlt := tooLong_eq_false_iff.mp h
  rw [k.natAbs_value] at hlt
  have htokens := tokens_number hlt hgap 0
  rw [Nat.zero_add] at htokens
  obtain ⟨negative, n⟩ := k
  cases negative with
  | false =>
    have htext : Expression.ofText? (String.ofList (Nat.toDigits 10 n ++ gap)) = some (.literal (.int n)) := by
      rw [Expression.ofText?, String.toList_ofList, htokens]
      rfl
    show ((Expression.ofText? (String.ofList (Nat.toDigits 10 n ++ gap))).bind (·.value?)).getD _ = _
    rw [htext]
    rfl
  | true =>
    have hminus : tokens (('-' :: (Nat.toDigits 10 n ++ gap)).length + 1) ('-' :: (Nat.toDigits 10 n ++ gap)) =
        (tokens ((Nat.toDigits 10 n ++ gap).length + 1) (Nat.toDigits 10 n ++ gap)).map (.operator "-" :: ·) := by
      exact tokens_of_token? (by decide) rfl _
    have htext : Expression.ofText? (String.ofList ('-' :: (Nat.toDigits 10 n ++ gap))) = some (.sign .minus (.literal (.int n))) := by
      rw [Expression.ofText?, String.toList_ofList, hminus, htokens]
      rfl
    show ((Expression.ofText? (String.ofList ('-' :: (Nat.toDigits 10 n ++ gap)))).bind (·.value?)).getD _ = _
    rw [htext]
    rfl

/-- The text of a whole number is an initialiser with that value. -/
theorem value_intText {n : Int} (h : tooLong n = false) : value (intText n) = .int n := by
  have hvalue := value_numeral (k := .ofInt n) (by rwa [Numeral.value_ofInt]) (List.forall_mem_nil _)
  rwa [List.append_nil, Numeral.text_ofInt, Numeral.value_ofInt] at hvalue

end Initializer

end CodeBridge
