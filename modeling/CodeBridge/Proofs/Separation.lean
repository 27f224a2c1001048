import CodeBridge.Json.Reader
import CodeBridge.Proofs.Numerals
import CodeBridge.Sample.Fingerprint
import CodeBridge.Workload.Generation

/-! # What fingerprints tell apart

The stream of a list of texts has the number of texts, and then each text behind a mark. How long a text is the stream does
not tell, and the mark is a letter that texts may have too. So a list of two or more texts is told apart from all others
exactly if no text has the letter of the mark. Apart from that, equal fingerprints are equal digests of different streams. -/

namespace CodeBridge.Fingerprint

open Text Decimal

/-! ### Bytes of texts -/

theorem toList_loop (bs : ByteArray) (i : Nat) (done : List UInt8) :
    ByteArray.toList.loop bs i done = done.reverse ++ bs.data.toList.drop i := by
  fun_induction ByteArray.toList.loop bs i done with
  | case1 i done hi ih =>
    have hlength : i < bs.data.toList.length := by simpa using hi
    have hbyte : bs.get! i = bs.data.toList[i] := by
      rw [ByteArray.get!, Array.getElem_toList]
      exact getElem!_pos bs.data i (by simpa using hi)
    rw [ih, List.drop_eq_getElem_cons hlength, hbyte]
    simp
  | case2 i done hi =>
    have hlength : bs.data.toList.length ≤ i := by simpa using hi
    simp [List.drop_eq_nil_of_le hlength]

theorem utf8_eq (s : String) : utf8 s = s.toByteArray.data.toList := by
  rw [utf8, String.toUTF8_eq_toByteArray, ByteArray.toList, toList_loop]
  simp

theorem utf8_append (s t : String) : utf8 (s ++ t) = utf8 s ++ utf8 t := by
  simp [utf8_eq, String.toByteArray_append]

theorem utf8_inj {s t : String} : utf8 s = utf8 t ↔ s = t := by
  rw [utf8_eq, utf8_eq, Array.toList_inj, ← ByteArray.ext_iff, String.toByteArray_inj]

/-- A byte is shown by its two digits. -/
theorem hexDigits_inj {a b : UInt8} (h : hexDigits 2 a.toNat = hexDigits 2 b.toNat) : a = b := by
  have all : ∀ n : Fin 256, (hexDigits 2 n).map Json.hexValue? = [some (n.val / 16), some (n.val % 16)] := by decide +kernel
  have ha := all ⟨a.toNat, a.toNat_lt⟩
  have hb := all ⟨b.toNat, b.toNat_lt⟩
  rw [h, hb] at ha
  simp only [List.cons.injEq, Option.some.injEq, and_true] at ha
  exact UInt8.toNat_inj.mp (by omega)

theorem length_hexDigits (b : UInt8) : (hexDigits 2 b.toNat).length = 2 := by
  have all : ∀ n : Fin 256, (hexDigits 2 n).length = 2 := by decide +kernel
  exact all ⟨b.toNat, b.toNat_lt⟩

theorem hex_inj {as bs : List UInt8} (h : hex as = hex bs) : as = bs := by
  have hdigits := String.ofList_injective h
  clear h
  have hsome : ∀ (b : UInt8) (rest : List Char), hexDigits 2 b.toNat ++ rest ≠ [] := by
    intro b rest hnil
    have hlength := length_hexDigits b
    rw [(List.append_eq_nil_iff.mp hnil).1] at hlength
    cases hlength
  induction as generalizing bs with
  | nil =>
    cases bs with
    | nil => rfl
    | cons b bs => exact absurd hdigits.symm (hsome b _)
  | cons a as ih =>
    cases bs with
    | nil => exact absurd hdigits (hsome a _)
    | cons b bs =>
      obtain ⟨hfirst, hrest⟩ := List.append_inj hdigits (by rw [length_hexDigits, length_hexDigits])
      rw [hexDigits_inj hfirst, ih hrest]

/-! ### Streams of texts -/

/-- The texts in a row, each behind its mark. -/
def marked (xs : List String) : String :=
  String.join (xs.map ("s" ++ ·))

@[simp] theorem marked_cons (x : String) (xs : List String) : marked (x :: xs) = "s" ++ x ++ marked xs := by
  rw [marked, List.map_cons, String.join_cons, marked]

theorem toList_marked (xs : List String) : (marked xs).toList = xs.flatMap fun x => 's' :: x.toList := by
  induction xs with
  | nil => rfl
  | cons x xs ih => simp [ih]

theorem eq_of_mem_head?_marked {xs : List String} {c : Char} (h : c ∈ (marked xs).toList.head?) : c = 's' := by
  cases xs with
  | nil => cases h
  | cons x xs =>
    rw [toList_marked] at h
    cases h
    rfl

theorem itemStreams_eq_map (rules : Rules) (items : List Sample) : itemStreams rules items = items.map (stream rules) := by
  induction items with
  | nil => rw [itemStreams, List.map_nil]
  | cons item items ih => rw [itemStreams, ih, List.map_cons]

theorem flatMap_stream_texts (rules : Rules) {depth : Nat} (hdepth : depth ≤ deepest) (xs : List String) :
    (xs.map fun x => stream rules (.text x)).flatMap (fun item => item depth) = utf8 (marked xs) := by
  induction xs with
  | nil => simp [marked, utf8_eq]
  | cons x xs ih =>
    have hitem : stream rules (.text x) depth = utf8 "s" ++ utf8 x := by rw [stream, if_neg (Nat.not_lt.mpr hdepth)]
    rw [List.map_cons, List.flatMap_cons, hitem, ih, marked_cons, utf8_append, utf8_append]

/-- The stream of texts is itself that of a text, whatever the rules. -/
theorem stream_texts (rules : Rules) {xs : List String} (h : xs.length ≤ longest) :
    stream rules (Workload.texts xs) 0 = utf8 ("L" ++ natText xs.length ++ marked xs) := by
  have hitems : itemStreams rules (xs.map .text) = xs.map fun x => stream rules (.text x) := by
    rw [itemStreams_eq_map, List.map_map]
    rfl
  rw [Workload.texts, Sample.list, stream, if_neg (by decide), hitems, containerStream, if_pos (by simpa [Container.size] using h),
    Container.written, List.length_map, flatMap_stream_texts rules (by decide), ← utf8_append]

/-- The number of texts ends where the first mark is. -/
theorem natText_append_marked_inj {xs ys : List String} {n k : Nat}
    (h : natText n ++ marked xs = natText k ++ marked ys) : n = k ∧ marked xs = marked ys := by
  have hhead : ∀ zs : List String, ∀ c ∈ (marked zs).toList.head?, c.isDigit = false := by
    intro zs c hc
    rw [eq_of_mem_head?_marked hc]
    rfl
  have hdigits : ∀ (n : Nat) (zs : List String),
      (natText n ++ marked zs).toList.takeWhile Char.isDigit = Nat.toDigits 10 n := by
    intro n zs
    rw [String.toList_append, toList_natText]
    exact takeWhile_append_of_head (fun _ => isDigit_of_mem_toDigits) (hhead zs)
  have hnumber : Nat.toDigits 10 n = Nat.toDigits 10 k := by rw [← hdigits n xs, h, hdigits]
  have hn : n = k := by rw [← Nat.ofDigitChars_ten_toDigits (n := n), hnumber, Nat.ofDigitChars_ten_toDigits]
  subst hn
  exact ⟨rfl, (String.append_right_inj _).mp h⟩

/-- Lists of texts have the same stream if there are as many texts, and they are the same in a row behind marks. -/
theorem stream_texts_eq_iff (rules : Rules) {xs ys : List String} (hxs : xs.length ≤ longest) (hys : ys.length ≤ longest) :
    stream rules (Workload.texts xs) 0 = stream rules (Workload.texts ys) 0 ↔
      xs.length = ys.length ∧ marked xs = marked ys := by
  rw [stream_texts rules hxs, stream_texts rules hys, utf8_inj, String.append_assoc, String.append_assoc,
    String.append_right_inj]
  constructor
  · exact natText_append_marked_inj
  · rintro ⟨hlength, hmarked⟩
    rw [hlength, hmarked]

/-! ### Marks in texts -/

theorem length_le_count_marked (xs : List String) : xs.length ≤ (marked xs).toList.count 's' := by
  induction xs with
  | nil => exact Nat.zero_le _
  | cons x xs ih =>
    simp only [marked_cons, String.toList_append, List.count_append, List.length_cons]
    have hmark : "s".toList.count 's' = 1 := rfl
    omega

/-- There are more marks than texts exactly if a text has the letter of the mark. -/
theorem count_marked_eq_length_iff (xs : List String) :
    (marked xs).toList.count 's' = xs.length ↔ ∀ x ∈ xs, 's' ∉ x.toList := by
  induction xs with
  | nil => simp [marked]
  | cons x xs ih =>
    have hmark : "s".toList.count 's' = 1 := rfl
    have hle := length_le_count_marked xs
    rw [List.forall_mem_cons, ← ih, ← List.count_eq_zero]
    simp only [marked_cons, String.toList_append, List.count_append, List.length_cons]
    omega

/-- Texts without the letter of the mark are found between the marks. -/
theorem eq_of_marked_eq {xs ys : List String} (hxs : ∀ x ∈ xs, 's' ∉ x.toList) (hlength : xs.length = ys.length)
    (h : marked xs = marked ys) : xs = ys := by
  -- The other list has as many marks and as many texts, so its texts have no marks either.
  have hys : ∀ y ∈ ys, 's' ∉ y.toList := by
    rw [← count_marked_eq_length_iff, ← h, ← hlength]
    exact (count_marked_eq_length_iff xs).mpr hxs
  have hhead : ∀ zs : List String, ∀ c ∈ (marked zs).toList.head?, (c != 's') = false := by
    intro zs c hc
    rw [eq_of_mem_head?_marked hc]
    rfl
  induction xs generalizing ys with
  | nil => exact (List.eq_nil_of_length_eq_zero hlength.symm).symm
  | cons x xs ih =>
    obtain ⟨y, ys, rfl⟩ := List.exists_cons_of_length_eq_add_one hlength.symm
    obtain ⟨hx, hxs⟩ := List.forall_mem_cons.mp hxs
    obtain ⟨hy, hys⟩ := List.forall_mem_cons.mp hys
    rw [marked_cons, marked_cons, ← String.toList_inj] at h
    simp only [String.toList_append, List.append_assoc, List.append_cancel_left_eq] at h
    have hfirst : x.toList = y.toList := by
      rw [← takeWhile_append_of_head (bne_of_not_mem hx) (hhead xs), h,
        takeWhile_append_of_head (bne_of_not_mem hy) (hhead ys)]
    rw [hfirst, List.append_cancel_left_eq, String.toList_inj] at h
    rw [String.toList_inj.mp hfirst, ih hxs (Nat.succ.inj hlength) h hys]

/-- A text with the letter of the mark can be cut there, if there is another text that takes one of the parts. -/
theorem exists_marked_eq {xs : List String} (hmany : 1 < xs.length) {x : String} (hx : x ∈ xs) (hmark : 's' ∈ x.toList) :
    ∃ ys, ys ≠ xs ∧ ys.length = xs.length ∧ marked ys = marked xs := by
  obtain ⟨before, after, rfl⟩ := List.append_of_mem hx
  obtain ⟨left, right, hsplit⟩ := List.append_of_mem hmark
  obtain rfl : x = String.ofList left ++ "s" ++ String.ofList right := by
    rw [← String.toList_inj, hsplit]
    simp
  have hjoin : ∀ as bs : List String, marked (as ++ bs) = marked as ++ marked bs := by
    intro as bs
    rw [← String.toList_inj, String.toList_append]
    simp [toList_marked]
  have hshorter : ∀ a b : String, a ≠ a ++ "s" ++ b := by
    intro a b h
    have hlength := congrArg (·.toList.length) h
    simp at hlength
  cases after with
  | cons y after =>
    refine ⟨before ++ String.ofList left :: (String.ofList right ++ "s" ++ y) :: after, ?_, by simp, ?_⟩
    · intro h
      exact hshorter _ _ (List.cons.inj (List.append_cancel_left h)).1
    · simp [hjoin, String.append_assoc]
  | nil =>
    rcases List.eq_nil_or_concat' before with rfl | ⟨before, w, rfl⟩
    · simp at hmany
    · refine ⟨before ++ [w ++ "s" ++ String.ofList left, String.ofList right], ?_, by simp, ?_⟩
      · intro h
        rw [List.append_assoc] at h
        exact hshorter _ _ (List.cons.inj (List.append_cancel_left h)).1.symm
      · simp [hjoin, String.append_assoc]

/-- A list of texts has a stream of its own exactly if it has not more than one text, or no text with the letter of the
mark. And where the streams differ, the fingerprints are equal only if the digests of the streams are. -/
theorem texts_separated_iff (rules : Rules) {xs : List String} (hxs : xs.length ≤ longest) :
    ((∀ ys : List String, ys.length ≤ longest →
          stream rules (Workload.texts ys) 0 = stream rules (Workload.texts xs) 0 → ys = xs) ↔
        xs.length ≤ 1 ∨ ∀ x ∈ xs, 's' ∉ x.toList) ∧
      ∀ ys : List String, ys.length ≤ longest →
        (stream rules (Workload.texts ys) 0 = stream rules (Workload.texts xs) 0 ↔
          ys.length = xs.length ∧ marked ys = marked xs) ∧
        (ofStream (stream rules (Workload.texts ys) 0) = ofStream (stream rules (Workload.texts xs) 0) ↔
          Digest.sha256 (stream rules (Workload.texts ys) 0) = Digest.sha256 (stream rules (Workload.texts xs) 0)) := by
  refine ⟨⟨?_, ?_⟩, fun ys hys => ⟨stream_texts_eq_iff rules hys hxs, hex_inj, congrArg hex⟩⟩
  · intro hown
    by_contra hnot
    push Not at hnot
    obtain ⟨hmany, x, hx, hmark⟩ := hnot
    obtain ⟨ys, hne, hlength, hmarked⟩ := exists_marked_eq hmany hx hmark
    have hys : ys.length ≤ longest := hlength ▸ hxs
    exact hne (hown ys hys ((stream_texts_eq_iff rules hys hxs).mpr ⟨hlength, hmarked⟩))
  · intro h ys hys hstream
    obtain ⟨hlength, hmarked⟩ := (stream_texts_eq_iff rules hys hxs).mp hstream
    rcases h with hfew | hunmarked
    · rcases xs with _ | ⟨x, _ | ⟨x', xs⟩⟩
      · exact List.eq_nil_of_length_eq_zero hlength
      · obtain ⟨y, rfl⟩ := List.length_eq_one_iff.mp hlength
        have htext : y.toList = x.toList := by simpa [← String.toList_inj, toList_marked] using hmarked
        rw [String.toList_inj.mp htext]
      · simp at hfew
    · exact (eq_of_marked_eq hunmarked hlength.symm hmarked.symm).symm

theorem texts_separated_header :
    stream .usual (Workload.texts ["enum color", "RED"]) 0 = utf8 "L2senum colorsRED" ∧
      ∀ ys : List String, ys.length ≤ longest →
        stream .usual (Workload.texts ys) 0 = stream .usual (Workload.texts ["enum color", "RED"]) 0 →
          ys = ["enum color", "RED"] :=
  ⟨(stream_texts .usual (by decide)).trans (by decide +kernel),
    (texts_separated_iff .usual (by decide)).1.mpr (Or.inr (by decide))⟩

/-- A text that is just the letter of the mark may change places with an empty one. -/
theorem texts_confused :
    ["", "s"] ≠ ["s", ""] ∧
      stream .usual (Workload.texts ["", "s"]) 0 = utf8 "L2sss" ∧ stream .usual (Workload.texts ["s", ""]) 0 = utf8 "L2sss" ∧
      (Workload.texts ["", "s"]).fingerprint = (Workload.texts ["s", ""]).fingerprint := by
  have hfirst : stream .usual (Workload.texts ["", "s"]) 0 = utf8 "L2sss" :=
    (stream_texts .usual (by decide)).trans (by decide +kernel)
  have hsecond : stream .usual (Workload.texts ["s", ""]) 0 = utf8 "L2sss" :=
    (stream_texts .usual (by decide)).trans (by decide +kernel)
  refine ⟨by decide, hfirst, hsecond, ?_⟩
  rw [Sample.fingerprint, Sample.fingerprint, hfirst, hsecond]

end CodeBridge.Fingerprint
