import CodeBridge.Proofs.FinishedTexts

/-! # Brace styles

A style decides where the brace that opens a block stands. Under either style the generators of headers and of printers
fail alike, and what they give out has the same ink: only the spaces and the line feeds between it differ. -/

namespace CodeBridge

/-! ### Ink -/

/-- The characters of a text but its spaces and line feeds. -/
def ink (s : String) : List Char :=
  s.toList.filter fun c => c != ' ' && c != '\n'

@[simp] theorem ink_append (a b : String) : ink (a ++ b) = ink a ++ ink b := by
  simp [ink]

@[simp] theorem ink_indented (l : String) : ink (indented l) = ink l := by
  rw [indented, ink_append, show ink "    " = [] from rfl, List.nil_append]

theorem ink_linesText (ls : List String) : ink (linesText ls) = ls.flatMap ink := by
  induction ls with
  | nil => rfl
  | cons l ls ih =>
    rw [linesText, ink_append, ink_append, show ink "\n" = [] from rfl, List.append_nil, ih, List.flatMap_cons]

theorem flatMap_ink_indented (ls : List String) : (ls.map indented).flatMap ink = ls.flatMap ink := by
  simp [List.flatMap_map]

/-! ### Outcomes that are alike -/

/-- The same fault twice, or two results that are related. -/
inductive Alike {α : Type} (R : α → α → Prop) : Except Fault α → Except Fault α → Prop where
  | error (fault : Fault) : Alike R (.error fault) (.error fault)
  | ok {a b : α} (h : R a b) : Alike R (.ok a) (.ok b)

namespace Alike
variable {α β : Type} {R : α → α → Prop} {S : β → β → Prop}

theorem refl (hR : ∀ a, R a a) (x : Except Fault α) : Alike R x x := by
  cases x with
  | error fault => exact .error fault
  | ok a => exact .ok (hR a)

theorem bind {x y : Except Fault α} {f g : α → Except Fault β} (h : Alike R x y)
    (hf : ∀ a b, R a b → Alike S (f a) (g b)) : Alike S (x >>= f) (y >>= g) := by
  cases h with
  | error fault => exact .error fault
  | ok hab => exact hf _ _ hab

theorem mapM {ι : Type} {f g : ι → Except Fault α} {items : List ι} (h : ∀ i ∈ items, Alike R (f i) (g i)) :
    Alike (List.Forall₂ R) (items.mapM f) (items.mapM g) := by
  induction items with
  | nil => exact .ok .nil
  | cons i items ih =>
    rw [List.mapM_cons, List.mapM_cons]
    refine (h i List.mem_cons_self).bind fun a b hab => ?_
    refine (ih fun j hj => h j (List.mem_cons_of_mem _ hj)).bind fun as bs hall => ?_
    exact .ok (.cons hab hall)

theorem map {x y : Except Fault α} {f g : α → β} (h : Alike R x y) (hfg : ∀ a b, R a b → S (f a) (g b)) :
    Alike S (x.map f) (y.map g) := by
  cases h with
  | error fault => exact .error fault
  | ok hab => exact .ok (hfg _ _ hab)

theorem map_eq {γ : Type} {x y : Except Fault α} {f g : α → γ} (h : Alike R x y) (hfg : ∀ a b, R a b → f a = g b) :
    x.map f = y.map g := by
  cases h with
  | error fault => rfl
  | ok hab => exact congrArg Except.ok (hfg _ _ hab)

end Alike

/-- Lines with the same ink. -/
def SameInk (a b : List String) : Prop :=
  a.flatMap ink = b.flatMap ink

namespace SameInk
variable {a b c d : List String}

theorem refl (a : List String) : SameInk a a := rfl

theorem append (h : SameInk a b) (h' : SameInk c d) : SameInk (a ++ c) (b ++ d) := by
  rw [SameInk, List.flatMap_append, List.flatMap_append, h, h']

theorem indented (h : SameInk a b) : SameInk (a.map indented) (b.map indented) := by
  rw [SameInk, flatMap_ink_indented, flatMap_ink_indented, h]

theorem flatten {as bs : List (List String)} (h : List.Forall₂ SameInk as bs) : SameInk as.flatten bs.flatten := by
  induction h with
  | nil => rfl
  | cons hab _ ih => exact hab.append ih

/-- The brace stands behind the head or below it. -/
theorem heading (head : String) : SameInk (Style.knr.heading head) (Style.bsd.heading head) := by
  simp [SameInk, Style.heading, show ink " \x7b" = ink "\x7b" from rfl]

end SameInk

namespace Emit

/-! ### Headers -/

namespace Header

theorem alike_definitionLines (keyword name : String) (typedef suffix : Value) {a b : Except Fault (List String)}
    (h : Alike SameInk a b) : Alike SameInk (definitionLines .knr keyword name typedef suffix a)
      (definitionLines .bsd keyword name typedef suffix b) := by
  refine (Alike.refl (R := Eq) (fun _ => rfl) _).bind fun head _ hhead => ?_
  subst hhead
  refine (Alike.ok (SameInk.heading head)).bind fun start start' hstart => ?_
  refine (Alike.refl (R := Eq) (fun _ => rfl) _).bind fun close _ hclose => ?_
  subst hclose
  exact h.bind fun ls ls' hls => .ok ((hstart.append hls.indented).append (.refl _))

theorem alike_headerLines (m : Module) : Alike SameInk (headerLines .knr m) (headerLines .bsd m) := by
  have hconstants : Alike (List.Forall₂ SameInk) (m.constants.mapM constantLines) (m.constants.mapM constantLines) :=
    .mapM fun c _ => .refl SameInk.refl _
  have henumerations : Alike (List.Forall₂ SameInk) (m.enumerations.mapM (enumerationLines .knr))
      (m.enumerations.mapM (enumerationLines .bsd)) :=
    .mapM fun e _ => alike_definitionLines _ _ _ _ (.refl SameInk.refl _)
  have hstructs : Alike (List.Forall₂ SameInk) (m.structs.mapM (structLines .knr)) (m.structs.mapM (structLines .bsd)) :=
    .mapM fun s _ => alike_definitionLines _ _ _ _ (.refl SameInk.refl _)
  refine hconstants.bind fun _ _ hc => henumerations.bind fun _ _ he => hstructs.bind fun _ _ hs => ?_
  exact .ok ((SameInk.flatten hc).append ((SameInk.flatten he).append (SameInk.flatten hs)))

end Header

/-! ### Printers -/

namespace Printers

theorem sameInk_blockLines (head : String) {a b : List String} (h : SameInk a b) :
    SameInk (blockLines .knr head a) (blockLines .bsd head b) :=
  ((SameInk.heading head).append h.indented).append (.refl _)

theorem alike_fieldLines (f : Field) : Alike SameInk (fieldLines .knr f) (fieldLines .bsd f) := by
  have hvalue : Alike SameInk (valueLines .knr f) (valueLines .bsd f) := by
    unfold valueLines
    split
    case h_3 type length _ =>
      -- Only an array is printed in a block.
      refine (Alike.refl SameInk.refl _).bind fun inner inner' hinner => .ok ?_
      exact (SameInk.refl _).append ((sameInk_blockLines _ hinner).append (.refl _))
    all_goals exact .refl SameInk.refl _
  refine hvalue.bind fun ls ls' hls => .ok ?_
  exact (SameInk.refl _).append ((SameInk.refl _).append (hls.append (.refl _)))

/-- The same functions, with bodies of the same ink. -/
def SameFunctions (ds ds' : List Definition) : Prop :=
  List.Forall₂ (fun d d' => d.function = d'.function ∧ SameInk d.body d'.body) ds ds'

theorem alike_enumerationDefinitions (e : Enumeration) :
    Alike SameFunctions (enumerationDefinitions .knr e) (enumerationDefinitions .bsd e) := by
  refine (Alike.refl (R := Eq) (fun _ => rfl) _).bind fun c _ hc => .ok ?_
  subst hc
  exact .cons ⟨rfl, (sameInk_blockLines _ (.refl _)).append (.refl _)⟩ .nil

theorem alike_structDefinitions (s : Struct) :
    Alike SameFunctions (structDefinitions .knr s) (structDefinitions .bsd s) := by
  refine (Alike.refl (R := Eq) (fun _ => rfl) _).bind fun c _ hc => ?_
  subst hc
  refine (Alike.mapM fun f _ => alike_fieldLines f).bind fun blocks blocks' hblocks => .ok ?_
  exact .cons ⟨rfl, (SameInk.refl _).append ((SameInk.flatten hblocks).append (.refl _))⟩ .nil

theorem SameFunctions.flatten {as bs : List (List Definition)} (h : List.Forall₂ SameFunctions as bs) :
    SameFunctions as.flatten bs.flatten := by
  induction h with
  | nil => exact .nil
  | cons hab _ ih => exact List.rel_append hab ih

theorem alike_definitions (m : Module) : Alike SameFunctions (definitions .knr m) (definitions .bsd m) := by
  refine (Alike.mapM fun e _ => alike_enumerationDefinitions e).bind fun _ _ he => ?_
  refine (Alike.mapM fun s _ => alike_structDefinitions s).bind fun _ _ hs => .ok ?_
  exact List.rel_append (SameFunctions.flatten he) (SameFunctions.flatten hs)

theorem SameFunctions.declarations {ds ds' : List Definition} (h : SameFunctions ds ds') :
    ds.map Definition.declaration = ds'.map Definition.declaration := by
  induction h with
  | nil => rfl
  | cons hd _ ih => rw [List.map_cons, List.map_cons, ih, Definition.declaration, Definition.declaration, hd.1]

theorem SameFunctions.lines {ds ds' : List Definition} (h : SameFunctions ds ds') :
    SameInk (ds.flatMap (Definition.lines .knr)) (ds'.flatMap (Definition.lines .bsd)) := by
  induction h with
  | nil => rfl
  | cons hd _ ih =>
    refine SameInk.append ?_ ih
    rw [Definition.lines, Definition.lines, hd.1]
    exact ((SameInk.heading _).append hd.2.indented).append (.refl _)

end Printers

/-! ### Both generators -/

/-- Under either style the action comes to its end or fails with the same fault. The texts that are given out at its end
are the same as far as they are seen. -/
structure StyleFree {σ α β : Type} (run : Style → EStateM Fault σ Unit) (start : σ) (texts : Style → Except Fault α)
    (seen : α → β) : Prop where
  runs : outcome (run .knr) start = outcome (run .bsd) start
  given : Gives (run .knr) start (texts .knr) ∧ Gives (run .bsd) start (texts .bsd)
  texts : (texts .knr).map seen = (texts .bsd).map seen

theorem StyleFree.of_alike {σ α β : Type} {run : Style → EStateM Fault σ Unit} {start : σ} {texts : Style → Except Fault α}
    {seen : α → β} (hknr : Gives (run .knr) start (texts .knr)) (hbsd : Gives (run .bsd) start (texts .bsd))
    (h : Alike (fun a b => seen a = seen b) (texts .knr) (texts .bsd)) : StyleFree run start texts seen where
  runs := by
    rw [hknr, hbsd]
    exact h.map_eq fun _ _ _ => rfl
  given := ⟨hknr, hbsd⟩
  texts := h.map_eq fun _ _ hab => hab

/-- The brace style of a header or of printers shows in nothing but spaces and line feeds. -/
theorem brace_styles_agree (m : Module) :
    StyleFree (Header.run · m) .braced (headerText · m) ink ∧
      StyleFree (Printers.run · m) ⟨.braced, .braced⟩ (printerTexts · m) (Prod.map ink ink) := by
  refine ⟨.of_alike (Header.gives_text .knr m) (Header.gives_text .bsd m) ?_,
    .of_alike (Printers.gives_texts (.inl rfl) m) (Printers.gives_texts (.inr rfl) m) ?_⟩
  · simp only [headerText_eq]
    refine (Header.alike_headerLines m).bind fun ls ls' hls => .ok ?_
    rw [ink_linesText, ink_linesText, hls]
  · simp only [printerTexts_eq (.inl rfl), printerTexts_eq (.inr rfl)]
    refine (Printers.alike_definitions m).map fun ds ds' hds => ?_
    simp only [Sourcing.texts, Prod.map, ink_linesText, hds.declarations, Prod.mk.injEq, true_and]
    exact hds.lines

end Emit

end CodeBridge
