import CodeBridge.Proofs.DefinitionOrder
import CodeBridge.Proofs.FinishedTexts

/-! # Texts item by item

The generators go through the constants of a module, its enumerations and its structs, all with the same writers. What
they give out is nevertheless put together from what they would give out for each item alone, so it does not matter
how the sorts of items were mixed when the module was made. -/

namespace CodeBridge

/-! ### The items of a module -/

/-- The items of a module in the order in which the generators go through them. -/
def Module.parts (m : Module) : List Item :=
  m.constants.map .constant ++
    (m.enumerations.map (fun e => .type (.enumeration e)) ++ m.structs.map fun s => .type (.struct s))

theorem Module.exists_single {m : Module} {part : Item} (h : part ∈ m.parts) :
    ∃ single, Module.ofItems m.name [part] = .ok single ∧ single.name = m.name ∧ single.parts = [part] := by
  rw [parts, List.mem_append, List.mem_append, List.mem_map, List.mem_map, List.mem_map] at h
  rcases h with ⟨c, -, rfl⟩ | ⟨e, -, rfl⟩ | ⟨s, -, rfl⟩
  · exact ⟨⟨m.name, [c], [], []⟩, rfl, rfl, rfl⟩
  · exact ⟨⟨m.name, [], [], [e]⟩, rfl, rfl, rfl⟩
  · exact ⟨⟨m.name, [], [s], []⟩, rfl, rfl, rfl⟩

namespace Item

/-- The same items, with those of each sort in the same order. -/
structure Reordered (items items' : List Item) : Prop where
  perm : items.Perm items'
  constants : items.filterMap constant? = items'.filterMap constant?
  structs : items.filterMap struct? = items'.filterMap struct?
  enumerations : items.filterMap enumeration? = items'.filterMap enumeration?

/-- A module takes the item whatever it holds already. -/
def Welcome (item : Item) : Prop :=
  ∀ m : Module, ∃ m', m.add item = .ok m'

theorem welcome_of_add_eq_ok {item : Item} {m m' : Module} (h : m.add item = .ok m') : item.Welcome := by
  intro other
  unfold Module.add at h
  split at h
  case h_4 => cases h
  all_goals exact ⟨_, rfl⟩

end Item

theorem Module.welcome_of_addAll_eq_ok {items : List Item} {m m' : Module} (h : m.addAll items = .ok m') :
    ∀ item ∈ items, item.Welcome := by
  induction items generalizing m with
  | nil => simp
  | cons item items ih =>
    obtain ⟨m₁, hadd, h⟩ := exists_of_bind_eq_ok h
    exact List.forall_mem_cons.mpr ⟨Item.welcome_of_add_eq_ok hadd, ih h⟩

theorem Module.exists_addAll {items : List Item} (h : ∀ item ∈ items, item.Welcome) (m : Module) :
    ∃ m', m.addAll items = .ok m' := by
  induction items generalizing m with
  | nil => exact ⟨m, rfl⟩
  | cons item items ih =>
    obtain ⟨hitem, hitems⟩ := List.forall_mem_cons.mp h
    obtain ⟨m₁, hadd⟩ := hitem m
    obtain ⟨m', hm'⟩ := ih hitems m₁
    refine ⟨m', ?_⟩
    rw [addAll, hadd]
    exact hm'

/-- A module does not tell how the sorts of its items were mixed. -/
theorem Module.ofItems_reordered {name : String} {items items' : List Item} {m : Module}
    (hm : Module.ofItems name items = .ok m) (h : Item.Reordered items items') : Module.ofItems name items' = .ok m := by
  have hwelcome : ∀ item ∈ items', item.Welcome := fun item hitem =>
    welcome_of_addAll_eq_ok hm item (h.perm.mem_iff.mpr hitem)
  obtain ⟨m', hm'⟩ := exists_addAll hwelcome ⟨name, [], [], []⟩
  rw [of_ofItems_eq_ok hm, h.constants, h.structs, h.enumerations, ← of_ofItems_eq_ok hm']
  exact hm'

/-! ### Results of a row -/

section
variable {α β γ : Type}

theorem mapM_map_ok (f : α → Except Fault β) (g : β → γ) (as : List α) :
    (as.mapM fun a => (f a).map g) = (as.mapM f).map (List.map g) := by
  induction as with
  | nil => rfl
  | cons a as ih =>
    rw [List.mapM_cons, List.mapM_cons, ih]
    cases f a with
    | error fault => rfl
    | ok b => cases as.mapM f <;> rfl

theorem mapM_congr_mem {f g : α → Except Fault β} {as : List α} (h : ∀ a ∈ as, f a = g a) : as.mapM f = as.mapM g := by
  induction as with
  | nil => rfl
  | cons a as ih =>
    obtain ⟨ha, has⟩ := List.forall_mem_cons.mp h
    rw [List.mapM_cons, List.mapM_cons, ha, ih has]

end

namespace Emit

/-- What is made from a module is made from its items one by one, and of the module itself only its name counts. -/
def Itemwise {β : Type} (lines : Module → Except Fault (List β)) : Prop :=
  ∃ ofItem : String → Item → Except Fault (List β), ∀ m, lines m = (m.parts.mapM (ofItem m.name)).map List.flatten

namespace Itemwise
variable {β : Type} {lines : Module → Except Fault (List β)}

theorem of_single {ofItem : String → Item → Except Fault (List β)}
    (h : ∀ m, lines m = (m.parts.mapM (ofItem m.name)).map List.flatten) {m : Module} {part : Item}
    (hpart : part ∈ m.parts) : (do lines (← Module.ofItems m.name [part])) = ofItem m.name part := by
  obtain ⟨single, hsingle, hname, hparts⟩ := Module.exists_single hpart
  rw [hsingle]
  show lines single = ofItem m.name part
  rw [h, hname, hparts, List.mapM_cons, List.mapM_nil]
  cases ofItem m.name part with
  | error fault => rfl
  | ok ls => exact congrArg Except.ok (by simp)

/-- Texts that turn a row of lines into a row of texts are joined from those of the single items. -/
theorem joined (h : Itemwise lines) {α : Type} {text : List β → α} {join : List α → α}
    (htext : ∀ rows : List (List β), text rows.flatten = join (rows.map text)) (m : Module) :
    (lines m).map text =
      (do return join (← m.parts.mapM fun part => do (lines (← Module.ofItems m.name [part])).map text)) := by
  obtain ⟨ofItem, h⟩ := h
  have hparts : ∀ part ∈ m.parts,
      (do (lines (← Module.ofItems m.name [part])).map text) = (ofItem m.name part).map text := by
    intro part hpart
    rw [← of_single h hpart]
    cases Module.ofItems m.name [part] <;> rfl
  rw [mapM_congr_mem hparts, mapM_map_ok, h]
  cases m.parts.mapM (ofItem m.name) with
  | error fault => rfl
  | ok rows => exact congrArg Except.ok (htext rows)

end Itemwise

/-! ### Headers -/

theorem linesText_flatten (rows : List (List String)) : linesText rows.flatten = String.join (rows.map linesText) := by
  induction rows with
  | nil => rfl
  | cons ls rows ih => rw [List.flatten_cons, linesText_append, ih, List.map_cons, String.join_cons]

def Header.itemLines (style : Style) : Item → Except Fault (List String)
  | .constant c => constantLines c
  | .type (.enumeration e) => enumerationLines style e
  | .type (.struct s) => structLines style s
  | _ => .ok []

theorem Header.itemwise_headerLines (style : Style) : Itemwise (headerLines style) := by
  refine ⟨fun _ => itemLines style, fun m => ?_⟩
  have hconstants : itemLines style ∘ .constant = constantLines := rfl
  have henumerations : (itemLines style ∘ fun e => .type (.enumeration e)) = enumerationLines style := rfl
  have hstructs : (itemLines style ∘ fun s => .type (.struct s)) = structLines style := rfl
  simp only [Module.parts, List.mapM_append, List.mapM_map, hconstants, henumerations, hstructs, headerLines]
  cases m.constants.mapM constantLines with
  | error fault => rfl
  | ok constants =>
    cases m.enumerations.mapM (enumerationLines style) with
    | error fault => rfl
    | ok enumerations =>
      cases m.structs.mapM (structLines style) with
      | error fault => rfl
      | ok structs => exact congrArg Except.ok (by simp)

/-! ### Headers with code -/

/-- Pairs of texts, the first ones and the second ones put together. -/
def joinBoth (pairs : List (String × String)) : String × String :=
  (String.join (pairs.map Prod.fst), String.join (pairs.map Prod.snd))

theorem Sourcing.texts_flatten (style : Style) (rows : List (List Definition)) :
    texts style rows.flatten = joinBoth (rows.map (texts style)) := by
  have hheader : linesText (rows.flatten.map Definition.declaration) =
      String.join ((rows.map (texts style)).map Prod.fst) := by
    rw [List.map_flatten, linesText_flatten, List.map_map, List.map_map]
    rfl
  have hcode : linesText (rows.flatten.flatMap (Definition.lines style)) =
      String.join ((rows.map (texts style)).map Prod.snd) := by
    rw [List.flatMap, List.map_flatten, List.flatten_flatten, linesText_flatten]
    simp only [List.map_map]
    rfl
  rw [texts, joinBoth, hheader, hcode]

section
variable (ofEnumeration : Enumeration → Except Fault (List Definition)) (ofStruct : Struct → Except Fault (List Definition))

def itemDefinitions : Item → Except Fault (List Definition)
  | .type (.enumeration e) => ofEnumeration e
  | .type (.struct s) => ofStruct s
  | _ => .ok []

theorem mapM_constants_itemDefinitions (constants : List Constant) :
    constants.mapM (itemDefinitions ofEnumeration ofStruct ∘ .constant) = .ok (constants.map fun _ => []) := by
  induction constants with
  | nil => rfl
  | cons c constants ih =>
    rw [List.mapM_cons, ih]
    rfl

theorem collect_eq (m : Module) : collect m ofEnumeration ofStruct =
    (m.parts.mapM (itemDefinitions ofEnumeration ofStruct)).map List.flatten := by
  have henumerations : (itemDefinitions ofEnumeration ofStruct ∘ fun e => .type (.enumeration e)) = ofEnumeration := rfl
  have hstructs : (itemDefinitions ofEnumeration ofStruct ∘ fun s => .type (.struct s)) = ofStruct := rfl
  simp only [Module.parts, List.mapM_append, List.mapM_map, mapM_constants_itemDefinitions, henumerations, hstructs,
    collect]
  cases m.enumerations.mapM ofEnumeration with
  | error fault => rfl
  | ok enumerations =>
    cases m.structs.mapM ofStruct with
    | error fault => rfl
    | ok structs => exact congrArg Except.ok (by simp)

end

theorem Printers.itemwise_definitions (style : Style) : Itemwise (definitions style) :=
  ⟨fun _ => _, collect_eq (enumerationDefinitions style) (structDefinitions style)⟩

theorem Conversion.itemwise_definitions (package : String) : Itemwise (definitions package) :=
  ⟨fun name => itemDefinitions (enumerationDefinitions (package ++ "python_" ++ name ++ "_protocol"))
      (structDefinitions (package ++ "python_" ++ name ++ "_protocol")),
    fun m => collect_eq _ _ m⟩

/-! ### All generators -/

/-- What is given out for a module with these items. The run gives its texts out, they are joined from those of modules
with one item each, and a reordering of the items leaves them the same. -/
structure Compositional {σ α : Type} (run : Module → EStateM Fault σ Unit) (start : σ) (texts : Module → Except Fault α)
    (join : List α → α) (items : List Item) (m : Module) : Prop where
  given : Gives (run m) start (texts m)
  joined : texts m = (do return join (← m.parts.mapM fun part => do texts (← Module.ofItems m.name [part])))
  reordered : ∀ items', Item.Reordered items items' → (do texts (← Module.ofItems m.name items')) = texts m

theorem Compositional.of_itemwise {σ α β : Type} {run : Module → EStateM Fault σ Unit} {start : σ}
    {texts : Module → Except Fault α} {join : List α → α} {lines : Module → Except Fault (List β)} {text : List β → α}
    (hgiven : ∀ m, Gives (run m) start (texts m)) (htexts : ∀ m, texts m = (lines m).map text) (hlines : Itemwise lines)
    (htext : ∀ rows : List (List β), text rows.flatten = join (rows.map text)) {items : List Item} {m : Module}
    (hm : Module.ofItems m.name items = .ok m) : Compositional run start texts join items m where
  given := hgiven m
  joined := by
    simp only [htexts]
    exact hlines.joined htext m
  reordered items' hitems := by
    rw [Module.ofItems_reordered hm hitems]
    rfl

/-- The texts of a module are those of its constants, its enumerations and its structs one behind the other, each made
by a run for that item alone. Constants show in headers only, and how the items were mixed shows nowhere. -/
theorem texts_eq_join_parts {name : String} {items : List Item} {m : Module} (hm : Module.ofItems name items = .ok m)
    {style : Style} (hstyle : style = .knr ∨ style = .bsd) (package : String) :
    Compositional (Header.run style) .braced (headerText style) String.join items m ∧
      Compositional (Printers.run style) ⟨.braced, .braced⟩ (printerTexts style) joinBoth items m ∧
      Compositional (Conversion.run package) ⟨.braced, .braced⟩ (conversionTexts package) joinBoth items m ∧
      ∀ c ∈ m.constants, (do printerTexts style (← Module.ofItems m.name [.constant c])) = .ok ("", "") ∧
        (do conversionTexts package (← Module.ofItems m.name [.constant c])) = .ok ("", "") := by
  have hname : m.name = name := congrArg Module.name (Module.of_ofItems_eq_ok hm)
  subst hname
  refine ⟨.of_itemwise (Header.gives_text style) (headerText_eq style) (Header.itemwise_headerLines style)
    linesText_flatten hm, ?_, ?_, fun c _ => ⟨?_, ?_⟩⟩
  · exact .of_itemwise (Printers.gives_texts hstyle) (printerTexts_eq hstyle) (Printers.itemwise_definitions style)
      (Sourcing.texts_flatten style) hm
  · exact .of_itemwise (Conversion.gives_texts package) (conversionTexts_eq package)
      (Conversion.itemwise_definitions package) (Sourcing.texts_flatten .knr) hm
  · exact printerTexts_eq hstyle ⟨m.name, [c], [], []⟩
  · exact conversionTexts_eq package ⟨m.name, [c], [], []⟩

/-- The items of the drawing with the constant and the enumeration between the structs. -/
def mixedDrawing : List Item :=
  [.constant ⟨"MAX_POINTS", .int 16⟩, .type (.struct (point "t")), .type (.enumeration Header.color),
    .type (.struct Header.path)]

theorem reordered_mixedDrawing : Item.Reordered Header.drawing mixedDrawing where
  perm := .trans (.cons _ (.swap _ _ _)) (.trans (.swap _ _ _) (.cons _ (.cons _ (.swap _ _ _))))
  constants := rfl
  structs := rfl
  enumerations := rfl

theorem drawing_texts_joined :
    ∃ m, Module.ofItems "drawing" Header.drawing = .ok m ∧
      headerText .knr m = .ok (linesText Header.drawingLines) ∧
      (do return String.join (← m.parts.mapM fun part => do headerText .knr (← Module.ofItems m.name [part]))) =
        (.ok (linesText Header.drawingLines) : Except Fault String) ∧
      (do headerText .knr (← Module.ofItems m.name mixedDrawing)) = .ok (linesText Header.drawingLines) := by
  obtain ⟨m, hm, htext⟩ : ∃ m, Module.ofItems "drawing" Header.drawing = .ok m ∧
      headerText .knr m = .ok (linesText Header.drawingLines) := ⟨_, rfl, by decide +kernel⟩
  obtain ⟨hheader, -, -, -⟩ := texts_eq_join_parts hm (.inl rfl) "model."
  refine ⟨m, hm, htext, hheader.joined.symm.trans htext, ?_⟩
  exact (hheader.reordered mixedDrawing reordered_mixedDrawing).trans htext

end Emit

end CodeBridge
