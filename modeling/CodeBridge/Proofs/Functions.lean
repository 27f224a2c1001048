import CodeBridge.Emit.Texts
import CodeBridge.Proofs.MacroLines
import CodeBridge.Proofs.Sessions
import CodeBridge.Proofs.Tags

/-! # Functions in a header and in its code

A generator of two texts writes functions one after the other. Of each function a line with its signature goes into the
header, and its definition goes into the code: the signature, a body that stands one level deeper, and the closing
brace. `Defines` says which functions are written, or which fault ends the writing. -/

namespace CodeBridge

/-! ### Texts of one line -/

/-- A text without a line feed. -/
def OneLine (s : String) : Prop :=
  '\n' ∉ s.toList

instance : DecidablePred OneLine := fun s =>
  inferInstanceAs (Decidable ('\n' ∉ s.toList))

@[simp] theorem oneLine_append {a b : String} : OneLine (a ++ b) ↔ OneLine a ∧ OneLine b := by
  simp [OneLine]

@[simp] theorem oneLine_indented {l : String} : OneLine (indented l) ↔ OneLine l := by
  rw [indented, oneLine_append]
  exact and_iff_right (by decide)

theorem oneLine_cName {keyword mark name c : String} {typedef : Value} (hkeyword : OneLine keyword) (hmark : OneLine mark)
    (hname : OneLine name) (h : cName keyword mark name typedef = .ok c) : OneLine c := by
  obtain ⟨tag, htag, h⟩ := exists_of_bind_eq_ok h
  have hname : ∀ c ∈ name.toList, c ≠ '\n' := fun c hc e => hname (e ▸ hc)
  have honeLine : OneLine tag := fun hmem => Name.kept_ne_lineFeed.snake hname htag _ hmem rfl
  cases h
  split
  · exact oneLine_append.mpr ⟨honeLine, hmark⟩
  · exact oneLine_append.mpr ⟨hkeyword, honeLine⟩

theorem oneLine_structName {s : Struct} {c : String} (hname : OneLine s.name) (h : s.cName = .ok c) : OneLine c :=
  oneLine_cName (by decide) (by decide) hname h

theorem oneLine_enumerationName {e : Enumeration} {c : String} (hname : OneLine e.name) (h : e.cName = .ok c) : OneLine c :=
  oneLine_cName (by decide) (by decide) hname h

namespace Writing

/-- What is written one level deeper stands there. -/
theorem Yields.deeper {x : Writing Unit} {ls : List String} (h : Yields x (.ok ls)) :
    Yields (indent >>= fun _ => x >>= fun _ => unindent) (.ok (ls.map indented)) := by
  intro w hw
  have hindent : indent w = .ok () (w.atLevel (w.level + 1)) := rfl
  rw [bind_ok hindent, bind_ok (h _ hw.atLevel_succ), ← Writer.addLines_atLevel_succ hw.level]
  -- The level that was raised is above zero, so that going back is not refused.
  have hlevel : ((w.atLevel (w.level + 1)).addLines ls).level = w.level + 1 := rfl
  have hpositive := hw.level
  rw [unindent, bind_ok (show level _ = .ok _ _ from rfl), hlevel, if_neg (by omega)]
  show EStateM.Result.ok () (Writer.atLevel _ (w.level + 1 - 1)) = _
  rw [Int.add_sub_cancel]

theorem Yields.each_ok {α : Type} {items : List α} {f : α → Writing Unit} {g : α → List String}
    (h : ∀ a, Yields (f a) (.ok (g a))) : Yields (Writing.each items f) (.ok (items.flatMap g)) :=
  yields_iff.mpr (.each_ok fun a => yields_iff.mp (h a))

end Writing

/-- The lines before the body of a block. -/
def Style.heading (style : Style) (head : String) : List String :=
  match style with
  | .bsd => [head, "\x7b"]
  | _ => [head ++ " \x7b"]

theorem Style.oneLine_heading {style : Style} {head : String} (h : OneLine head) :
    ∀ l ∈ style.heading head, OneLine l := by
  unfold heading
  split <;> simp +decide [h]

theorem Style.opening_eq {style : Style} (hstyle : style = .knr ∨ style = .bsd) (head : String) :
    style.opening head = .ok (style.heading head) := by
  rcases hstyle with rfl | rfl <;> rfl

namespace Macro

/-- All texts of a call have no line feeds. -/
def OneLine (m : Macro) : Prop :=
  m.Every (fun v => ∀ text, v.text? = .ok text → CodeBridge.OneLine text) CodeBridge.OneLine

@[simp] theorem oneLine_text {text : String} : (Macro.text text).OneLine ↔ CodeBridge.OneLine text := by
  rw [OneLine, every_text]
  exact ⟨fun h => h text rfl, by rintro h _ ⟨⟩; exact h⟩

@[simp] theorem oneLine_call {name : String} {arguments : List Macro} :
    (Macro.call name arguments).OneLine ↔ CodeBridge.OneLine name ∧ ∀ m ∈ arguments, m.OneLine :=
  every_call

mutual

theorem oneLine_lines : ∀ (m : Macro) {ls : List String} {last : String}, m.OneLine → m.lines = .ok (ls, last) →
    (∀ l ∈ ls, CodeBridge.OneLine l) ∧ CodeBridge.OneLine last
  | .value v, ls, last, hm, h => by
    obtain ⟨shown, hshown, h⟩ := exists_of_bind_eq_ok h
    cases h
    exact ⟨fun l hl => (nomatch hl), hm _ hshown⟩
  | .call name [], ls, last, hm, h => by
    cases h
    exact ⟨by simpa using ⟨hm.1, (by decide : CodeBridge.OneLine "(")⟩, by decide⟩
  | .call name (argument :: rest), ls, last, hm, h => by
    obtain ⟨hname, hall⟩ := oneLine_call.mp hm
    obtain ⟨hargument, hrest⟩ := List.forall_mem_cons.mp hall
    obtain ⟨⟨ls', last'⟩, hlines, h⟩ := exists_of_bind_eq_ok h
    obtain ⟨⟨ls₁, last₁⟩, h₁, hlines⟩ := exists_of_bind_eq_ok hlines
    obtain ⟨⟨ls₂, last₂⟩, h₂, hlines⟩ := exists_of_bind_eq_ok hlines
    cases h
    cases hlines
    obtain ⟨hls₁, hlast₁⟩ := oneLine_lines argument hargument h₁
    obtain ⟨hls₂, hlast₂⟩ := oneLine_furtherLines rest hlast₁ hrest h₂
    refine ⟨List.forall_mem_cons.mpr ⟨oneLine_append.mpr ⟨hname, by decide⟩, ?_⟩, oneLine_indented.mpr hlast₂⟩
    intro l hl
    obtain ⟨inner, hinner, rfl⟩ := List.mem_map.mp hl
    exact oneLine_indented.mpr (List.forall_mem_append.mpr ⟨hls₁, hls₂⟩ inner hinner)

theorem oneLine_furtherLines : ∀ (arguments : List Macro) {pending : String} {ls : List String} {last : String},
    CodeBridge.OneLine pending → (∀ m ∈ arguments, m.OneLine) → furtherLines pending arguments = .ok (ls, last) →
    (∀ l ∈ ls, CodeBridge.OneLine l) ∧ CodeBridge.OneLine last
  | [], pending, ls, last, hpending, hall, h => by
    cases h
    exact ⟨fun l hl => (nomatch hl), oneLine_append.mpr ⟨hpending, by decide⟩⟩
  | argument :: rest, pending, ls, last, hpending, hall, h => by
    obtain ⟨hargument, hrest⟩ := List.forall_mem_cons.mp hall
    obtain ⟨⟨ls', last'⟩, hlines, h⟩ := exists_of_bind_eq_ok h
    obtain ⟨⟨ls₁, last₁⟩, h₁, hlines⟩ := exists_of_bind_eq_ok hlines
    obtain ⟨⟨ls₂, last₂⟩, h₂, hlines⟩ := exists_of_bind_eq_ok hlines
    cases h
    cases hlines
    obtain ⟨hls₁, hlast₁⟩ := oneLine_lines argument hargument h₁
    obtain ⟨hls₂, hlast₂⟩ := oneLine_furtherLines rest hlast₁ hrest h₂
    refine ⟨List.forall_mem_cons.mpr ⟨?_, List.forall_mem_append.mpr ⟨hls₁, hls₂⟩⟩, hlast₂⟩
    exact oneLine_append.mpr ⟨hpending, by decide⟩

end

theorem oneLine_statementLines {m : Macro} (hm : m.OneLine) {ls : List String} (h : m.statementLines = .ok ls) :
    ∀ l ∈ ls, CodeBridge.OneLine l := by
  obtain ⟨⟨init, last⟩, hinit, h⟩ := exists_of_bind_eq_ok h
  cases h
  obtain ⟨hls, hlast⟩ := oneLine_lines m hm hinit
  exact List.forall_mem_append.mpr ⟨hls, by simpa using ⟨hlast, (by decide : CodeBridge.OneLine ";")⟩⟩

end Macro

/-! ### What a module holds -/

namespace DataType

/-- A type that has functions of its own. -/
def item? : DataType → Option DataType
  | .struct s => some (.struct s)
  | .enumeration e => some (.enumeration e)
  | _ => none

/-- The struct or enumeration that a field of the type holds, as such or as the elements of a list or an array. -/
def held? : DataType → Option DataType
  | .list element _ => element.item?
  | .array element _ => element.item?
  | t => t.item?

theorem of_held?_eq_some {t held : DataType} (h : t.held? = some held) :
    (t = held ∨ (∃ bound, t = .list held bound) ∨ ∃ length, t = .array held length) ∧
      ((∃ s, held = .struct s) ∨ ∃ e, held = .enumeration e) := by
  have hitem : ∀ {t : DataType}, t.item? = some held →
      t = held ∧ ((∃ s, held = .struct s) ∨ ∃ e, held = .enumeration e) := by
    intro t h
    cases t with
    | struct s => cases h; exact ⟨rfl, .inl ⟨s, rfl⟩⟩
    | enumeration e => cases h; exact ⟨rfl, .inr ⟨e, rfl⟩⟩
    | _ => cases h
  unfold held? at h
  split at h
  case h_1 element bound =>
    obtain ⟨rfl, hkind⟩ := hitem h
    exact ⟨.inr (.inl ⟨bound, rfl⟩), hkind⟩
  case h_2 element length =>
    obtain ⟨rfl, hkind⟩ := hitem h
    exact ⟨.inr (.inr ⟨length, rfl⟩), hkind⟩
  case h_3 =>
    obtain ⟨rfl, hkind⟩ := hitem h
    exact ⟨.inl rfl, hkind⟩

/-- The names in a type have no line feeds. -/
def OneLine : DataType → Prop
  | .custom name castType _ => CodeBridge.OneLine name ∧ CodeBridge.OneLine castType
  | .struct s => CodeBridge.OneLine s.name
  | .enumeration e => CodeBridge.OneLine e.name
  | .list element bound => element.OneLine ∧ ∀ constant, bound = .named constant → CodeBridge.OneLine constant
  | .array element length => element.OneLine ∧ CodeBridge.OneLine length
  | .set name _ _ => CodeBridge.OneLine name
  | .map name _ _ => CodeBridge.OneLine name
  | .other name _ => CodeBridge.OneLine name
  | .missing => True
  | .primitive _ => True

/-- All types but lists and arrays are spelled as one text. -/
theorem of_spelling_eq_ok {t : DataType} {spelling : Spelling} (h : t.spelling = .ok spelling)
    (hlist : ∀ element bound, t ≠ .list element bound) (harray : ∀ element length, t ≠ .array element length) :
    ∃ text, spelling = .plain text ∧ (t.OneLine → CodeBridge.OneLine text) := by
  cases t with
  | primitive p =>
    cases h
    exact ⟨_, rfl, fun _ => by cases p <;> decide⟩
  | struct s =>
    obtain ⟨c, hc, h⟩ := exists_of_bind_eq_ok ((map_eq_pure_bind _ _).symm.trans h)
    cases h
    exact ⟨c, rfl, fun hname => oneLine_structName hname hc⟩
  | enumeration e =>
    obtain ⟨c, hc, h⟩ := exists_of_bind_eq_ok ((map_eq_pure_bind _ _).symm.trans h)
    cases h
    exact ⟨c, rfl, fun hname => oneLine_enumerationName hname hc⟩
  | list element bound => exact absurd rfl (hlist element bound)
  | array element length => exact absurd rfl (harray element length)
  | _ => cases h

theorem oneLine_label : ∀ {t : DataType}, t.OneLine → CodeBridge.OneLine t.label
  | .missing, _ => by decide
  | .primitive p, _ => by cases p <;> decide
  | .custom _ _ _, h => h.1
  | .struct _, h => h
  | .enumeration _, h => h
  | .list _ _, h => by simpa +decide [label] using oneLine_label h.1
  | .array _ _, h => by simpa +decide [label] using oneLine_label h.1
  | .set _ _ _, h => h
  | .map _ _ _, h => h
  | .other _ _, h => h

theorem oneLine_name {t : DataType} {name : String} (ht : t.OneLine) (h : t.name = .ok name) :
    CodeBridge.OneLine name := by
  cases t <;> cases h <;> exact oneLine_label ht

end DataType

namespace Module

/-- The types that a module brings along, in the order in which generators go through them. -/
def items (m : Module) : List DataType :=
  m.enumerations.map .enumeration ++ m.structs.map .struct

/-- All structs and enumerations that the fields hold are those of the module. -/
def Closed (m : Module) : Prop :=
  ∀ s ∈ m.structs, ∀ f ∈ s.fields, ∀ t, f.type.held? = some t → t ∈ m.items

/-- All names of a module have no line feeds. -/
structure OneLine (m : Module) : Prop where
  name : CodeBridge.OneLine m.name
  enumerations : ∀ e ∈ m.enumerations, CodeBridge.OneLine e.name ∧ ∀ v ∈ e.values, CodeBridge.OneLine v
  structs : ∀ s ∈ m.structs, CodeBridge.OneLine s.name ∧ ∀ f ∈ s.fields, CodeBridge.OneLine f.name ∧ f.type.OneLine

end Module

namespace Emit

/-! ### Functions and their definitions -/

/-- A C function by the parts of its signature. -/
structure Function where
  type : String
  name : String
  parameters : String

def Function.signature (f : Function) : String :=
  f.type ++ " " ++ f.name ++ "(" ++ f.parameters ++ ")"

/-- The definition of a function that deals with some fields in turn: a block of lines for each of them stands between
the first and the last lines of its body. -/
structure Definition where
  function : Function
  first : List String
  fields : List Field
  blocks : List (List String)
  last : List String

namespace Definition

/-- The line of the header. -/
def declaration (d : Definition) : String :=
  d.function.signature ++ ";"

def body (d : Definition) : List String :=
  d.first ++ (d.blocks.flatten ++ d.last)

/-- The lines of the code. -/
def lines (style : Style) (d : Definition) : List String :=
  style.heading d.function.signature ++ d.body.map indented ++ ["\x7d", ""]

theorem oneLine_lines {style : Style} {d : Definition} (hsignature : OneLine d.function.signature)
    (hbody : ∀ l ∈ d.body, OneLine l) : ∀ l ∈ d.lines style, OneLine l := by
  have hindented : ∀ l ∈ d.body.map indented, OneLine l := by
    simpa using hbody
  simp only [lines, List.forall_mem_append]
  exact ⟨⟨Style.oneLine_heading hsignature, hindented⟩, by decide⟩

end Definition

/-- The definitions for the enumerations of a module and then for its structs. -/
def collect (m : Module) (ofEnumeration : Enumeration → Except Fault (List Definition))
    (ofStruct : Struct → Except Fault (List Definition)) : Except Fault (List Definition) := do
  return (← m.enumerations.mapM ofEnumeration).flatten ++ (← m.structs.mapM ofStruct).flatten

section
variable {m : Module} {ofEnumeration : Enumeration → Except Fault (List Definition)}
  {ofStruct : Struct → Except Fault (List Definition)} {ds : List Definition}

theorem mem_collect_iff (h : collect m ofEnumeration ofStruct = .ok ds) {d : Definition} : d ∈ ds ↔
    (∃ e ∈ m.enumerations, ∃ l, ofEnumeration e = .ok l ∧ d ∈ l) ∨ ∃ s ∈ m.structs, ∃ l, ofStruct s = .ok l ∧ d ∈ l := by
  obtain ⟨es, hes, h⟩ := exists_of_bind_eq_ok h
  obtain ⟨ss, hss, h⟩ := exists_of_bind_eq_ok h
  cases h
  rw [List.mem_append, mem_flatten_of_mapM_eq_ok hes, mem_flatten_of_mapM_eq_ok hss]

/-- The functions of each item have the names that belong to it. -/
theorem names_collect {names : DataType → List String} (h : collect m ofEnumeration ofStruct = .ok ds)
    (hes : ∀ e l, ofEnumeration e = .ok l → l.map (·.function.name) = names (.enumeration e))
    (hss : ∀ s l, ofStruct s = .ok l → l.map (·.function.name) = names (.struct s)) :
    ds.map (·.function.name) = m.items.flatMap names := by
  obtain ⟨es, hmes, h⟩ := exists_of_bind_eq_ok h
  obtain ⟨ss, hmss, h⟩ := exists_of_bind_eq_ok h
  cases h
  rw [List.map_append, Module.items, List.flatMap_append, List.flatMap_map, List.flatMap_map,
    map_flatten_of_mapM_eq_ok hmes hes, map_flatten_of_mapM_eq_ok hmss hss]

theorem exists_function {names : DataType → List String} (h : ds.map (·.function.name) = m.items.flatMap names)
    {t : DataType} (ht : t ∈ m.items) {name : String} (hname : name ∈ names t) :
    ∃ g ∈ ds.map Definition.function, g.name = name := by
  have hmem : name ∈ ds.map (·.function.name) := h ▸ List.mem_flatMap.mpr ⟨t, ht, hname⟩
  obtain ⟨d, hd, rfl⟩ := List.mem_map.mp hmem
  exact ⟨d.function, List.mem_map_of_mem hd, rfl⟩

end

namespace Sourcing

variable {α : Type} {style : Style} {t : Sources}

/-- `x` adds these functions to every header and code that are ready, or ends in this fault. -/
def Defines (style : Style) (x : Sourcing Unit) : Except Fault (List Definition) → Prop
  | .ok ds => ∀ t : Sources, t.header.Ready → t.code.Ready →
      x t = .ok () ⟨t.header.addLines (ds.map Definition.declaration),
        t.code.addLines (ds.flatMap (Definition.lines style))⟩
  | .error fault => ∀ t : Sources, t.header.Ready → t.code.Ready → ∃ t', x t = .error fault t'

namespace Defines

theorem pure : Defines style (Pure.pure ()) (.ok []) := fun t hheader hcode => by
  rw [List.map_nil, List.flatMap_nil, Writer.addLines_nil hheader.lineStart,
    Writer.addLines_nil hcode.lineStart]
  rfl

theorem bind {x y : Sourcing Unit} {r s : Except Fault (List Definition)} (hx : Defines style x r)
    (hy : Defines style y s) : Defines style (x >>= fun _ => y) (do return (← r) ++ (← s)) := by
  cases r with
  | error fault =>
    intro t hheader hcode
    obtain ⟨t', h⟩ := hx t hheader hcode
    exact ⟨t', bind_error h _⟩
  | ok a =>
    cases s with
    | error fault =>
      intro t hheader hcode
      obtain ⟨t', h⟩ := hy ⟨t.header.addLines _, t.code.addLines _⟩ (hheader.addLines _) (hcode.addLines _)
      exact ⟨t', by rw [bind_ok (hx t hheader hcode), h]⟩
    | ok b =>
      intro t hheader hcode
      rw [bind_ok (hx t hheader hcode), hy _ (hheader.addLines _) (hcode.addLines _), Writer.addLines_addLines,
        Writer.addLines_addLines, ← List.map_append, ← List.flatMap_append]

theorem check {e : Except Fault α} {f : α → Sourcing Unit} {g : α → Except Fault (List Definition)}
    (h : ∀ a, e = .ok a → Defines style (f a) (g a)) : Defines style (Sourcing.check e >>= f) (e >>= g) := by
  cases e with
  | error fault => exact fun t _ _ => ⟨t, rfl⟩
  | ok a => exact h a rfl

/-- Items in turn define their functions in turn. -/
theorem each {items : List α} {f : α → Sourcing Unit} {g : α → Except Fault (List Definition)}
    (h : ∀ a ∈ items, Defines style (f a) (g a)) :
    Defines style (Sourcing.each items f) (do return (← items.mapM g).flatten) := by
  induction items with
  | nil => exact .pure
  | cons a items ih =>
    have hrest := ih fun b hb => h b (List.mem_cons_of_mem _ hb)
    have hboth := (h a List.mem_cons_self).bind hrest
    cases ha : g a with
    | error fault => simpa [Sourcing.each, List.mapM_cons, ha] using hboth
    | ok ds =>
      cases hm : items.mapM g with
      | error fault => simpa [Sourcing.each, List.mapM_cons, ha, hm] using hboth
      | ok rest => simpa [Sourcing.each, List.mapM_cons, ha, hm] using hboth

theorem collect {m : Module} {enumeration : Enumeration → Sourcing Unit} {struct : Struct → Sourcing Unit}
    {ofEnumeration : Enumeration → Except Fault (List Definition)} {ofStruct : Struct → Except Fault (List Definition)}
    (he : ∀ e, Defines style (enumeration e) (ofEnumeration e)) (hs : ∀ s, Defines style (struct s) (ofStruct s)) :
    Defines style (do
      Sourcing.each m.enumerations enumeration
      Sourcing.each m.structs struct) (Emit.collect m ofEnumeration ofStruct) := by
  have hall := (each fun e (_ : e ∈ m.enumerations) => he e).bind (each fun s (_ : s ∈ m.structs) => hs s)
  simp only [bind_assoc, pure_bind] at hall
  exact hall

/-- A signature goes into the header, and the code gets it again with the body behind it. -/
theorem function (hstyle : style = .knr ∨ style = .bsd) {body : Writing Unit} {f : Function}
    {r : Except Fault Definition} (hbody : Writing.Yields body (Definition.body <$> r))
    (hf : ∀ d, r = .ok d → d.function = f) {signature : String} (hsignature : signature = f.signature) :
    Defines style (do
      inHeader (Writing.line (signature ++ ";"))
      inCode do
        style.before signature
        Writing.block body
        Writing.line "") (do return [← r]) := by
  subst hsignature
  have hcode := (Writing.Yields.block (Style.opens_before (Style.opening_eq hstyle f.signature)) hbody "").bind
    (Writing.Yields.line "")
  rw [bind_assoc] at hcode
  cases r with
  | error fault =>
    -- The header has its line already when the body fails.
    intro t hheader ht
    obtain ⟨w, hw⟩ := hcode t.code ht
    refine ⟨⟨t.header.putLine (f.signature ++ ";"), w⟩, ?_⟩
    show inCode _ ⟨t.header.putLine (f.signature ++ ";"), t.code⟩ = _
    simp only [inCode, hw]
  | ok d =>
    intro t hheader ht
    have hw := hcode t.code ht
    show inCode _ ⟨t.header.putLine (f.signature ++ ";"), t.code⟩ = _
    simp only [inCode, hw]
    rw [Writer.putLine_eq hheader.lineStart, ← hf d rfl]
    simp [Definition.declaration, Definition.lines, hf d rfl]

end Defines

end Sourcing

end Emit

end CodeBridge
