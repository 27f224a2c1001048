import CodeBridge.Header.Classes
import CodeBridge.Proofs.HeaderContents

/-! # The lines of classes

The classes of a header as lines of text. A class has a body if a statement follows its first line, indented under it.
This is so for the class of a group exactly when the group has members: the first of them is written below the class,
and nothing else is. Values are written as they come and may look like classes themselves, so the lines with which the
class of a group starts are marked (`ClassRow`). -/

namespace CodeBridge.Header

open Text Writing

/-! ### What is written -/

def remarkLines (comment : Option String) : List String :=
  match comment with
  | some text => if text == "" then [] else ["# " ++ text]
  | none => []

def assignmentLines (e : Entry) : List String :=
  remarkLines e.comment ++ [e.name ++ " = " ++ e.content.getD "None"]

def hintLines (e : Entry) : List String :=
  remarkLines e.comment ++ [e.name ++ ": " ++ typeHint e.content]

/-- The lines of a class. -/
def classBlock (head : String) (body : List String) : List String :=
  head :: (body.map indented ++ ["", ""])

/-- The first line of the class of an enumeration. -/
def enumerationHead (g : Group) : String :=
  "class " ++ g.name ++ "(IntEnum):"

/-- The first line of the class of a struct. -/
def structHead (g : Group) : String :=
  "class " ++ g.name ++ ":"

def enumerationClassLines (g : Group) : List String :=
  remarkLines g.comment ++ classBlock (enumerationHead g) (g.members.flatMap assignmentLines)

def structClassLines (g : Group) : List String :=
  remarkLines g.comment ++ "@dataclass" :: classBlock (structHead g) (g.members.flatMap hintLines)

def importLines : List String :=
  ["from dataclasses import dataclass", "from typing import Dict, List, Union, Optional", "from enum import IntEnum", ""]

def classLines (d : Definitions) : List String :=
  importLines ++ (d.constants.flatMap (fun e => assignmentLines e ++ [""]) ++
    (d.enumerations.flatMap enumerationClassLines ++ d.structs.flatMap structClassLines))

section
variable {b : Brackets}

theorem yields_commentLine (comment : Option String) : YieldsFor b (commentLine comment) (.ok (remarkLines comment)) := by
  cases comment with
  | none => exact .pure
  | some text =>
    rw [commentLine, remarkLines]
    split
    · exact .pure
    · exact .line _

theorem yields_assignment (e : Entry) : YieldsFor b (assignment e) (.ok (assignmentLines e)) :=
  (yields_commentLine e.comment).bind (.line _)

theorem yields_fieldLines (e : Entry) : YieldsFor b (fieldLines e) (.ok (hintLines e)) :=
  (yields_commentLine e.comment).bind (.line _)

theorem yields_classBlock (head : String) {body : Writing Unit} {ls : List String} (hbody : YieldsFor ⟨"", ""⟩ body (.ok ls)) :
    YieldsFor ⟨"", ""⟩ (do
      write head
      block body
      line "") (.ok (classBlock head ls)) := by
  have hall := (YieldsFor.block (opensFor_write head "") hbody "").bind (YieldsFor.line "")
  rw [bind_assoc] at hall
  have hlines : [head] ++ ls.map indented ++ ["" ++ ""] ++ [""] = classBlock head ls := by simp [classBlock]
  exact hlines ▸ hall

theorem yields_enumerationClass (g : Group) : YieldsFor ⟨"", ""⟩ (enumerationClass g) (.ok (enumerationClassLines g)) :=
  (yields_commentLine g.comment).bind (yields_classBlock _ (.each_ok yields_assignment))

theorem yields_structClass (g : Group) : YieldsFor ⟨"", ""⟩ (structClass g) (.ok (structClassLines g)) :=
  (yields_commentLine g.comment).bind ((YieldsFor.line "@dataclass").bind
    (yields_classBlock _ (.each_ok yields_fieldLines)))

theorem yields_classes (d : Definitions) : YieldsFor ⟨"", ""⟩ (classes d) (.ok (classLines d)) := by
  have hconstants : YieldsFor ⟨"", ""⟩ (each d.constants constantLines)
      (.ok (d.constants.flatMap fun e => assignmentLines e ++ [""])) :=
    .each_ok fun e => (yields_assignment e).bind (.line "")
  exact (YieldsFor.line _).bind ((YieldsFor.line _).bind ((YieldsFor.line _).bind ((YieldsFor.line _).bind
    (hconstants.bind ((YieldsFor.each_ok yields_enumerationClass).bind (.each_ok yields_structClass))))))

/-- The classes of a header can always be written. -/
theorem classesText_eq (d : Definitions) : classesText d = .ok (linesText (classLines d)) := by
  have hready : Writer.bare.ReadyFor ⟨"", ""⟩ := ⟨rfl, by decide, rfl⟩
  rw [classesText, seqRight_eq_bind, bind_ok (yields_classes d _ hready)]
  exact congrArg Except.ok (Emit.text_addLines_braced (classLines d))

end

/-! ### Lines of a text -/

theorem splitLines_of_not_mem {cs : List Char} (h : '\n' ∉ cs) : Emit.splitLines cs = [cs] := by
  induction cs with
  | nil => rfl
  | cons c cs ih =>
    obtain ⟨hc, hcs⟩ := not_or.mp (List.mem_cons.not.mp h)
    simp [Emit.splitLines, Ne.symm hc, ih hcs]

theorem splitLines_append_lineEnd (a b : List Char) :
    Emit.splitLines (a ++ '\n' :: b) = Emit.splitLines a ++ Emit.splitLines b := by
  induction a with
  | nil => rfl
  | cons c a ih =>
    obtain ⟨first, others, hsplit, -, -⟩ := Emit.splitLines_spec a
    rw [hsplit] at ih
    by_cases hc : c = '\n' <;> simp [Emit.splitLines, hc, ih, hsplit]

/-- What stands on a line may itself have line ends. -/
theorem splitLines_unlines (ls : List (List Char)) :
    Emit.splitLines (unlines ls) = ls.flatMap Emit.splitLines ++ [[]] := by
  induction ls with
  | nil => rfl
  | cons l ls ih => rw [unlines_cons, splitLines_append_lineEnd, ih, List.flatMap_cons, List.append_assoc]

/-- The lines of some written lines, which may have line ends in them. -/
def textLines (ls : List String) : List (List Char) :=
  ls.flatMap fun l => Emit.splitLines l.toList

theorem textLines_append (a b : List String) : textLines (a ++ b) = textLines a ++ textLines b :=
  List.flatMap_append ..

theorem textLines_flatMap {α : Type} (items : List α) (f : α → List String) :
    textLines (items.flatMap f) = items.flatMap fun a => textLines (f a) :=
  List.flatMap_assoc ..

theorem textLines_cons_of_not_mem {l : String} (hl : '\n' ∉ l.toList) (ls : List String) :
    textLines (l :: ls) = l.toList :: textLines ls := by
  rw [textLines, List.flatMap_cons, splitLines_of_not_mem hl]
  rfl

theorem splitLines_linesText (ls : List String) : Emit.splitLines (linesText ls).toList = textLines ls ++ [[]] := by
  rw [toList_linesText, splitLines_unlines, List.flatMap_map]
  rfl

/-! ### Bodies -/

/-- A line that belongs to the class above: it is blank or indented by four spaces. -/
def belongs (l : List Char) : Bool :=
  l.all isBlank || "    ".toList.isPrefixOf l

/-- The lines that belong to a class, from those behind its first line. -/
def bodyOf (after : List (List Char)) : List (List Char) :=
  after.takeWhile belongs

/-- A line that is indented by four spaces and neither blank nor a comment. -/
def Statement (l : List Char) : Prop :=
  ∃ c rest, l = "    ".toList ++ c :: rest ∧ isBlank c = false ∧ c ≠ '#'

section
variable {l : List Char} {xs ys : List (List Char)}

theorem belongs_of_indented (h : "    ".toList <+: l) : belongs l = true := by
  rw [belongs, List.isPrefixOf_iff_prefix.mpr h, Bool.or_true]

/-- No statement comes before the next line that is not indented. -/
def Flush (lines : List (List Char)) : Prop :=
  ∀ s ∈ bodyOf lines, ¬Statement s

theorem flush_cons {c : Char} (hl : l.head? = some c) (hc : isBlank c = false) : Flush (l :: ys) := by
  obtain ⟨rest, rfl⟩ := List.head?_eq_some_iff.mp hl
  have hne : c ≠ ' ' := by
    rintro rfl
    cases hc
  have hbody : bodyOf ((c :: rest) :: ys) = [] := by simp [bodyOf, belongs, hc, Ne.symm hne]
  intro s hs
  rw [hbody] at hs
  cases hs

theorem not_statement_nil : ¬Statement [] := by
  rintro ⟨c, rest, h, -, -⟩
  cases h

/-- Empty lines belong to a class, but they are no body. -/
theorem flush_empty (h : Flush ys) : Flush ([] :: ys) := by
  have hbody : bodyOf ([] :: ys) = [] :: bodyOf ys := by simp [bodyOf, belongs]
  rw [Flush, hbody]
  exact List.forall_mem_cons.mpr ⟨not_statement_nil, h⟩

/-- The lines of a member: a statement, with nothing but indented lines before it. -/
def MemberText (ls : List (List Char)) : Prop :=
  ∃ before s after, ls = before ++ s :: after ∧ (∀ l ∈ before, "    ".toList <+: l) ∧ Statement s

theorem MemberText.exists_statement (h : MemberText xs) : ∃ s ∈ bodyOf (xs ++ ys), Statement s := by
  obtain ⟨before, s, after, rfl, hbefore, hs⟩ := h
  have hindented : "    ".toList <+: s := by
    obtain ⟨c, rest, rfl, -, -⟩ := hs
    exact List.prefix_append _ _
  refine ⟨s, ?_, hs⟩
  rw [bodyOf, List.append_assoc, List.takeWhile_append_of_pos fun l hl => belongs_of_indented (hbefore l hl),
    List.cons_append, List.takeWhile_cons_of_pos (belongs_of_indented hindented)]
  exact List.mem_append_right _ List.mem_cons_self

/-- Below the first line of a class there is a statement exactly when the class has members. -/
theorem exists_statement_iff {α : Type} {members : List α} {text : α → List (List Char)}
    (hmembers : ∀ m ∈ members, MemberText (text m)) (hrest : Flush ys) :
    (∃ s ∈ bodyOf (members.flatMap text ++ ([] :: [] :: ys)), Statement s) ↔ members ≠ [] := by
  constructor
  · rintro ⟨s, hs, hstatement⟩ rfl
    exact flush_empty (flush_empty hrest) s hs hstatement
  · intro hne
    obtain ⟨m, members, rfl⟩ := List.exists_cons_of_ne_nil hne
    rw [List.flatMap_cons, List.append_assoc]
    exact (hmembers m List.mem_cons_self).exists_statement

end

/-! ### Rows -/

/-- A line of the text of the classes, and whether the class of an enumeration or a struct starts with it. -/
structure ClassRow where
  opens : Bool
  text : List Char

/-- Every class has a statement in its body. -/
def Bodied (rows : List ClassRow) : Prop :=
  ∀ l after, ⟨true, l⟩ :: after <:+ rows → ∃ s ∈ bodyOf (after.map ClassRow.text), Statement s

/-- Lines with which no class starts. -/
def plainRows (ls : List (List Char)) : List ClassRow :=
  ls.map fun l => ⟨false, l⟩

def blockRows (head : String) (body : List String) : List ClassRow :=
  ⟨true, head.toList⟩ :: plainRows (textLines (body.map indented ++ ["", ""]))

def enumerationRows (g : Group) : List ClassRow :=
  plainRows (textLines (remarkLines g.comment)) ++ blockRows (enumerationHead g) (g.members.flatMap assignmentLines)

def structRows (g : Group) : List ClassRow :=
  plainRows (textLines (remarkLines g.comment ++ ["@dataclass"])) ++ blockRows (structHead g) (g.members.flatMap hintLines)

/-- The lines of the classes of a header. -/
def classRows (d : Definitions) : List ClassRow :=
  plainRows (textLines (importLines ++ d.constants.flatMap fun e => assignmentLines e ++ [""])) ++
    (d.enumerations.flatMap enumerationRows ++ (d.structs.flatMap structRows ++ plainRows [[]]))

section
variable {ls : List (List Char)} {ys : List ClassRow}

@[simp] theorem map_text_plainRows (ls : List (List Char)) : (plainRows ls).map ClassRow.text = ls := by
  simp [plainRows, Function.comp_def]

@[simp] theorem filter_plainRows (ls : List (List Char)) : (plainRows ls).filter ClassRow.opens = [] := by
  simp [plainRows]

theorem bodied_nil : Bodied [] := fun _ _ h => by cases List.suffix_nil.mp h

theorem bodied_cons {row : ClassRow} :
    Bodied (row :: ys) ↔ (row.opens = true → ∃ s ∈ bodyOf (ys.map ClassRow.text), Statement s) ∧ Bodied ys := by
  constructor
  · intro h
    refine ⟨fun hopens => ?_, fun l after hl => h l after (hl.trans (List.suffix_cons row ys))⟩
    obtain ⟨opens, l⟩ := row
    obtain rfl : opens = true := hopens
    exact h l ys (List.suffix_refl _)
  · rintro ⟨hfirst, hrest⟩ l after hl
    rcases List.suffix_cons_iff.mp hl with e | hl
    · obtain ⟨rfl, rfl⟩ := List.cons.inj e
      exact hfirst rfl
    · exact hrest l after hl

theorem bodied_plainRows_append : Bodied (plainRows ls ++ ys) ↔ Bodied ys := by
  induction ls with
  | nil => rfl
  | cons l ls ih =>
    refine bodied_cons.trans ((and_iff_right fun h => ?_).trans ih)
    cases h

/-- Classes one behind the other have bodies exactly when all their groups have members. -/
theorem bodied_groups_iff {groups : List Group} {rows : Group → List ClassRow}
    (hstart : ∀ g ∈ groups, ∀ rest, Flush ((rows g ++ rest).map ClassRow.text))
    (hrows : ∀ g ∈ groups, ∀ rest, Flush (rest.map ClassRow.text) → (Bodied (rows g ++ rest) ↔ g.members ≠ [] ∧ Bodied rest))
    (hrest : Flush (ys.map ClassRow.text)) :
    Flush ((groups.flatMap rows ++ ys).map ClassRow.text) ∧
      (Bodied (groups.flatMap rows ++ ys) ↔ (∀ g ∈ groups, g.members ≠ []) ∧ Bodied ys) := by
  induction groups with
  | nil => exact ⟨hrest, by simp⟩
  | cons g groups ih =>
    obtain ⟨hfirst, hstart⟩ := List.forall_mem_cons.mp hstart
    obtain ⟨hclass, hrows⟩ := List.forall_mem_cons.mp hrows
    obtain ⟨hflush, hbodied⟩ := ih hstart hrows
    rw [List.flatMap_cons, List.append_assoc]
    refine ⟨hfirst _, ?_⟩
    rw [hclass _ hflush, hbodied, List.forall_mem_cons, and_assoc]

theorem filter_enumerationRows (g : Group) :
    (enumerationRows g).filter ClassRow.opens = [⟨true, (enumerationHead g).toList⟩] := by
  simp [enumerationRows, blockRows]

theorem filter_structRows (g : Group) : (structRows g).filter ClassRow.opens = [⟨true, (structHead g).toList⟩] := by
  simp [structRows, blockRows]

/-- There is one class for each group, the enumerations before the structs. -/
theorem classRows_opens (d : Definitions) : ((classRows d).filter ClassRow.opens).map ClassRow.text =
    (d.enumerations.map enumerationHead ++ d.structs.map structHead).map String.toList := by
  have hgroups : ∀ {rows : Group → List ClassRow} {head : Group → String},
      (∀ g, (rows g).filter ClassRow.opens = [⟨true, (head g).toList⟩]) → ∀ groups : List Group,
      ((groups.flatMap rows).filter ClassRow.opens).map ClassRow.text = (groups.map head).map String.toList := by
    intro rows head hrows groups
    induction groups with
    | nil => rfl
    | cons g groups ih => simp [hrows, ih]
  have henumerations := hgroups filter_enumerationRows d.enumerations
  have hstructs := hgroups filter_structRows d.structs
  rw [classRows, List.filter_append, List.filter_append, List.filter_append, filter_plainRows, filter_plainRows,
    List.nil_append, List.append_nil, List.map_append, henumerations, hstructs, List.map_append]

end

/-! ### Entries that keep to their lines -/

/-- The name and the comment of an entry stand on one line each. Its value need not. -/
structure Entry.Tidy (e : Entry) : Prop where
  name : IsWord e.name.toList
  comment : ∀ text, e.comment = some text → '\n' ∉ text.toList

/-- The lines of a text as they are indented under a class. -/
def indentedLines (l : String) : List (List Char) :=
  Emit.splitLines (indented l).toList

theorem textLines_indented (ls : List String) : textLines (ls.map indented) = ls.flatMap indentedLines :=
  List.flatMap_map ..

section
variable {e : Entry}

theorem lineFeed_not_mem_of_isWord {cs : List Char} (h : IsWord cs) : '\n' ∉ cs :=
  not_mem_of_forall h.2 (by decide)

/-- What follows a name that is indented is a statement, whatever lines it goes on for. -/
theorem memberText_statement {name : String} (hname : IsWord name.toList) (tail : String) :
    MemberText (indentedLines (name ++ tail)) := by
  obtain ⟨c, rest, hcons⟩ := List.exists_cons_of_ne_nil hname.1
  have hc : isWord c = true := hname.2 c (hcons ▸ List.mem_cons_self)
  have hfeed : '\n' ∉ "    ".toList ++ name.toList := by simp [lineFeed_not_mem_of_isWord hname]
  have htext : (indented (name ++ tail)).toList = "    ".toList ++ name.toList ++ tail.toList := by simp [indented]
  have hstatement : ∀ first, Statement ("    ".toList ++ name.toList ++ first) := by
    intro first
    refine ⟨c, rest ++ first, by simp [hcons], isBlank_of_isWord hc, ?_⟩
    rintro rfl
    cases hc
  rw [indentedLines, htext]
  by_cases htail : '\n' ∈ tail.toList
  · obtain ⟨first, behind, hsplit, hfirst⟩ := List.eq_append_cons_of_mem htail
    refine ⟨[], _, Emit.splitLines behind, ?_, List.forall_mem_nil _, hstatement first⟩
    rw [hsplit, ← List.append_assoc, splitLines_append_lineEnd, splitLines_of_not_mem (by simp_all)]
    rfl
  · exact ⟨[], _, [], splitLines_of_not_mem (by simp_all), List.forall_mem_nil _, hstatement tail.toList⟩

theorem of_mem_remarkLines {comment : Option String} {l : String} (h : l ∈ remarkLines comment) :
    ∃ text, comment = some text ∧ l = "# " ++ text := by
  cases comment with
  | none => cases h
  | some text =>
    rw [remarkLines] at h
    split at h
    · cases h
    · exact ⟨text, rfl, List.mem_singleton.mp h⟩

/-- A remark before the statement of a member is indented with it. -/
theorem Entry.Tidy.memberText (h : e.Tidy) (tail : String) :
    MemberText ((remarkLines e.comment ++ [e.name ++ tail]).flatMap indentedLines) := by
  rw [List.flatMap_append, List.flatMap_singleton]
  have hremark : ∀ l ∈ (remarkLines e.comment).flatMap indentedLines, "    ".toList <+: l := by
    intro l hl
    obtain ⟨remark, hremark, hl⟩ := List.mem_flatMap.mp hl
    obtain ⟨text, htext, rfl⟩ := of_mem_remarkLines hremark
    have hfeed : '\n' ∉ (indented ("# " ++ text)).toList := by simp [indented, h.comment text htext]
    rw [indentedLines, splitLines_of_not_mem hfeed, List.mem_singleton] at hl
    rw [hl, indented, String.toList_append]
    exact List.prefix_append _ _
  obtain ⟨before, s, after, hsplit, hbefore, hs⟩ := memberText_statement h.name tail
  refine ⟨_ ++ before, s, after, by rw [hsplit, List.append_assoc], ?_, hs⟩
  exact fun l hl => (List.mem_append.mp hl).elim (hremark l) (hbefore l)

theorem Entry.Tidy.memberText_assignment (h : e.Tidy) : MemberText ((assignmentLines e).flatMap indentedLines) := by
  rw [assignmentLines, String.append_assoc]
  exact h.memberText _

theorem Entry.Tidy.memberText_hint (h : e.Tidy) : MemberText ((hintLines e).flatMap indentedLines) := by
  rw [hintLines, String.append_assoc]
  exact h.memberText _

end

/-! ### All classes -/

structure Group.Tidy (g : Group) : Prop where
  name : IsWord g.name.toList
  comment : g.comment = none
  members : ∀ e ∈ g.members, e.Tidy

structure Definitions.Tidy (d : Definitions) : Prop where
  enumerations : ∀ g ∈ d.enumerations, g.Tidy
  structs : ∀ g ∈ d.structs, g.Tidy

section
variable {g : Group} {ys : List ClassRow}

/-- The class of a group has a body exactly when the group has members. -/
theorem Group.Tidy.bodied_block_iff (h : g.Tidy) (head : String) {render : Entry → List String}
    (hrender : ∀ e : Entry, e.Tidy → MemberText ((render e).flatMap indentedLines)) (hrest : Flush (ys.map ClassRow.text)) :
    Bodied (blockRows head (g.members.flatMap render) ++ ys) ↔ g.members ≠ [] ∧ Bodied ys := by
  have hempty : textLines ["", ""] = [[], []] := rfl
  have hlines : textLines ((g.members.flatMap render).map indented ++ ["", ""]) =
      (g.members.flatMap fun e => (render e).flatMap indentedLines) ++ [[], []] := by
    rw [textLines_append, textLines_indented, List.flatMap_assoc, hempty]
  have hbody := exists_statement_iff (fun e he => hrender e (h.members e he)) hrest
  rw [blockRows, List.cons_append, bodied_cons, bodied_plainRows_append, List.map_append, map_text_plainRows, hlines,
    List.append_assoc]
  exact and_congr_left' ((forall_prop_of_true rfl).trans hbody)

theorem Group.Tidy.bodied_enumeration_iff (h : g.Tidy) (hrest : Flush (ys.map ClassRow.text)) :
    Bodied (enumerationRows g ++ ys) ↔ g.members ≠ [] ∧ Bodied ys := by
  rw [enumerationRows, List.append_assoc, bodied_plainRows_append]
  exact h.bodied_block_iff _ (fun e he => he.memberText_assignment) hrest

theorem Group.Tidy.bodied_struct_iff (h : g.Tidy) (hrest : Flush (ys.map ClassRow.text)) :
    Bodied (structRows g ++ ys) ↔ g.members ≠ [] ∧ Bodied ys := by
  rw [structRows, List.append_assoc, bodied_plainRows_append]
  exact h.bodied_block_iff _ (fun e he => he.memberText_hint) hrest

theorem Group.Tidy.flush_enumeration (h : g.Tidy) : Flush ((enumerationRows g ++ ys).map ClassRow.text) := by
  rw [enumerationRows, h.comment]
  exact flush_cons (l := (enumerationHead g).toList) (by simp [enumerationHead]) (by decide : isBlank 'c' = false)

theorem Group.Tidy.flush_struct (h : g.Tidy) : Flush ((structRows g ++ ys).map ClassRow.text) := by
  rw [structRows, h.comment]
  exact flush_cons (l := "@dataclass".toList) rfl (by decide : isBlank '@' = false)

theorem text_blockRows {head : String} (hhead : '\n' ∉ head.toList) (body : List String) :
    (blockRows head body).map ClassRow.text = textLines (classBlock head body) := by
  rw [blockRows, List.map_cons, map_text_plainRows, classBlock, textLines_cons_of_not_mem hhead]

/-- The rows of a group are the lines of its class. -/
theorem Group.Tidy.text_enumerationRows (h : g.Tidy) :
    (enumerationRows g).map ClassRow.text = textLines (enumerationClassLines g) := by
  have hhead : '\n' ∉ (enumerationHead g).toList := by simp [enumerationHead, lineFeed_not_mem_of_isWord h.name]
  rw [enumerationRows, List.map_append, map_text_plainRows, text_blockRows hhead, ← textLines_append]
  rfl

theorem Group.Tidy.text_structRows (h : g.Tidy) : (structRows g).map ClassRow.text = textLines (structClassLines g) := by
  have hhead : '\n' ∉ (structHead g).toList := by simp [structHead, lineFeed_not_mem_of_isWord h.name]
  rw [structRows, List.map_append, map_text_plainRows, text_blockRows hhead, ← textLines_append, List.append_assoc]
  rfl

end

section
variable {d : Definitions}

/-- The rows are the lines of the text that is written. -/
theorem Definitions.Tidy.text_classRows (h : d.Tidy) :
    (classRows d).map ClassRow.text = Emit.splitLines (linesText (classLines d)).toList := by
  have hgroups : ∀ {rows : Group → List ClassRow} {lines : Group → List String} {groups : List Group},
      (∀ g ∈ groups, (rows g).map ClassRow.text = textLines (lines g)) →
      (groups.flatMap rows).map ClassRow.text = textLines (groups.flatMap lines) := by
    intro rows lines groups hrows
    rw [List.map_flatMap, textLines_flatMap]
    exact List.flatMap_congr hrows
  have henumerations := hgroups fun g hg => (h.enumerations g hg).text_enumerationRows
  have hstructs := hgroups fun g hg => (h.structs g hg).text_structRows
  rw [splitLines_linesText, classRows, classLines]
  simp only [List.map_append, map_text_plainRows, henumerations, hstructs, textLines_append, List.append_assoc]

/-- Every class has a body exactly when every group has members. -/
theorem Definitions.Tidy.bodied_iff (h : d.Tidy) :
    Bodied (classRows d) ↔ ∀ g ∈ d.enumerations ++ d.structs, g.members ≠ [] := by
  have hend : Bodied (plainRows [[]]) := bodied_cons.mpr ⟨fun hopens => (by cases hopens), bodied_nil⟩
  have hflush : Flush ((plainRows [[]]).map ClassRow.text) := flush_empty fun s hs => by cases hs
  obtain ⟨hflush, hstructs⟩ := bodied_groups_iff (fun g hg _ => (h.structs g hg).flush_struct)
    (fun g hg _ => (h.structs g hg).bodied_struct_iff) hflush
  obtain ⟨-, henumerations⟩ := bodied_groups_iff (fun g hg _ => (h.enumerations g hg).flush_enumeration)
    (fun g hg _ => (h.enumerations g hg).bodied_enumeration_iff) hflush
  rw [classRows, bodied_plainRows_append, henumerations, hstructs, List.forall_mem_append]
  exact and_congr_right' (and_iff_left hend)

end

end CodeBridge.Header
