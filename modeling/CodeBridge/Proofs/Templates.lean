import CodeBridge.Template
import CodeBridge.Proofs.Places

/-! # Files from templates

A file is its template with the markers replaced. The files of a module are written one after the other, each of them
after its text has been generated and its template has been read. If links do not bring them together the files and
their templates lie at places of their own, so that what has been written before changes nothing for the files that
follow. -/

namespace CodeBridge.Template

open Folder

/-! ### Markers -/

/-- What stands in a template for the code. -/
def marker : List Char :=
  ['@', '_', 'c', 'o', 'd', 'e', ';']

/-- A template is a first piece and further pieces behind markers, and the pieces have no marker in them. With `code`
in place of the markers it is `result`. -/
def Replaced (code template result : List Char) : Prop :=
  ∃ first others, template = first ++ others.flatMap (marker ++ ·) ∧ (∀ piece ∈ first :: others, ¬marker <:+: piece) ∧
    result = first ++ others.flatMap (code ++ ·)

theorem replaceMarkers_marker (code rest : List Char) :
    replaceMarkers code (marker ++ rest) = code ++ replaceMarkers code rest :=
  rfl

theorem replaceMarkers_cons {code rest : List Char} {c : Char} (h : ¬marker <+: c :: rest) :
    replaceMarkers code (c :: rest) = c :: replaceMarkers code rest := by
  rw [replaceMarkers]
  rintro rest' rfl rfl
  exact h ⟨rest', rfl⟩

theorem replaced_replaceMarkers (code template : List Char) : Replaced code template (replaceMarkers code template) := by
  fun_induction replaceMarkers code template with
  | case1 rest ih =>
    obtain ⟨first, others, hrest, hpieces, hresult⟩ := ih
    refine ⟨[], first :: others, ?_, ?_, ?_⟩
    · rw [hrest]
      rfl
    · exact List.forall_mem_cons.mpr ⟨by decide, hpieces⟩
    · simp [hresult]
  | case2 c rest hmarker ih =>
    obtain ⟨first, others, hrest, hpieces, hresult⟩ := ih
    obtain ⟨hfirst, hothers⟩ := List.forall_mem_cons.mp hpieces
    refine ⟨c :: first, others, by simp [hrest], List.forall_mem_cons.mpr ⟨fun hinfix => ?_, hothers⟩, by simp [hresult]⟩
    rcases List.infix_cons_iff.mp hinfix with ⟨behind, hbehind⟩ | hinfix
    · obtain ⟨rfl, rfl⟩ := List.cons.inj hbehind
      exact hmarker (behind ++ others.flatMap (marker ++ ·)) rfl hrest
    · exact hfirst hinfix
  | case3 => exact ⟨[], [], rfl, by simpa using (by decide : ¬marker <:+: []), rfl⟩

/-- No marker starts in a piece and ends behind it: a marker has its first character only once. -/
theorem not_isPrefix_append {piece rest : List Char} (hpiece : piece ≠ []) (h : ¬marker <:+: piece)
    (hrest : rest = [] ∨ marker <+: rest) : ¬marker <+: piece ++ rest := by
  rintro ⟨behind, hbehind⟩
  rcases List.append_eq_append_iff.mp hbehind with ⟨between, hpiece', -⟩ | ⟨between, hmarker, hrest'⟩
  · exact h ⟨[], between, by simp [hpiece']⟩
  · cases between with
    | nil => exact h ⟨[], [], by simpa using hmarker⟩
    | cons c between =>
      rcases hrest with rfl | ⟨others, rfl⟩
      · simp at hrest'
      · obtain ⟨rfl, -⟩ := List.cons.inj hrest'
        -- The character stands in the tail of the marker, since the piece is not empty.
        obtain ⟨d, piece, rfl⟩ := List.exists_cons_of_ne_nil hpiece
        have htail : '@' ∈ marker.tail := by
          rw [hmarker]
          simp
        exact absurd htail (by decide)

theorem replaceMarkers_append {code piece rest : List Char} (h : ¬marker <:+: piece) (hrest : rest = [] ∨ marker <+: rest) :
    replaceMarkers code (piece ++ rest) = piece ++ replaceMarkers code rest := by
  induction piece with
  | nil => rfl
  | cons c piece ih =>
    have hpiece : ¬marker <:+: piece := fun hinfix => h (List.infix_cons hinfix)
    have hnot : ¬marker <+: c :: (piece ++ rest) := not_isPrefix_append (List.cons_ne_nil c piece) h hrest
    rw [List.cons_append, replaceMarkers_cons hnot, ih hpiece]
    rfl

theorem replaced_iff {code template result : List Char} :
    Replaced code template result ↔ result = replaceMarkers code template := by
  constructor
  · rintro ⟨first, others, rfl, hpieces, rfl⟩
    induction others generalizing first with
    | nil =>
      have hfirst := hpieces first List.mem_cons_self
      rw [List.flatMap_nil, List.flatMap_nil, replaceMarkers_append hfirst (.inl rfl)]
      rfl
    | cons piece others ih =>
      obtain ⟨hfirst, hothers⟩ := List.forall_mem_cons.mp hpieces
      simp only [List.flatMap_cons, List.append_assoc]
      rw [replaceMarkers_append hfirst (.inr (List.prefix_append ..)), replaceMarkers_marker, ← ih piece hothers]
  · rintro rfl
    exact replaced_replaceMarkers code template

theorem replaced_fill (template code : String) :
    Replaced (Text.trim code.toList) (Text.unifyLineEnds template.toList) (fill template code).toList := by
  rw [replaced_iff, fill, String.toList_ofList]

/-! ### Files to be written -/

/-- A file to be written from its template, by the parts of its name, and the text that is generated for it. -/
structure Target where
  base : String
  mark : String
  ending : String
  code : Except Fault String

namespace Target

/-- The name of the file. -/
def name (t : Target) : String :=
  t.base ++ t.mark ++ "." ++ t.ending

def file (t : Target) (directory : String) : String :=
  join directory t.name

/-- The template lies beside the file. -/
def template (t : Target) (directory : String) : String :=
  join directory (t.name ++ ".template")

def write (directory : String) (t : Target) : Working Unit := do
  Template.write (t.base ++ t.mark) t.ending (← Working.check t.code) directory

end Target

def writeAll (directory : String) : List Target → Working Unit
  | [] => pure ()
  | t :: rest => do
    t.write directory
    writeAll directory rest

/-- The files of a module, in the order in which they are written. -/
def targets (m : Module) (package : String) (style : Style) : List Target :=
  [⟨"python_" ++ m.name, "_protocol", "py", Emit.classesText m⟩,
    ⟨m.name, "_protocol", "h", Emit.headerText style m⟩,
    ⟨m.name, "_conversion", "h", Prod.fst <$> Emit.conversionTexts package m⟩,
    ⟨m.name, "_conversion", "c", Prod.snd <$> Emit.conversionTexts package m⟩,
    ⟨m.name, "_to_string", "h", Prod.fst <$> Emit.printerTexts .bsd m⟩,
    ⟨m.name, "_to_string", "c", Prod.snd <$> Emit.printerTexts .bsd m⟩]

/-- What generates two texts at once fails before either of them is written. -/
theorem writeModule_eq (m : Module) (directory package : String) (style : Style) :
    writeModule m directory package style = writeAll directory (targets m package style) := by
  unfold writeModule targets
  simp only [writeAll, Target.write, bind_assoc, bind_pure_unit]
  cases Emit.classesText m with
  | error fault => rfl
  | ok classes =>
    cases Emit.headerText style m with
    | error fault => rfl
    | ok header =>
      cases Emit.conversionTexts package m with
      | error fault => rfl
      | ok conversion =>
        cases Emit.printerTexts .bsd m with
        | error fault => rfl
        | ok printers => rfl

/-! ### Places of the files -/

/-- The files lie at places of their own, away from all templates. -/
structure Separate (f : Folder) (directory : String) (ts : List Target) : Prop where
  files : ts.Pairwise fun t u => ∀ place, f.locate (t.file directory) = .ok place → f.locate (u.file directory) ≠ .ok place
  templates : ∀ t ∈ ts, ∀ u ∈ ts, ∀ place, f.locate (t.file directory) = .ok place →
    f.locate (u.template directory) ≠ .ok place

/-- What the name of a file ends with. -/
def Target.tail (t : Target) : String :=
  t.mark ++ "." ++ t.ending

theorem Target.file_eq {t : Target} (h : Tail t.tail) (directory : String) :
    t.file directory = join directory t.base ++ t.tail := by
  rw [← join_append h, file, name, tail]
  simp [String.append_assoc]

theorem Target.template_eq {t : Target} (h : Tail (t.tail ++ ".template")) (directory : String) :
    t.template directory = join directory t.base ++ (t.tail ++ ".template") := by
  rw [← join_append h, template, name, tail]
  simp [String.append_assoc]

theorem separate_of_tails {ts : List Target} {tails : List String} (hts : ts.map Target.tail = tails)
    (htails : ∀ tail ∈ tails, Tail tail ∧ Tail (tail ++ ".template")) (hfiles : tails.Pairwise Unlike)
    (htemplates : ∀ tail ∈ tails, ∀ other ∈ tails, Unlike tail (other ++ ".template")) {f : Folder} (hf : f.Linkless)
    (directory : String) : Separate f directory ts := by
  subst hts
  have htail : ∀ t ∈ ts, Tail t.tail := fun t ht => (htails _ (List.mem_map_of_mem ht)).1
  have htemplate : ∀ t ∈ ts, Tail (t.tail ++ ".template") := fun t ht => (htails _ (List.mem_map_of_mem ht)).2
  constructor
  case files =>
    refine (List.pairwise_map.mp hfiles).imp_of_mem fun {t u} ht hu htu place => ?_
    rw [Target.file_eq (htail t ht), Target.file_eq (htail u hu)]
    exact hf.locate_ne (htail t ht) (htail u hu) htu
  case templates =>
    intro t ht u hu place
    rw [Target.file_eq (htail t ht), Target.template_eq (htemplate u hu)]
    exact hf.locate_ne (htail t ht) (htemplate u hu) (htemplates _ (List.mem_map_of_mem ht) _ (List.mem_map_of_mem hu))

/-- Without links, the files of a module and their templates have names that keep them apart. -/
theorem separate_of_linkless {f : Folder} (hf : f.Linkless) (m : Module) (directory package : String) (style : Style) :
    Separate f directory (targets m package style) := by
  have hts : (targets m package style).map Target.tail =
      ["_protocol.py", "_protocol.h", "_conversion.h", "_conversion.c", "_to_string.h", "_to_string.c"] := rfl
  exact separate_of_tails hts (by decide) (by decide) (by decide) hf directory

/-! ### Writing a file -/

/-- The desk that is left behind, whether the work has succeeded or not. -/
def left {α : Type} (x : Working α) (d : Desk) : Desk :=
  match x d with
  | .ok _ d' => d'
  | .error _ d' => d'

/-- The text of a file is generated, and its template can be read. -/
def Target.Prepared (t : Target) (directory : String) (f : Folder) : Prop :=
  (∃ code, t.code = .ok code) ∧ ∃ template, f.read (t.template directory) = .ok template

/-- Where there is a way to the template, the file can be opened and written. -/
def Target.Openable (t : Target) (directory : String) (f : Folder) : Prop :=
  ∀ place, f.locate (t.template directory) = .ok place → ∀ text, ∃ f', f.write (t.file directory) text = .ok f'

section
variable {directory : String} {t : Target} {ts : List Target} {d : Desk} {f f' : Folder} {place : Path}

/-- A file that can be written lies at a place where only its text counts. -/
theorem Target.Openable.exists_place (h : t.Openable directory f) (htemplate : f.locate (t.template directory) = .ok place) :
    ∃ place', f.locate (t.file directory) = .ok place' ∧ f.Vacant place' ∧
      ∀ text, f.write (t.file directory) text = .ok (f.put place' text) := by
  obtain ⟨_, hwrite⟩ := h place htemplate ""
  obtain ⟨hslash, place', hplace, hfree, -⟩ := write_eq_ok_iff.mp hwrite
  exact ⟨place', hplace, vacant_of_locate hplace hfree, fun text => write_eq_ok_iff.mpr ⟨hslash, place', hplace, hfree, rfl⟩⟩

theorem Target.openable_of_locate (hslash : (parts (t.file directory)).getLast? ≠ some "")
    (hplace : f.locate (t.file directory) = .ok place) (hfree : f.isDirectory place = false) : t.Openable directory f :=
  fun _ _ _ => ⟨_, write_eq_ok_iff.mpr ⟨hslash, place, hplace, hfree, rfl⟩⟩

/-- Files can be opened after another has been written as before. -/
theorem Target.Openable.put (h : t.Openable directory f) (hvacant : f.Vacant place) (text : String) :
    t.Openable directory (f.put place text) := by
  intro q hq
  obtain ⟨place', hplace, hvacant', hwrite⟩ := h.exists_place ((hvacant.locate_put text).mp hq)
  obtain ⟨hslash, -⟩ := write_eq_ok_iff.mp (hwrite "")
  refine fun other => ⟨_, write_eq_ok_iff.mpr ⟨hslash, place', (hvacant.locate_put text).mpr hplace, ?_, rfl⟩⟩
  rw [hvacant.isDirectory_put]
  exact (passage_eq_none_iff.mp hvacant'.passage).1

theorem write_of_not_prepared (h : ¬t.Prepared directory d.folder) : ∃ fault, t.write directory d = .error fault d := by
  unfold Target.write
  cases hcode : t.code with
  | error fault => exact ⟨fault, rfl⟩
  | ok code =>
    cases hread : d.folder.read (t.template directory) with
    | ok template => exact absurd ⟨⟨code, hcode⟩, template, hread⟩ h
    | error fault =>
      refine ⟨fault, ?_⟩
      have hworking : Working.read (t.template directory) d = .error fault d := by simp only [Working.read, hread]
      exact bind_error hworking _

theorem write_of_prepared {code template : String} (hcode : t.code = .ok code)
    (hread : d.folder.read (t.template directory) = .ok template)
    (hwrite : ∀ text, d.folder.write (t.file directory) text = .ok (d.folder.put place text)) :
    ∃ printed, t.write directory d = .ok () ⟨d.folder.put place (fill template code), printed⟩ := by
  have hworking : Working.read (t.template directory) d = .ok template d := by simp only [Working.read, hread]
  refine ⟨d.printed ++ ("Writing file " ++ t.file directory) ++ "\n", ?_⟩
  unfold Target.write
  rw [hcode]
  refine (bind_ok hworking _).trans ?_
  show Working.write (t.file directory) (fill template code) ⟨d.folder, _⟩ = _
  simp only [Working.write, hwrite]
  rfl

/-! ### Writing files in turn -/

/-- The files have been written one after the other, each as its template was then with all markers replaced. -/
inductive InTurn (directory : String) : List Target → Folder → Folder → Prop
  | nil (f : Folder) : InTurn directory [] f f
  | cons {t : Target} {ts : List Target} {f f' : Folder} {template code text : String} {place : Path}
      (hread : f.read (t.template directory) = .ok template) (hcode : t.code = .ok code)
      (hreplaced : Replaced (Text.trim code.toList) (Text.unifyLineEnds template.toList) text.toList)
      (hplace : f.locate (t.file directory) = .ok place) (hvacant : f.Vacant place)
      (hrest : InTurn directory ts (f.put place text) f') : InTurn directory (t :: ts) f f'

namespace InTurn

theorem locate_iff (h : InTurn directory ts f f') {path : String} : f'.locate path = .ok place ↔ f.locate path = .ok place := by
  induction h with
  | nil => rfl
  | cons hread hcode hreplaced hplace hvacant hrest ih => exact ih.trans (hvacant.locate_put _)

theorem exists_code (h : InTurn directory ts f f') : ∀ t ∈ ts, ∃ code, t.code = .ok code := by
  induction h with
  | nil => simp
  | cons hread hcode hreplaced hplace hvacant hrest ih => exact List.forall_mem_cons.mpr ⟨⟨_, hcode⟩, ih⟩

/-- Nothing changes but at the places of the files. -/
theorem look_eq (h : InTurn directory ts f f') (hothers : ∀ t ∈ ts, f.locate (t.file directory) ≠ .ok place) :
    f'.look place = f.look place := by
  induction h with
  | nil => rfl
  | @cons t ts f f' template code text place' hread hcode hreplaced hplace hvacant hrest ih =>
    obtain ⟨hfirst, hothers⟩ := List.forall_mem_cons.mp hothers
    have hne : place ≠ place' := by
      rintro rfl
      exact hfirst hplace
    rw [ih fun u hu hlocate => hothers u hu ((hvacant.locate_put _).mp hlocate), hvacant.look_put, if_neg hne]

/-- What could be read at first can be read in the end, if not as the same text. -/
theorem exists_read (h : InTurn directory ts f f') {path : String} (hread : ∃ text, f.read path = .ok text) :
    ∃ text, f'.read path = .ok text := by
  induction h with
  | nil => exact hread
  | @cons t ts f f' template code text place' hread' hcode hreplaced hplace hvacant hrest ih =>
    obtain ⟨old, hold⟩ := hread
    obtain ⟨q, hq, hlook⟩ := read_eq_ok_iff.mp hold
    refine ih ?_
    by_cases hsame : q = place'
    · exact ⟨text, read_eq_ok_iff.mpr ⟨q, (hvacant.locate_put text).mpr hq, by rw [hvacant.look_put, if_pos hsame]⟩⟩
    · exact ⟨old, read_eq_ok_iff.mpr ⟨q, (hvacant.locate_put text).mpr hq, by rw [hvacant.look_put, if_neg hsame, hlook]⟩⟩

end InTurn

/-- Files are written in turn up to the first that is not prepared. -/
theorem writeAll_inTurn (hopen : ∀ t ∈ ts, t.Openable directory d.folder) :
    ∃ k ≤ ts.length, InTurn directory (ts.take k) d.folder (left (writeAll directory ts) d).folder ∧
      ((∃ d', writeAll directory ts d = .ok () d') ↔ k = ts.length) ∧
      ∀ t, ts[k]? = some t → ¬t.Prepared directory (left (writeAll directory ts) d).folder := by
  induction ts generalizing d with
  | nil => exact ⟨0, by simp, .nil _, ⟨fun _ => rfl, fun _ => ⟨d, rfl⟩⟩, by simp⟩
  | cons t ts ih =>
    obtain ⟨hfirst, hopen⟩ := List.forall_mem_cons.mp hopen
    by_cases hprepared : t.Prepared directory d.folder
    · obtain ⟨⟨code, hcode⟩, template, hread⟩ := hprepared
      obtain ⟨q, hq, -⟩ := read_eq_ok_iff.mp hread
      obtain ⟨place, hplace, hvacant, hwrite⟩ := hfirst.exists_place hq
      obtain ⟨printed, hwritten⟩ := write_of_prepared hcode hread hwrite
      generalize hd₁ : Desk.mk (d.folder.put place (fill template code)) printed = d₁ at hwritten
      have hfolder : d₁.folder = d.folder.put place (fill template code) := by rw [← hd₁]
      have hrun : writeAll directory (t :: ts) d = writeAll directory ts d₁ := bind_ok hwritten _
      have hleft : left (writeAll directory (t :: ts)) d = left (writeAll directory ts) d₁ := by simp only [left, hrun]
      obtain ⟨k, hk, hturn, hok, hstop⟩ := ih (d := d₁) fun u hu => hfolder ▸ (hopen u hu).put hvacant _
      rw [hleft, hrun]
      rw [hfolder] at hturn
      exact ⟨k + 1, by simpa using hk, .cons hread hcode (replaced_fill _ _) hplace hvacant hturn, by simpa using hok,
        fun u hu => hstop u (by simpa using hu)⟩
    · obtain ⟨fault, hwrite⟩ := write_of_not_prepared hprepared
      have hrun : writeAll directory (t :: ts) d = .error fault d := bind_error hwrite _
      have hleft : left (writeAll directory (t :: ts)) d = d := by simp only [left, hrun]
      rw [hleft, hrun]
      refine ⟨0, by simp, .nil _, by simp, ?_⟩
      rintro u hu
      cases hu
      exact hprepared

/-! ### Files apart -/

/-- Exactly these files have been written in `f`: each of them holds its template with all markers replaced, and
nothing else has changed. -/
structure Written (directory : String) (ts : List Target) (f f' : Folder) : Prop where
  files : ∀ t ∈ ts, ∃ template code text, f.read (t.template directory) = .ok template ∧ t.code = .ok code ∧
    Replaced (Text.trim code.toList) (Text.unifyLineEnds template.toList) text.toList ∧
    f'.read (t.file directory) = .ok text
  others : ∀ place, (∀ t ∈ ts, f.locate (t.file directory) ≠ .ok place) → f'.look place = f.look place

theorem Separate.take (h : Separate f directory ts) (k : Nat) : Separate f directory (ts.take k) where
  files := h.files.take
  templates t ht u hu := h.templates t (List.mem_of_mem_take ht) u (List.mem_of_mem_take hu)

theorem Separate.tail (h : Separate f directory (t :: ts)) : Separate f directory ts where
  files := (List.pairwise_cons.mp h.files).2
  templates u hu v hv := h.templates u (List.mem_cons_of_mem _ hu) v (List.mem_cons_of_mem _ hv)

theorem Separate.put (h : Separate f directory ts) (hvacant : f.Vacant place) (text : String) :
    Separate (f.put place text) directory ts where
  files := h.files.imp fun htu q hq hq' => htu q ((hvacant.locate_put text).mp hq) ((hvacant.locate_put text).mp hq')
  templates t ht u hu q hq hq' := h.templates t ht u hu q ((hvacant.locate_put text).mp hq) ((hvacant.locate_put text).mp hq')

/-- A template reads the same after files have been written elsewhere. -/
theorem InTurn.read_iff (h : InTurn directory ts f f') {path text : String}
    (hothers : ∀ t ∈ ts, ∀ place, f.locate (t.file directory) = .ok place → f.locate path ≠ .ok place) :
    f'.read path = .ok text ↔ f.read path = .ok text := by
  rw [read_eq_ok_iff, read_eq_ok_iff]
  refine exists_congr fun q => ?_
  rw [h.locate_iff]
  refine and_congr_right fun hq => ?_
  rw [h.look_eq fun t ht hplace => hothers t ht q hplace hq]

/-- Files that lie apart are written as if each of them were the only one. -/
theorem InTurn.written (h : InTurn directory ts f f') (hseparate : Separate f directory ts) : Written directory ts f f' := by
  induction h with
  | nil => exact ⟨by simp, fun _ _ => rfl⟩
  | @cons t ts f f' template code text place hread hcode hreplaced hplace hvacant hrest ih =>
    have hwritten := ih (hseparate.tail.put hvacant text)
    have hfirst := (List.pairwise_cons.mp hseparate.files).1
    refine ⟨List.forall_mem_cons.mpr ⟨⟨template, code, text, hread, hcode, hreplaced, ?_⟩, ?_⟩, ?_⟩
    · -- None of the files that follow lies where this one does.
      rw [read_eq_ok_iff]
      refine ⟨place, hrest.locate_iff.mpr ((hvacant.locate_put text).mpr hplace), ?_⟩
      rw [hrest.look_eq fun u hu hu' => hfirst u hu place hplace ((hvacant.locate_put text).mp hu'), hvacant.look_put,
        if_pos rfl]
    · intro u hu
      obtain ⟨template', code', text', hread', hcode', hreplaced', htext⟩ := hwritten.files u hu
      refine ⟨template', code', text', ?_, hcode', hreplaced', htext⟩
      have honly : InTurn directory [t] f (f.put place text) := .cons hread hcode hreplaced hplace hvacant (.nil _)
      refine (honly.read_iff fun v hv q hq => ?_).mp hread'
      obtain rfl := List.mem_singleton.mp hv
      exact hseparate.templates v List.mem_cons_self u (List.mem_cons_of_mem _ hu) q hq
    · exact fun q hq => (InTurn.cons hread hcode hreplaced hplace hvacant hrest).look_eq hq

end

/-! ### The files of a module -/

section
variable {m : Module} {directory package : String} {style : Style} {d : Desk}

/-- The files of a module are all written if the texts for all of them are generated. -/
theorem writeModule_eq_ok_iff (hopen : ∀ t ∈ targets m package style, t.Openable directory d.folder)
    (htemplates : ∀ t ∈ targets m package style, ∃ text, d.folder.read (t.template directory) = .ok text) :
    (∃ d', writeModule m directory package style d = .ok () d') ↔
      ∀ t ∈ targets m package style, ∃ code, t.code = .ok code := by
  rw [writeModule_eq]
  obtain ⟨k, hk, hturn, hok, hstop⟩ := writeAll_inTurn hopen
  rw [hok]
  constructor
  · rintro rfl
    rw [List.take_length] at hturn
    exact hturn.exists_code
  · intro hall
    by_contra hne
    have hlt : k < (targets m package style).length := by omega
    have hmem := List.getElem_mem hlt
    exact hstop _ (List.getElem?_eq_getElem hlt) ⟨hall _ hmem, hturn.exists_read (htemplates _ hmem)⟩

end

/-- A module with a struct. -/
def memo : Module :=
  ⟨"memo", [], [⟨"Memo", [⟨"size", .primitive .int32, none⟩], .bool false, .text "t"⟩], []⟩

/-- A desk where the templates of its conversions are missing. The directory is reached by a link. -/
def shelf : Desk where
  folder :=
    { nodes := [(["srv", "out", "python_memo_protocol.py.template"], .file "import @_code;"),
        (["srv", "out", "memo_protocol.h.template"], .file "@_code;\r\n@_code;"), (["srv", "out", "memo_protocol.h"], .file "old"),
        (["home", "links", "out"], .link "../../srv/out"), (["home", "notes"], .file "@_code;")],
      here := ["home"] }

theorem shelf_located : ∀ t ∈ targets memo "" .knr,
    shelf.folder.locate (t.file "/home/links/out") = .ok ["srv", "out", t.name] ∧
      shelf.folder.locate (t.template "/home/links/out") = .ok ["srv", "out", t.name ++ ".template"] := by
  have hnames : ∀ name ∈ (targets memo "" .knr).map Target.name,
      shelf.folder.locate (join "/home/links/out" name) = .ok ["srv", "out", name] ∧
        shelf.folder.locate (join "/home/links/out" (name ++ ".template")) = .ok ["srv", "out", name ++ ".template"] := by
    decide +kernel
  exact fun t ht => hnames _ (List.mem_map_of_mem ht)

theorem shelf_openable : ∀ t ∈ targets memo "" .knr, t.Openable "/home/links/out" shelf.folder := by
  have hfree : ∀ name ∈ (targets memo "" .knr).map Target.name,
      (parts (join "/home/links/out" name)).getLast? ≠ some "" ∧ shelf.folder.isDirectory ["srv", "out", name] = false := by
    decide +kernel
  intro t ht
  obtain ⟨hslash, hdirectory⟩ := hfree _ (List.mem_map_of_mem ht)
  exact Target.openable_of_locate hslash (shelf_located t ht).1 hdirectory

theorem shelf_separate : Separate shelf.folder "/home/links/out" (targets memo "" .knr) := by
  have hfiles : ((targets memo "" .knr).map Target.name).Pairwise (· ≠ ·) := by decide +kernel
  have htemplates : ∀ name ∈ (targets memo "" .knr).map Target.name, ∀ other ∈ (targets memo "" .knr).map Target.name,
      name ≠ other ++ ".template" := by decide +kernel
  constructor
  case files =>
    refine (List.pairwise_map.mp hfiles).imp_of_mem fun {t u} ht hu htu place hplace hplace' => htu ?_
    cases (shelf_located t ht).1.symm.trans hplace
    simpa using hplace'.symm.trans (shelf_located u hu).1
  case templates =>
    intro t ht u hu place hplace hplace'
    refine htemplates _ (List.mem_map_of_mem ht) _ (List.mem_map_of_mem hu) ?_
    cases (shelf_located t ht).1.symm.trans hplace
    simpa using hplace'.symm.trans (shelf_located u hu).2

end CodeBridge.Template
