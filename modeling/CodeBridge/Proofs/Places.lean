import CodeBridge.Folder
import CodeBridge.Proofs.Writing

/-! # Places in a folder

Where a path leads hangs on the directories and links of a folder alone, and writing a file changes neither
(`locate_put`). So a path leads to the same place before and after, and only the file that is written changes. Where
there are no links a path leads to a place that has its last name (`exists_name_of_linkless`). -/

namespace CodeBridge.Folder

variable {f g : Folder} {place : Path} {path text : String}

/-! ### What lies at a place -/

theorem find?_putNode (nodes : List (Path × Node)) (place : Path) (node : Node) (q : Path) :
    find? (putNode nodes place node) q = if q = place then some node else find? nodes q := by
  induction nodes with
  | nil => simp only [putNode, find?, beq_iff_eq, eq_comm (a := place)]
  | cons entry nodes ih =>
    obtain ⟨key, old⟩ := entry
    simp only [putNode, beq_iff_eq]
    by_cases hkey : key = place
    · subst hkey
      by_cases hq : q = key
      · simp [find?, hq]
      · simp [find?, hq, Ne.symm hq]
    · by_cases hq : key = q
      · subst hq
        simp [find?, hkey]
      · simp [find?, hkey, hq, ih]

theorem any_putNode (p : Path → Bool) (nodes : List (Path × Node)) (place : Path) (node : Node) :
    (putNode nodes place node).any (fun (key, _) => p key) = (nodes.any (fun (key, _) => p key) || p place) := by
  induction nodes with
  | nil => simp [putNode]
  | cons entry nodes ih =>
    obtain ⟨key, old⟩ := entry
    simp only [putNode, beq_iff_eq]
    by_cases hkey : key = place
    · subst hkey
      simp only [↓reduceIte, List.any_cons]
      cases p key <;> simp
    · simp [hkey, ih, Bool.or_assoc]

theorem holds_iff {q : Path} : f.holds q = true ↔ ∃ entry ∈ f.nodes, q <+: entry.1 ∧ q.length < entry.1.length := by
  simp [holds]

theorem mem_of_find?_eq_some {nodes : List (Path × Node)} {node : Node} (h : find? nodes place = some node) :
    (place, node) ∈ nodes := by
  induction nodes with
  | nil => cases h
  | cons entry nodes ih =>
    obtain ⟨key, old⟩ := entry
    rw [find?] at h
    split at h
    · next hkey =>
      cases h
      rw [beq_iff_eq.mp hkey]
      exact List.mem_cons_self
    · exact List.mem_cons_of_mem _ (ih h)

theorem isDirectory_iff : f.isDirectory place = true ↔ f.look place = some .directory := by
  rw [isDirectory, beq_iff_eq]

theorem isDirectory_root : f.isDirectory [] = true := rfl

theorem isDirectory_of_holds (h : f.holds place = true) : f.isDirectory place = true := by
  rw [isDirectory_iff, look, h, Bool.or_true, if_pos rfl]

/-- What something lies in is a directory. -/
theorem holds_of_look {q : Path} (hq : f.look q ≠ none) (h : place <+: q) (hlt : place.length < q.length) :
    f.holds place = true := by
  rw [look] at hq
  split at hq
  · next hdir =>
    rcases (Bool.or_eq_true _ _).mp hdir with hempty | hholds
    · rw [List.isEmpty_iff.mp hempty] at hlt
      exact absurd hlt (Nat.not_lt_zero _)
    · obtain ⟨entry, hentry, hstart, hlength⟩ := holds_iff.mp hholds
      exact holds_iff.mpr ⟨entry, hentry, h.trans hstart, hlt.trans hlength⟩
  · obtain ⟨node, hnode⟩ := Option.ne_none_iff_exists'.mp hq
    exact holds_iff.mpr ⟨_, mem_of_find?_eq_some hnode, h, hlt⟩

theorem isDirectory_dropLast (h : f.isDirectory place = true) : f.isDirectory place.dropLast = true := by
  rcases List.eq_nil_or_concat place with rfl | ⟨dir, last, rfl⟩
  · exact h
  · rw [List.concat_eq_append, List.dropLast_concat] at *
    refine isDirectory_of_holds (holds_of_look ?_ (List.prefix_append dir [last]) (by simp))
    rw [isDirectory_iff.mp h]
    exact Option.some_ne_none _

/-! ### Directories and links -/

/-- What lies at a place as far as paths lead through it: a directory or a link. -/
def passage (f : Folder) (place : Path) : Option Node :=
  match f.look place with
  | some .directory => some .directory
  | some (.link target) => some (.link target)
  | _ => none

theorem passage_eq_none_iff :
    f.passage place = none ↔ f.isDirectory place = false ∧ ∀ target, f.look place ≠ some (.link target) := by
  rw [passage, isDirectory]
  rcases f.look place with _ | _ | _ | _ | _ <;> simp

/-- A place where a file can be written: in a directory, and neither a directory itself nor a link. -/
structure Vacant (f : Folder) (place : Path) : Prop where
  parent : ∃ dir last, place = dir ++ [last] ∧ f.isDirectory dir = true
  passage : f.passage place = none

/-- A file that is written at a vacant place is all that changes. -/
theorem Vacant.look_put (h : f.Vacant place) (text : String) (q : Path) :
    (f.put place text).look q = if q = place then some (.file text) else f.look q := by
  obtain ⟨dir, last, rfl, hdir⟩ := h.parent
  have hfree : f.isDirectory (dir ++ [last]) = false := (passage_eq_none_iff.mp h.passage).1
  have hholds : (f.put (dir ++ [last]) text).holds q =
      (f.holds q || (q.isPrefixOf (dir ++ [last]) && decide (q.length < (dir ++ [last]).length))) :=
    any_putNode (fun key => q.isPrefixOf key && decide (q.length < key.length)) f.nodes (dir ++ [last]) (.file text)
  by_cases hq : q = dir ++ [last]
  · have hnothing : f.holds q = false := by
      by_contra hsome
      rw [hq] at hsome
      rw [isDirectory_of_holds (by simpa using hsome)] at hfree
      cases hfree
    rw [if_pos hq, look, hholds, hnothing, hq]
    simp [put, find?_putNode]
  · rw [if_neg hq]
    -- What the new file could make a directory of lies on the way to it, where all are directories already.
    by_cases hway : q.isPrefixOf (dir ++ [last]) && decide (q.length < (dir ++ [last]).length)
    · have hdirectory : f.isDirectory q = true := by
        obtain ⟨hstart, hlt⟩ := (Bool.and_eq_true _ _).mp hway
        rcases List.prefix_concat_iff.mp (List.isPrefixOf_iff_prefix.mp hstart) with rfl | hstart
        · exact absurd rfl hq
        · by_cases hlength : q.length = dir.length
          · rwa [hstart.eq_of_length hlength]
          · refine isDirectory_of_holds (holds_of_look ?_ hstart (lt_of_le_of_ne hstart.length_le hlength))
            rw [isDirectory_iff.mp hdir]
            exact Option.some_ne_none _
      rw [isDirectory_iff.mp hdirectory, look, hholds, hway, Bool.or_true, Bool.or_true, if_pos rfl]
    · rw [look, hholds, Bool.eq_false_iff.mpr hway, Bool.or_false, put, find?_putNode, if_neg hq, look]

theorem Vacant.passage_put (h : f.Vacant place) (text : String) (q : Path) : (f.put place text).passage q = f.passage q := by
  by_cases hq : q = place
  · rw [hq, h.passage, Folder.passage, h.look_put, if_pos rfl]
  · rw [Folder.passage, h.look_put, if_neg hq, Folder.passage]

theorem isDirectory_iff_passage {q : Path} : f.isDirectory q = true ↔ f.passage q = some .directory := by
  rw [isDirectory_iff, passage]
  rcases f.look q with _ | _ | _ | _ | _ <;> simp

theorem Vacant.isDirectory_put (h : f.Vacant place) (text : String) (q : Path) :
    (f.put place text).isDirectory q = f.isDirectory q := by
  rw [Bool.eq_iff_iff, isDirectory_iff_passage, isDirectory_iff_passage, h.passage_put]

/-! ### Where a path leads -/

/-- A part of a path that is no name. -/
def Dots (part : String) : Prop :=
  part = "" ∨ part = "." ∨ part = ".."

section
variable {follow follow' : Path → List String → Except Fault Path} {dir r : Path} {part : String} {rest ps : List String}

theorem walk_dots (h : Dots part) : f.walk path follow dir (part :: rest) = f.walk path follow (step dir part) rest := by
  rw [walk, if_pos]
  rcases h with rfl | rfl | rfl <;> rfl

/-- A name leads into a directory or to what a link is for, and it can lead to a file if it is the last. -/
theorem walk_name_eq_ok_iff (h : ¬Dots part) : f.walk path follow dir (part :: rest) = .ok r ↔
    (f.passage (dir ++ [part]) = some .directory ∧ f.walk path follow (dir ++ [part]) rest = .ok r) ∨
      (∃ target, f.passage (dir ++ [part]) = some (.link target) ∧
        follow (start target dir) (parts target ++ rest) = .ok r) ∨
      (f.passage (dir ++ [part]) = none ∧ rest = [] ∧ r = dir ++ [part]) := by
  have hpart : ¬(part == "" || part == "." || part == "..") = true := by simpa [Dots, or_assoc] using h
  rw [walk, if_neg hpart, passage]
  rcases f.look (dir ++ [part]) with _ | _ | _ | _ | target <;> cases rest <;> simp [eq_comm]

/-- Files do not count for where a path leads. -/
theorem walk_congr (hpassage : ∀ q, g.passage q = f.passage q)
    (hfollow : ∀ dir ps r, follow' dir ps = .ok r ↔ follow dir ps = .ok r) :
    g.walk path follow' dir ps = .ok r ↔ f.walk path follow dir ps = .ok r := by
  induction ps generalizing dir with
  | nil => rfl
  | cons part rest ih =>
    by_cases hpart : Dots part
    · rw [walk_dots hpart, walk_dots hpart, ih]
    · rw [walk_name_eq_ok_iff hpart, walk_name_eq_ok_iff hpart, hpassage, ih]
      simp only [hfollow]

theorem resolve_congr (hpassage : ∀ q, g.passage q = f.passage q) (links : Nat) :
    g.resolve path links dir ps = .ok r ↔ f.resolve path links dir ps = .ok r := by
  induction links generalizing dir ps r with
  | zero => exact walk_congr hpassage fun _ _ _ => Iff.rfl
  | succ links ih => exact walk_congr hpassage fun _ _ _ => ih

theorem locate_congr (hhere : g.here = f.here) (hpassage : ∀ q, g.passage q = f.passage q) :
    g.locate path = .ok r ↔ f.locate path = .ok r := by
  have hdirectory : ∀ q, g.isDirectory q = f.isDirectory q := by
    intro q
    rw [Bool.eq_iff_iff, isDirectory_iff_passage, isDirectory_iff_passage, hpassage]
  simp only [locate, reach, hhere, hdirectory]
  split
  · simp
  · exact resolve_congr hpassage _

/-- A path leads to a directory, or to a place where a file can be. -/
def Lands (f : Folder) (place : Path) : Prop :=
  f.isDirectory place = true ∨ f.Vacant place

theorem isDirectory_start (hdir : f.isDirectory dir = true) (path : String) : f.isDirectory (start path dir) = true := by
  rw [start]
  split
  · exact isDirectory_root
  · exact hdir

theorem isDirectory_step (hdir : f.isDirectory dir = true) (hpart : Dots part) : f.isDirectory (step dir part) = true := by
  rcases hpart with rfl | rfl | rfl
  · exact hdir
  · exact hdir
  · exact isDirectory_dropLast hdir

theorem walk_lands (hfollow : ∀ dir ps r, f.isDirectory dir = true → follow dir ps = .ok r → f.Lands r)
    (hdir : f.isDirectory dir = true) (h : f.walk path follow dir ps = .ok r) : f.Lands r := by
  induction ps generalizing dir with
  | nil =>
    cases h
    exact .inl hdir
  | cons part rest ih =>
    by_cases hpart : Dots part
    · rw [walk_dots hpart] at h
      exact ih (isDirectory_step hdir hpart) h
    · rcases (walk_name_eq_ok_iff hpart).mp h with ⟨hnext, h⟩ | ⟨target, -, h⟩ | ⟨hnone, -, rfl⟩
      · exact ih (isDirectory_iff_passage.mpr hnext) h
      · exact hfollow _ _ _ (isDirectory_start hdir target) h
      · exact .inr ⟨⟨dir, part, rfl, hdir⟩, hnone⟩

theorem resolve_lands {links : Nat} (hdir : f.isDirectory dir = true) (h : f.resolve path links dir ps = .ok r) :
    f.Lands r := by
  induction links generalizing dir ps r with
  | zero => exact walk_lands (fun _ _ _ _ h => by cases h) hdir h
  | succ links ih => exact walk_lands (fun _ _ _ hdir h => ih hdir h) hdir h

theorem locate_lands (h : f.locate path = .ok place) : f.Lands place := by
  rw [locate, reach] at h
  split at h
  · cases h
  · next hstart =>
    rw [Bool.or_eq_true, not_or] at hstart
    exact resolve_lands (by simpa using hstart.2) h

end

/-- A path leads to a vacant place if no directory is there. -/
theorem vacant_of_locate (h : f.locate path = .ok place) (hfree : f.isDirectory place = false) : f.Vacant place := by
  rcases locate_lands h with hdir | hvacant
  · rw [hfree] at hdir
    cases hdir
  · exact hvacant

/-- Paths lead to the same places after a file has been written. -/
theorem Vacant.locate_put (h : f.Vacant place) (text : String) {q : Path} :
    (f.put place text).locate path = .ok q ↔ f.locate path = .ok q :=
  locate_congr rfl (h.passage_put text)

/-! ### Reading and writing -/

theorem read_eq_ok_iff :
    f.read path = .ok text ↔ ∃ place, f.locate path = .ok place ∧ f.look place = some (.file text) := by
  constructor
  · intro h
    obtain ⟨place, hplace, h⟩ := exists_of_bind_eq_ok h
    refine ⟨place, hplace, ?_⟩
    split at h
    · next found hfound =>
      cases h
      exact hfound
    all_goals cases h
  · rintro ⟨place, hplace, hfile⟩
    simp only [Folder.read, hplace, bind, Except.bind, hfile]
    rfl

theorem write_eq_ok_iff : f.write path text = .ok g ↔
    (parts path).getLast? ≠ some "" ∧ ∃ place, f.locate path = .ok place ∧ f.isDirectory place = false ∧
      g = f.put place text := by
  rw [Folder.write]
  by_cases hslash : (parts path).getLast? = some ""
  · simp only [hslash, BEq.rfl, if_true, ne_eq, not_true, false_and, iff_false]
    intro h
    obtain ⟨_, -, h⟩ := exists_of_bind_eq_ok h
    cases h
  · have hfalse : ((parts path).getLast? == some "") = false := by simpa using hslash
    simp only [hfalse, Bool.false_eq_true, if_false, ne_eq, hslash, not_false_eq_true, true_and]
    constructor
    · intro h
      obtain ⟨place, hplace, h⟩ := exists_of_bind_eq_ok h
      refine ⟨place, hplace, ?_⟩
      cases hdir : f.isDirectory place with
      | true =>
        rw [hdir] at h
        cases h
      | false =>
        rw [hdir] at h
        cases h
        exact ⟨rfl, rfl⟩
    · rintro ⟨place, hplace, hdir, rfl⟩
      simp only [hplace, bind, Except.bind, hdir]
      rfl

/-! ### Names -/

theorem splitPath_of_not_mem {tail : List Char} (h : '/' ∉ tail) : splitPath tail = [tail] := by
  induction tail with
  | nil => rfl
  | cons c tail ih =>
    rw [List.mem_cons, not_or] at h
    simp [splitPath, Ne.symm h.1, ih h.2]

/-- The last part of a path takes up what is added without a slash. -/
theorem exists_splitPath (root : List Char) {tail : List Char} (htail : '/' ∉ tail) :
    ∃ dirs last, splitPath (root ++ tail) = dirs ++ [last ++ tail] := by
  induction root with
  | nil => exact ⟨[], [], splitPath_of_not_mem htail⟩
  | cons c root ih =>
    obtain ⟨dirs, last, h⟩ := ih
    by_cases hc : c = '/'
    · exact ⟨[] :: dirs, last, by simp [splitPath, hc, h]⟩
    · cases dirs with
      | nil => exact ⟨[], c :: last, by simp [splitPath, hc, h]⟩
      | cons first dirs => exact ⟨(c :: first) :: dirs, last, by simp [splitPath, hc, h]⟩

/-- What can stand behind a path to name a file: it has no slash, and the name is no way to a directory. -/
structure Tail (tail : String) : Prop where
  slashFree : '/' ∉ tail.toList
  worded : '_' ∈ tail.toList

instance : DecidablePred Tail := fun tail =>
  decidable_of_iff ('/' ∉ tail.toList ∧ '_' ∈ tail.toList) ⟨fun h => ⟨h.1, h.2⟩, fun h => ⟨h.slashFree, h.worded⟩⟩

/-- Neither of two texts is an end of the other. -/
def Unlike (a b : String) : Prop :=
  ¬a.toList <:+ b.toList ∧ ¬b.toList <:+ a.toList

instance (a b : String) : Decidable (Unlike a b) :=
  inferInstanceAs (Decidable (¬a.toList <:+ b.toList ∧ ¬b.toList <:+ a.toList))

theorem Tail.head?_append {tail : String} (h : Tail tail) (root : String) :
    (root ++ tail).toList.head? = some '/' ↔ root.toList.head? = some '/' := by
  rw [String.toList_append, List.head?_append]
  cases root.toList.head? with
  | some c => simp
  | none =>
    have hslash : tail.toList.head? ≠ some '/' := fun e => h.slashFree (List.mem_of_mem_head? e)
    simp [hslash]

theorem not_dots_of_worded {part : String} (h : '_' ∈ part.toList) : ¬Dots part := by
  rintro (rfl | rfl | rfl) <;> exact absurd h (by decide)

/-- The parts of a path end with a name that ends as the path does. -/
theorem Tail.exists_parts {tail : String} (h : Tail tail) (root : String) :
    ∃ dirs last, parts (root ++ tail) = dirs ++ [String.ofList (last ++ tail.toList)] ∧
      ¬Dots (String.ofList (last ++ tail.toList)) := by
  obtain ⟨dirs, last, hsplit⟩ := exists_splitPath root.toList h.slashFree
  exact ⟨dirs.map String.ofList, last, by simp [parts, hsplit], not_dots_of_worded (by simp [h.worded])⟩

theorem join_append {directory name tail : String} (htail : Tail tail) :
    join directory (name ++ tail) = join directory name ++ tail := by
  have hhead : ((name ++ tail).toList.head? == some '/') = (name.toList.head? == some '/') := by
    rw [Bool.eq_iff_iff, beq_iff_eq, beq_iff_eq]
    exact htail.head?_append name
  unfold join
  rw [hhead]
  split
  · rfl
  · split <;> simp [String.append_assoc]

/-! ### Folders without links -/

/-- There is no link anywhere. -/
def Linkless (f : Folder) : Prop :=
  ∀ place target, f.look place ≠ some (.link target)

namespace Linkless

theorem exists_last (h : f.Linkless) {follow : Path → List String → Except Fault Path} {dir r : Path} {ps : List String}
    {last : String} (hlast : ¬Dots last) (hwalk : f.walk path follow dir (ps ++ [last]) = .ok r) :
    ∃ dir', r = dir' ++ [last] := by
  have hlink : ∀ place target, f.passage place ≠ some (.link target) := by
    intro place target hpassage
    rw [Folder.passage] at hpassage
    split at hpassage
    · cases hpassage
    · next target' hlook => exact h place target' hlook
    · cases hpassage
  induction ps generalizing dir with
  | nil =>
    rcases (walk_name_eq_ok_iff hlast).mp hwalk with ⟨-, hwalk⟩ | ⟨target, hpassage, -⟩ | ⟨-, -, rfl⟩
    · cases hwalk
      exact ⟨dir, rfl⟩
    · exact absurd hpassage (hlink _ _)
    · exact ⟨dir, rfl⟩
  | cons part rest ih =>
    rw [List.cons_append] at hwalk
    by_cases hpart : Dots part
    · rw [walk_dots hpart] at hwalk
      exact ih hwalk
    · rcases (walk_name_eq_ok_iff hpart).mp hwalk with ⟨-, hwalk⟩ | ⟨target, hpassage, -⟩ | ⟨-, hnil, -⟩
      · exact ih hwalk
      · exact absurd hpassage (hlink _ _)
      · exact absurd hnil (by simp)

/-- A path leads to a place that ends as the path does. -/
theorem exists_name (h : f.Linkless) {root tail : String} (htail : Tail tail) (hplace : f.locate (root ++ tail) = .ok place) :
    ∃ dir last, place = dir ++ [String.ofList (last ++ tail.toList)] := by
  obtain ⟨dirs, last, hparts, hlast⟩ := htail.exists_parts root
  rw [locate, reach, hparts] at hplace
  split at hplace
  · cases hplace
  · obtain ⟨dir, rfl⟩ := h.exists_last hlast hplace
    exact ⟨dir, last, rfl⟩

/-- Paths that end in different ways lead to different places. -/
theorem locate_ne (h : f.Linkless) {root root' tail tail' : String} (htail : Tail tail) (htail' : Tail tail')
    (hunlike : Unlike tail tail') (hplace : f.locate (root ++ tail) = .ok place) : f.locate (root' ++ tail') ≠ .ok place := by
  intro hplace'
  obtain ⟨dir, last, hname⟩ := h.exists_name htail hplace
  obtain ⟨dir', last', hname'⟩ := h.exists_name htail' hplace'
  have hlast := (List.append_inj' (hname.symm.trans hname') rfl).2
  simp only [List.cons.injEq, and_true] at hlast
  have hchars : last ++ tail.toList = last' ++ tail'.toList := by
    rw [← String.toList_ofList (l := last ++ tail.toList), hlast, String.toList_ofList]
  rcases List.append_eq_append_iff.mp hchars with ⟨between, -, e⟩ | ⟨between, -, e⟩
  · exact hunlike.2 ⟨between, e.symm⟩
  · exact hunlike.1 ⟨between, e.symm⟩

end Linkless

end CodeBridge.Folder
