import CodeBridge.Measure.Round
import CodeBridge.Proofs.Writing

/-! # Plateaus of counts

The loop over the counts of all rounds ends with the smallest count and how many counts came since it was first reached. A
round that covers enough says so, unless there is nothing left to improve, exactly if none of the last three counts was
smaller than all counts before it. -/

namespace CodeBridge.Measure

/-! ### The loop -/

namespace Plateau

/-- The best count was first reached behind some greater ones, and since then there were only counts that are not smaller. -/
def Describes (p : Plateau) (counts : List Int) : Prop :=
  ∃ before after, counts = before ++ p.best :: after ∧ (∀ n ∈ before, p.best < n) ∧ (∀ n ∈ after, p.best ≤ n) ∧
    after.length = p.since

theorem describes_start (count : Int) : (start count).Describes [count] :=
  ⟨[], [], rfl, by simp, by simp, rfl⟩

theorem Describes.le {p : Plateau} {counts : List Int} (h : p.Describes counts) : ∀ n ∈ counts, p.best ≤ n := by
  obtain ⟨before, after, rfl, hbefore, hafter, -⟩ := h
  intro n hn
  rcases List.mem_append.mp hn with hn | hn
  · exact Int.le_of_lt (hbefore n hn)
  · rcases List.mem_cons.mp hn with rfl | hn
    · exact Int.le_refl _
    · exact hafter n hn

theorem Describes.step {p : Plateau} {counts : List Int} (h : p.Describes counts) (count : Int) :
    (p.step count).Describes (counts ++ [count]) := by
  unfold Plateau.step
  split
  · next hless =>
    exact ⟨counts, [], rfl, fun n hn => Int.lt_of_lt_of_le hless (h.le n hn), by simp, rfl⟩
  · next hnot =>
    obtain ⟨before, after, rfl, hbefore, hafter, hlength⟩ := h
    refine ⟨before, after ++ [count], by simp, hbefore, ?_, by simp [hlength]⟩
    intro n hn
    rcases List.mem_append.mp hn with hn | hn
    · exact hafter n hn
    · rw [List.mem_singleton.mp hn]
      exact Int.not_lt.mp hnot

theorem Describes.foldl {p : Plateau} {counts : List Int} (h : p.Describes counts) (rest : List Int) :
    (rest.foldl Plateau.step p).Describes (counts ++ rest) := by
  induction rest generalizing p counts with
  | nil => simpa using h
  | cons count rest ih =>
    have hrest := ih (h.step count)
    rwa [List.append_assoc] at hrest

theorem describes_ofCounts (first : Int) (rest : List Int) : (ofCounts first rest).Describes (first :: rest) :=
  (describes_start first).foldl rest

theorem describes_ofHistory (history : List Int) (current : Int) :
    (ofHistory history current).Describes (history ++ [current]) := by
  cases history with
  | nil => exact describes_start current
  | cons first rest => exact describes_ofCounts first (rest ++ [current])

example : ofHistory [5, 3, 4, 3] 6 = ⟨3, 3⟩ := by decide

section
variable {p : Plateau} {counts : List Int} (h : p.Describes counts)
include h

theorem Describes.min? : counts.min? = some p.best := by
  have hle := h.le
  obtain ⟨before, after, rfl, -, -, -⟩ := h
  rw [List.min?_eq_some_iff]
  exact ⟨by simp, hle⟩

theorem Describes.since_eq : p.since = (counts.drop (counts.idxOf p.best + 1)).length := by
  obtain ⟨before, after, rfl, hbefore, -, hlength⟩ := h
  have hnot : p.best ∉ before := fun hmem => Int.lt_irrefl _ (hbefore _ hmem)
  rw [List.idxOf_append_of_notMem hnot, List.idxOf_cons_self, Nat.add_zero, ← hlength]
  simp

end

end Plateau

/-- None of the last `k` counts is smaller than all counts before it. -/
def Stale (k : Nat) (counts : List Int) : Prop :=
  ∀ before count after, counts = before ++ count :: after → after.length < k → ∃ n ∈ before, n ≤ count

/-- The best count is the last that was smaller than all before it. -/
theorem Plateau.Describes.stale_iff {p : Plateau} {counts : List Int} (h : p.Describes counts) (k : Nat) :
    Stale k counts ↔ k ≤ p.since := by
  obtain ⟨before, after, rfl, hbefore, hafter, hlength⟩ := h
  constructor
  · intro hstale
    by_contra hless
    obtain ⟨n, hn, hle⟩ := hstale before p.best after rfl (by omega)
    have hgreater := hbefore n hn
    omega
  · intro hle front count back hsplit hback
    rcases List.append_eq_append_iff.mp hsplit with ⟨middle, rfl, hrest⟩ | ⟨middle, rfl, hrest⟩
    · cases middle with
      | nil =>
        obtain ⟨-, rfl⟩ := List.cons.inj hrest
        omega
      | cons best middle =>
        obtain ⟨rfl, rfl⟩ := List.cons.inj hrest
        exact ⟨p.best, by simp, hafter count (by simp)⟩
    · have hlengths := congrArg List.length hrest
      simp only [List.length_cons, List.length_append] at hlengths
      omega

/-- Unless there is nothing left, the rounds stop for the plateau, and then with what the loop has found. -/
theorem Stopping.reason?_eq {history : List Int} {current : Int} (h : current ≠ 0) :
    reason? history current =
      if patience ≤ (Plateau.ofHistory history current).since then
        some (.noImprovement (Plateau.ofHistory history current).since (Plateau.ofHistory history current).best)
      else none := by
  rw [reason?, if_neg h]

/-! ### What a round says -/

section
open Surveying

variable {α β : Type} {st st' : Survey} {b : β}

theorem exists_of_check_bind {outcome : Except Fault α} {next : α → Surveying β}
    (h : (check outcome >>= next) st = .ok b st') : ∃ a, outcome = .ok a ∧ next a st = .ok b st' := by
  cases outcome with
  | error fault => cases h
  | ok a => exact ⟨a, rfl, h⟩

theorem of_folder_bind {next : Folder → Surveying β} (h : (folder >>= next) st = .ok b st') :
    next st.desk.folder st = .ok b st' :=
  h

theorem exists_of_read_bind {path : String} {next : String → Surveying β}
    (h : (working (Working.read path) >>= next) st = .ok b st') :
    ∃ text, st.desk.folder.read path = .ok text ∧ next text st = .ok b st' := by
  obtain ⟨text, t, hread, h⟩ := exists_of_bind_run_eq_ok h
  unfold working Working.read at hread
  cases htext : st.desk.folder.read path with
  | error fault =>
    simp only [htext] at hread
    cases hread
  | ok text =>
    simp only [htext] at hread
    cases hread
    exact ⟨_, rfl, h⟩

/-- What a measurement that may be missing finds. -/
def found (script : String) (s : Surroundings) (f : Folder) (nothing : α) (read : Json → Except Fault α) : α :=
  if f.contains script then
    match s.process script with
    | .failed _ => nothing
    | .exited _ output _ => (document output >>= read).toOption.getD nothing
  else nothing

/-- A measurement leaves all but the complaints as it is. -/
theorem of_measurement {script name : String} {s : Surroundings} {nothing a : α} {read : Json → Except Fault α}
    (h : measurement script name s nothing read st = .ok a st') :
    a = found script s st.desk.folder nothing read ∧ st'.desk = st.desk := by
  have h := of_folder_bind h
  unfold found
  cases hcontains : st.desk.folder.contains script with
  | false =>
    rw [hcontains] at h
    cases h
    exact ⟨rfl, rfl⟩
  | true =>
    rw [hcontains] at h
    cases hprocess : s.process script with
    | failed fault =>
      rw [hprocess] at h
      cases h
      exact ⟨rfl, rfl⟩
    | exited code output errors =>
      rw [hprocess] at h
      obtain ⟨_, t, hcomplain, h⟩ := exists_of_bind_run_eq_ok h
      cases hcomplain
      cases hread : document output >>= read with
      | error fault =>
        rw [hread] at h
        cases h
        exact ⟨by simp [hread, Except.toOption], rfl⟩
      | ok value =>
        rw [hread] at h
        cases h
        exact ⟨by simp [hread, Except.toOption], rfl⟩

theorem of_printAll {lines : List String} (h : printAll lines st = .ok () st') :
    st'.desk.printed = st.desk.printed ++ linesText lines := by
  induction lines generalizing st with
  | nil =>
    cases h
    simp [linesText]
  | cons l lines ih =>
    obtain ⟨_, t, hfirst, h⟩ := exists_of_bind_run_eq_ok h
    cases hfirst
    rw [ih h]
    simp [linesText, String.append_assoc]

end

/-- The percentage that a coverage report gives. -/
def percentOf (coverage : Json) : Except Fault Float := do
  let totals := (← coverage.get "totals").orEmpty
  (orZero (← totals.get "percent_covered")).toFloat

/-- The percentage of the coverage report in a folder. -/
def coveredIn (f : Folder) : Except Fault Float :=
  f.read coverageFile >>= Json.parse >>= percentOf

/-- A round ends with a line that sums it up, and behind it says if it was the last one. -/
theorem of_report {s : Surroundings} {coverage : Json} {st st' : Survey} (h : report s coverage st = .ok () st') :
    ∃ (r : Result) (before elapsed : String), percentOf coverage = .ok r.percent ∧
      r.history = readHistory st.desk.folder ∧
      r.times = found "_pti_repotime.py" s st.desk.folder {} Times.ofJson ∧
      st'.desk.printed = before ++ r.summary elapsed ++ "\n" ++ linesText r.stopLines := by
  unfold report at h
  obtain ⟨totals, htotals, h⟩ := exists_of_check_bind h
  obtain ⟨notes, -, h⟩ := exists_of_check_bind h
  obtain ⟨files, -, h⟩ := exists_of_check_bind h
  obtain ⟨percent, hpercent, h⟩ := exists_of_check_bind h
  obtain ⟨covered, -, h⟩ := exists_of_check_bind h
  obtain ⟨statements, -, h⟩ := exists_of_check_bind h
  obtain ⟨failures, -, h⟩ := exists_of_check_bind h
  have h := of_folder_bind h
  obtain ⟨times, t₁, htimes, h⟩ := exists_of_bind_run_eq_ok h
  obtain ⟨judged, t₂, hjudged, h⟩ := exists_of_bind_run_eq_ok h
  have h := of_folder_bind h
  obtain ⟨_, t₃, hremember, h⟩ := exists_of_bind_run_eq_ok h
  obtain ⟨rows, -, h⟩ := exists_of_check_bind h
  obtain ⟨missed, -, h⟩ := exists_of_check_bind h
  obtain ⟨_, t₄, htable, h⟩ := exists_of_bind_run_eq_ok h
  obtain ⟨_, t₅, hsections, h⟩ := exists_of_bind_run_eq_ok h
  obtain ⟨elapsed, -, h⟩ := exists_of_check_bind h
  obtain ⟨_, t₆, hsummary, hstop⟩ := exists_of_bind_run_eq_ok h
  obtain ⟨htimes, hdesk₁⟩ := of_measurement htimes
  obtain ⟨-, hdesk₂⟩ := of_measurement hjudged
  have hprinted := of_printAll hstop
  rw [of_printAll hsummary] at hprinted
  simp only [linesText, String.append_empty, String.empty_append, ← String.append_assoc] at hprinted
  refine ⟨_, _, elapsed, ?_, ?_, htimes, hprinted⟩
  · rw [percentOf, htotals]
    exact hpercent
  · rw [hdesk₂, hdesk₁]

/-- A round that ends well has read a coverage report and reported on it. -/
theorem of_round {s : Surroundings} {st st' : Survey} (h : round s st = .ok 0 st') :
    ∃ coverage t, st.desk.folder.read coverageFile >>= Json.parse = .ok coverage ∧ t.desk = st.desk ∧
      report s coverage t = .ok () st' := by
  unfold round at h
  cases hprocess : s.process "_pti_cov_runner.py" with
  | failed fault =>
    rw [hprocess] at h
    cases h
  | exited code output errors =>
    rw [hprocess] at h
    obtain ⟨⟨_, _⟩, t, houtput, h⟩ := exists_of_bind_run_eq_ok h
    cases houtput
    have h := of_folder_bind h
    split at h
    · next hfailed =>
      -- The exit code of a round without a report is not zero.
      obtain ⟨_, t, -, h⟩ := exists_of_bind_run_eq_ok h
      have hcode : (if code == 0 then 1 else code) = 0 := (EStateM.Result.ok.inj h).1
      split at hcode
      · cases hcode
      · next hne => exact absurd hcode (by simpa using hne)
    · obtain ⟨text, htext, h⟩ := exists_of_read_bind h
      obtain ⟨coverage, hcoverage, h⟩ := exists_of_check_bind h
      obtain ⟨_, t, hreport, h⟩ := exists_of_bind_run_eq_ok h
      cases h
      exact ⟨coverage, ⟨st.desk, st.complaints ++ errors⟩, by rw [htext]; exact hcoverage, rfl, hreport⟩

/-- The result of a round that ends well is that of what lies in the folder, and the end of what it prints. -/
theorem exists_result_of_round {s : Surroundings} {st st' : Survey} (h : round s st = .ok 0 st') :
    ∃ (r : Result) (before elapsed : String), coveredIn st.desk.folder = .ok r.percent ∧
      r.history = readHistory st.desk.folder ∧
      r.times = found "_pti_repotime.py" s st.desk.folder {} Times.ofJson ∧
      st'.desk.printed = before ++ r.summary elapsed ++ "\n" ++ linesText r.stopLines := by
  obtain ⟨coverage, t, hcoverage, hdesk, hreport⟩ := of_round h
  obtain ⟨r, before, elapsed, hpercent, hhistory, htimes, hprinted⟩ := of_report hreport
  rw [hdesk] at hhistory htimes
  have hcovered : coveredIn st.desk.folder = .ok r.percent := by
    rw [coveredIn, hcoverage]
    exact hpercent
  exact ⟨r, before, elapsed, hcovered, hhistory, htimes, hprinted⟩

/-! ### The end of the rounds -/

namespace Result

/-- The counts of the rounds before, and of this one. -/
def counts (r : Result) (count : Int) : List Int :=
  earlierCounts (r.history.rounds?.getD []) ++ [count]

/-- The plateau at the end of all rounds. -/
def plateau (r : Result) (count : Int) : Plateau :=
  Plateau.ofHistory (earlierCounts (r.history.rounds?.getD [])) count

theorem describes_plateau (r : Result) (count : Int) : (r.plateau count).Describes (r.counts count) :=
  Plateau.describes_ofHistory _ count

end Result

/-- The line that ends the rounds for want of improvement. -/
def plateauLine (p : Plateau) : String :=
  ">>> STOP: repo_time converged (" ++
    ("no improvement in " ++ Decimal.natText p.since ++ " rounds; best " ++ Decimal.intText p.best ++ " below") ++
    "). Finalize microbench.py now. <<<"

section
variable {r : Result} {count : Int} (hcount : lowCount? r.times = some count) (hsome : count ≠ 0)
include hcount

theorem stopLines_eq_nil (h : r.percent < enoughCoverage) : r.stopLines = [] := by
  rw [Result.stopLines, hcount]
  exact if_pos h

include hsome

theorem stopLines_eq (h : ¬r.percent < enoughCoverage) :
    r.stopLines = if Stopping.patience ≤ (r.plateau count).since then ["", plateauLine (r.plateau count)] else [] := by
  unfold Result.plateau
  rw [Result.stopLines, hcount]
  simp only [if_neg h, Stopping.reason?_eq hsome]
  by_cases hlong : Stopping.patience ≤ (Plateau.ofHistory (earlierCounts (r.history.rounds?.getD [])) count).since
  · rw [if_pos hlong, if_pos hlong]
    rfl
  · rw [if_neg hlong, if_neg hlong]

end

def endsWell (s : Surroundings) (st : Survey) : Bool :=
  match round s st with
  | .ok code _ => code == 0
  | .error .. => false

theorem exists_of_endsWell {s : Surroundings} {st : Survey} (h : endsWell s st = true) : ∃ st', round s st = .ok 0 st' := by
  unfold endsWell at h
  split at h
  · next code st' hround =>
    rw [beq_iff_eq] at h
    exact ⟨st', h ▸ hround⟩
  · cases h

def coversEnough (f : Folder) : Bool :=
  match coveredIn f with
  | .ok percent => !decide (percent < enoughCoverage)
  | .error _ => false

theorem coversEnough_eq {f : Folder} {percent : Float} (h : coveredIn f = .ok percent) :
    coversEnough f = !decide (percent < enoughCoverage) := by
  rw [coversEnough, h]

/-- There is one workload, and one per cent of its time is in what is measured. -/
def idle : Surroundings where
  process name := .exited 0 (if name = "_pti_repotime.py" then "\x7b\"repo_time_pct\": \x7b\"a\": 1\x7d\x7d" else "") ""
  now := .int 4
  elapsed := .int 1

/-- Three rounds have found one workload below. -/
def steady (percent : String) : Survey where
  desk.folder.nodes :=
    [([coverageFile], .file ("\x7b\"totals\": \x7b\"percent_covered\": " ++ percent ++ "\x7d\x7d")),
      (["_pti_repotime.py"], .file ""),
      ([historyFile], .file (String.join (List.replicate 3 "\x7b\"n_below_repo_time\": 1\x7d\n")))]

theorem plateau_steady {percent : String} {r : Result}
    (hrounds : earlierCounts ((readHistory (steady percent).desk.folder).rounds?.getD []) = [1, 1, 1])
    (h : r.history = readHistory (steady percent).desk.folder) : r.plateau 1 = ⟨1, 3⟩ := by
  rw [Result.plateau, h, hrounds]
  decide

end CodeBridge.Measure
