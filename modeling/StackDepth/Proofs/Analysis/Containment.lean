import Mathlib
import StackDepth.Proofs.Analysis.Visits

/-!
# Faults are contained

A line can fail in many ways: its numeral or that of a line behind it is too long, the look back for
a frame size ends in a line that cannot be read, a block is reserved twice, a number cannot be
written into a message. None of these ends a pass. Every line has one outcome, the log has one error
for each line that failed and none for any other, and a line that failed or meant nothing leaves all
routines as they were, apart from the line itself, which its routine owns.

All of this is decided by the reaction to the line alone, so it is shown for one step and carried
over to the log of the whole pass (`diagnostics_run`).
-/
namespace StackDepth

/-! ### Outcomes and reports of a reaction -/

namespace Outcomes

/-- How many lines had the outcome. -/
def tally (o : Outcomes) : Outcome → Nat
  | .matched => o.matched
  | .unmatched => o.unmatched
  | .faulted => o.faulted

def total (o : Outcomes) : Nat := o.matched + o.unmatched + o.faulted

theorem tally_count (o : Outcomes) (outcome other : Outcome) :
    (o.count outcome).tally other = o.tally other + if outcome = other then 1 else 0 := by
  cases outcome <;> cases other <;> rfl

theorem total_count (o : Outcomes) (outcome : Outcome) :
    (o.count outcome).total = o.total + 1 := by
  cases outcome <;> simp only [count, total] <;> omega

end Outcomes

/-- The errors of a log. -/
def Log.errors (log : Log) : Log := log.filter (·.severity = .error)

/-- What a log says about the line at an index. -/
def Log.about (log : Log) (k : Nat) (line : String) : Log :=
  log.filter fun d => d.lineIndex = some (k : Int) ∧ d.lineText = some line

namespace PassState

variable (s : PassState) (line : String) {reaction : Reaction}

theorem diagnose_of_unmatched (h : reaction.outcome = .unmatched) :
    s.diagnose line reaction = [] := by
  cases reaction with
  | ignored => rfl
  | faulted fault => cases h
  | opened routine clash => cases clash <;> cases h
  | changed routine warning => cases h

theorem diagnose_of_faulted (h : reaction.outcome = .faulted) :
    ∃ d, s.diagnose line reaction = [d] ∧ d.severity = .error := by
  cases reaction with
  | ignored => cases h
  | faulted fault => exact ⟨_, rfl, rfl⟩
  | opened routine clash =>
    cases clash with
    | none => cases h
    | some fault => exact ⟨_, rfl, rfl⟩
  | changed routine warning => cases h

theorem diagnose_of_matched (h : reaction.outcome = .matched) :
    s.diagnose line reaction = [] ∨
      ∃ d, s.diagnose line reaction = [d] ∧ d.severity = .warning := by
  cases reaction with
  | ignored => cases h
  | faulted fault => cases h
  | opened routine clash =>
    cases clash with
    | none => exact .inl rfl
    | some fault => cases h
  | changed routine warning =>
    cases warning with
    | none => exact .inl rfl
    | some warning => exact .inr ⟨_, rfl, rfl⟩

end PassState

/-! ### Visits -/

namespace Visit

variable (config : Config) (mode : PassMode) (v : Visit)

def reaction : Reaction := v.state.react config mode v.line v.following

def outcome : Outcome := (v.reaction config mode).outcome

/-- What the pass reports about the line. -/
def reports : Log := v.state.diagnose v.line (v.reaction config mode)

end Visit

namespace PassState

variable {config : Config} {mode : PassMode}

theorem diagnostics_run (s : PassState) (lines : List String) :
    (s.run config mode lines).diagnostics =
      s.diagnostics ++ (s.visits config mode lines).flatMap (Visit.reports config mode) := by
  induction lines generalizing s with
  | nil => simp [run, visits]
  | cons line rest ih =>
    by_cases hends : mode.endsBefore line = true
    · simp [run, visits, hends]
    · rw [run, if_neg hends, visits, if_neg hends, ih, List.flatMap_cons, ← List.append_assoc]
      rfl

theorem tally_run (s : PassState) (lines : List String) (outcome : Outcome) :
    (s.run config mode lines).outcomes.tally outcome = s.outcomes.tally outcome +
      (s.visits config mode lines).countP fun v => v.outcome config mode = outcome := by
  induction lines generalizing s with
  | nil => simp [run, visits]
  | cons line rest ih =>
    by_cases hends : mode.endsBefore line = true
    · simp [run, visits, hends]
    · have hstep : (s.step config mode line rest).outcomes =
          s.outcomes.count (Visit.outcome config mode ⟨s, line, rest⟩) := rfl
      rw [run, if_neg hends, visits, if_neg hends, ih, hstep, Outcomes.tally_count,
        List.countP_cons]
      simp only [decide_eq_true_eq]
      omega

theorem map_line_visits (s : PassState) (lines : List String) :
    (s.visits config .full lines).map Visit.line = lines := by
  induction lines generalizing s with
  | nil => rfl
  | cons line rest ih => exact congrArg (line :: ·) (ih _)

theorem total_run (s : PassState) (lines : List String) :
    (s.run config .full lines).outcomes.total = s.outcomes.total + lines.length := by
  induction lines generalizing s with
  | nil => rfl
  | cons line rest ih =>
    have hstep : (s.step config .full line rest).outcomes =
        s.outcomes.count (Visit.outcome config .full ⟨s, line, rest⟩) := rfl
    have hrun : s.run config .full (line :: rest) =
        (s.step config .full line rest).run config .full rest := rfl
    rw [hrun, ih, hstep, Outcomes.total_count, List.length_cons]
    omega

theorem index_of_getElem?_visits {s : PassState} {lines : List String} {k : Nat} {v : Visit}
    (h : (s.visits config mode lines)[k]? = some v) : v.state.index = s.index + k := by
  induction lines generalizing s k with
  | nil => simp [visits] at h
  | cons line rest ih =>
    rw [visits] at h
    split at h
    · simp at h
    · cases k with
      | zero =>
        cases h
        rfl
      | succ k =>
        have hindex : (s.step config mode line rest).index = s.index + 1 := rfl
        rw [ih h, hindex]
        omega

theorem about_reports_self (config : Config) (mode : PassMode) (v : Visit) :
    Log.about (v.reports config mode) v.state.index v.line = v.reports config mode := by
  rw [Log.about, List.filter_eq_self]
  intro d hd
  simpa using mem_diagnose hd

theorem about_reports_of_ne {v : Visit} {k : Nat} (h : v.state.index ≠ k) (line : String) :
    Log.about (v.reports config mode) k line = [] := by
  rw [Log.about, List.filter_eq_nil_iff]
  intro d hd
  have hindex := (mem_diagnose hd).1
  simp only [hindex, decide_eq_true_eq, Option.some.injEq, Int.natCast_inj]
  exact fun hk => h hk.1

/-- The log says about a line what was reported when the pass came to it. -/
theorem about_run {lines : List String} {k : Nat} {v : Visit}
    (h : (visits config mode {} lines)[k]? = some v) :
    Log.about (run config mode {} lines).diagnostics k v.line = v.reports config mode := by
  have hindex : v.state.index = k := (index_of_getElem?_visits h).trans (Nat.zero_add k)
  obtain ⟨front, hsplit⟩ := visits_split (List.mem_of_getElem? h)
  have hfront : ∀ w ∈ front, Log.about (w.reports config mode) k v.line = [] := by
    intro w hw
    have := index_lt_of_visits_split hsplit hw
    exact about_reports_of_ne (by omega) v.line
  have hlater : ∀ w ∈ (v.after config mode).visits config mode v.following,
      Log.about (w.reports config mode) k v.line = [] := by
    intro w hw
    have hle := index_le_of_mem_visits hw
    have hafter : (v.after config mode).index = v.state.index + 1 := rfl
    exact about_reports_of_ne (by omega) v.line
  have hself := about_reports_self config mode v
  rw [hindex] at hself
  simp only [Log.about] at hfront hlater hself ⊢
  rw [diagnostics_run, List.nil_append, List.filter_flatMap, hsplit, List.flatMap_append,
    List.flatMap_cons, hself, List.flatMap_eq_nil_iff.2 hfront, List.flatMap_eq_nil_iff.2 hlater,
    List.nil_append, List.append_nil]

/-! ### What a line leaves alone -/

/-- The table of the routines whose labels were passed: of those with one address, the first. -/
def table (s : PassState) : List Routine := firstByStart s.opened.reverse

theorem react_ne_opened {line : String} (h : Line.label? line.toList = none) (s : PassState)
    (following : List String) (routine : Routine) (clash : Option LineFault) :
    s.react config mode line following ≠ .opened routine clash := by
  rcases react_cases h s following with hreact | ⟨e, hreact⟩ | ⟨r, -, operation, -, hreact⟩
  · rw [hreact]
    simp
  · rw [hreact]
    simp
  · intro hopened
    have hwithin := r.operate_within config mode operation
    rw [← hreact, hopened] at hwithin
    exact hwithin

/-- A line that is no label and is not matched only becomes the property of the current routine. -/
theorem opened_after {v : Visit} (hlabel : v.isLabel = false)
    (h : v.outcome config mode ≠ .matched) :
    (v.after config mode).opened = ownLine v.line v.state.opened := by
  have hroutines : v.state.routines (v.reaction config mode) = v.state.opened := by
    cases hreaction : v.reaction config mode with
    | ignored | faulted => rfl
    | opened routine clash =>
      exact absurd hreaction (react_ne_opened (Line.isLabel_eq_false.1 hlabel) _ _ _ _)
    | changed routine warning =>
      rw [Visit.outcome, hreaction] at h
      exact absurd rfl h
  exact congrArg (ownLine v.line) hroutines

end PassState

/-- A routine apart from the lines that it owns. -/
def Routine.withoutLines (r : Routine) : Routine := { r with lines := #[] }

theorem map_withoutLines_ownLine (line : String) (routines : List Routine) :
    (PassState.ownLine line routines).map Routine.withoutLines =
      routines.map Routine.withoutLines := by
  cases routines with
  | nil => rfl
  | cons r earlier => rfl

theorem PassState.map_withoutLines_table (s : PassState) :
    s.table.map Routine.withoutLines =
      firstByStart (s.opened.map Routine.withoutLines).reverse := by
  rw [table, map_firstByStart (f := Routine.withoutLines) fun _ => rfl, List.map_reverse]

/-! ### The whole pass -/

/-- What a line of a full pass may do, by its outcome, given what the log says about it. -/
structure Contained (config : Config) (v : Visit) (reports : Log) : Prop where
  faulted_iff : v.outcome config .full = .faulted ↔ reports.errors.length = 1
  unmatched : v.outcome config .full = .unmatched → reports = []
  matched : v.outcome config .full = .matched →
    reports.length ≤ 1 ∧ ∀ d ∈ reports, d.severity = .warning
  /-- The routines and the table stay as they are, but for the line that is now owned. -/
  unchanged : v.outcome config .full ≠ .matched → v.isLabel = false →
    (v.after config .full).opened.map Routine.withoutLines =
        v.state.opened.map Routine.withoutLines ∧
      (v.after config .full).table.map Routine.withoutLines =
        v.state.table.map Routine.withoutLines

theorem errors_reports_eq_nil {config : Config} {mode : PassMode} {v : Visit}
    (h : v.outcome config mode ≠ .faulted) : (v.reports config mode).errors = [] := by
  cases houtcome : v.outcome config mode with
  | faulted => exact absurd houtcome h
  | unmatched => rw [Visit.reports, PassState.diagnose_of_unmatched _ _ houtcome]; rfl
  | matched =>
    rcases v.state.diagnose_of_matched v.line houtcome with hreports | ⟨d, hreports, hseverity⟩
    · rw [Visit.reports, hreports]
      rfl
    · rw [Visit.reports, hreports]
      simp [Log.errors, hseverity]

theorem contained_reports (config : Config) (v : Visit) :
    Contained config v (v.reports config .full) where
  faulted_iff := by
    constructor
    · intro h
      obtain ⟨d, hreports, hseverity⟩ := v.state.diagnose_of_faulted v.line h
      rw [Visit.reports, hreports]
      simp [Log.errors, hseverity]
    · intro h
      by_contra hne
      rw [errors_reports_eq_nil hne] at h
      cases h
  unmatched h := v.state.diagnose_of_unmatched v.line h
  matched h := by
    rcases v.state.diagnose_of_matched v.line h with hreports | ⟨d, hreports, hseverity⟩
    · rw [Visit.reports, hreports]
      simp
    · rw [Visit.reports, hreports]
      simpa using hseverity
  unchanged h hlabel := by
    have hopened : (v.after config .full).opened.map Routine.withoutLines =
        v.state.opened.map Routine.withoutLines := by
      rw [PassState.opened_after hlabel h, map_withoutLines_ownLine]
    refine ⟨hopened, ?_⟩
    rw [PassState.map_withoutLines_table, hopened, PassState.map_withoutLines_table]

/-- A full pass comes to every line of a listing, whatever the lines before it were, and every line
has one outcome. All that is logged is about one of the lines: one error if the line failed, nothing
if it meant nothing, and at most a warning otherwise. What failed or meant nothing leaves the
routines alone, unless it is a label. -/
theorem analyze_contains_faults (config : Config) (listing : List String) :
    (PassState.visits config .full {} listing).map Visit.line = listing ∧
      (∀ outcome, (analyze config listing).outcomes.tally outcome =
        (PassState.visits config .full {} listing).countP
          fun v => v.outcome config .full = outcome) ∧
      (analyze config listing).outcomes.total = listing.length ∧
      (∀ d ∈ (analyze config listing).diagnostics, ∃ k v,
        (PassState.visits config .full {} listing)[k]? = some v ∧
          d ∈ Log.about (analyze config listing).diagnostics k v.line) ∧
      ∀ k v, (PassState.visits config .full {} listing)[k]? = some v →
        Contained config v (Log.about (analyze config listing).diagnostics k v.line) := by
  refine ⟨PassState.map_line_visits {} listing, fun outcome => ?_, ?_, ?_, ?_⟩
  · rw [analyze, PassState.tally_run {} listing outcome]
    cases outcome <;> simp [Outcomes.tally]
  · exact (PassState.total_run {} listing).trans (Nat.zero_add _)
  · intro d hd
    have hlog : d ∈ (PassState.visits config .full {} listing).flatMap
        (Visit.reports config .full) := by
      rw [analyze, PassState.diagnostics_run] at hd
      simpa using hd
    obtain ⟨v, hv, hreported⟩ := List.mem_flatMap.1 hlog
    obtain ⟨k, hk⟩ := List.getElem?_of_mem hv
    refine ⟨k, v, hk, ?_⟩
    rw [analyze, PassState.about_run hk]
    exact hreported
  · intro k v hv
    rw [analyze, PassState.about_run hv]
    exact contained_reports config v

/-! ### A save without a frame size

The third line jumps into the register-save helper, but no frame size was loaded. -/

def bareSave : List String :=
  ["100 <alpha>:", "100:\tcf 93\tpush\tr28",
   "102:\t0c 94 00 01\tjmp\t0x200\t; 0x200 <__prologue_saves__+0x4>",
   "106:\t0c 94 82 01\tjmp\t0x304\t; 0x304 <beta+0x4>", "10a:\t08 95\tret"]

theorem analyze_contains_faults_bareSave :
    (analyze {} bareSave).outcomes = ⟨3, 1, 1⟩ ∧ (analyze {} bareSave).outcomes.total = 5 ∧
      ∃ v, (PassState.visits {} .full {} bareSave)[2]? = some v ∧
        v.outcome {} .full = .faulted ∧
        (Log.about (analyze {} bareSave).diagnostics 2 v.line).errors.length = 1 ∧
        (v.after {} .full).table.map Routine.withoutLines =
          v.state.table.map Routine.withoutLines := by
  obtain ⟨-, -, htotal, -, hcontained⟩ := analyze_contains_faults {} bareSave
  have hfaulted : ((PassState.visits {} .full {} bareSave)[2]?).map
      (fun v => (v.outcome {} .full, v.isLabel)) = some (.faulted, false) := by decide +kernel
  obtain ⟨v, hv, hboth⟩ := Option.map_eq_some_iff.1 hfaulted
  obtain ⟨houtcome, hlabel⟩ := Prod.mk.inj hboth
  have hline := hcontained 2 v hv
  refine ⟨by decide +kernel, htotal, v, hv, houtcome, hline.faulted_iff.1 houtcome, ?_⟩
  exact (hline.unchanged (by rw [houtcome]; simp) hlabel).2

end StackDepth
