import Mathlib
import StackDepth.Proofs.Analysis.Containment

/-!
# The frame size of a register save

A routine that has its registers saved by the helper loads the size of its frame into two registers
first. The save looks for these loads back from where it stands. It takes the first load to each
register that it meets and stops as soon as it has both. So it finds what the registers hold at that
point, the amounts of the last loads since the label (`findLoads_reverse`), whatever else the lines
do and however often the registers were loaded before.
-/
namespace StackDepth

namespace Line

/-- The amount that the line loads into the register. -/
def load? (config : Config) (register : FrameRegister) (line : String) : Option Nat :=
  match operation? config line with
  | some (.frameLoad target amount) => if target = register then some amount else none
  | _ => none

/-- A line loads the register with the amount, and no line behind it loads the register again. -/
def LastLoad (config : Config) (lines : List String) (register : FrameRegister) (amount : Nat) :
    Prop :=
  ∃ before line behind, lines = before ++ line :: behind ∧
    load? config register line = some amount ∧
    ∀ later ∈ behind, load? config register later = none

variable {config : Config} {lines : List String} {register : FrameRegister}

theorem lastLoad_iff {amount : Nat} : LastLoad config lines register amount ↔
    lines.reverse.findSome? (load? config register) = some amount := by
  rw [List.findSome?_eq_some_iff]
  constructor
  · rintro ⟨before, line, behind, rfl, hline, hbehind⟩
    exact ⟨behind.reverse, line, before.reverse, by simp, hline, by simpa using hbehind⟩
  · rintro ⟨behind, line, before, hlines, hline, hbehind⟩
    refine ⟨before.reverse, line, behind.reverse, ?_, hline, by simpa using hbehind⟩
    rw [← List.reverse_inj, hlines]
    simp

theorem not_lastLoad_iff : (∀ amount, ¬ LastLoad config lines register amount) ↔
    lines.reverse.findSome? (load? config register) = none := by
  simp only [lastLoad_iff, Option.eq_none_iff_forall_ne_some, ne_eq]

end Line

/-! ### The search -/

namespace Routine

namespace FrameLoads

/-- What is known to be loaded into a register. -/
def get (loads : FrameLoads) : FrameRegister → Option Nat
  | .r26 => loads.low
  | .r27 => loads.high

theorem get_note (loads : FrameLoads) (target register : FrameRegister) (amount : Nat) :
    (loads.note target amount).get register =
      (loads.get register).or (if target = register then some amount else none) := by
  cases target <;> cases register <;> simp [note, get]

theorem get_eq_some_of_both {loads : FrameLoads}
    (h : (loads.low.isSome && loads.high.isSome) = true) (register : FrameRegister) :
    ∃ amount, loads.get register = some amount := by
  rw [Bool.and_eq_true] at h
  cases register with
  | r26 => exact Option.isSome_iff_exists.1 h.1
  | r27 => exact Option.isSome_iff_exists.1 h.2

end FrameLoads

variable {config : Config}

/-- The search keeps what it has found and takes the rest from the first loads that it meets. That it
stops early makes no difference, since nothing is missing then. -/
theorem findLoads_eq {lines : List String}
    (h : ∀ line ∈ lines, ∃ found, Line.classify config line = .ok found) (loads : FrameLoads) :
    ∃ result, findLoads config loads lines = .ok result ∧ ∀ register,
      result.get register =
        (loads.get register).or (lines.findSome? (Line.load? config register)) := by
  induction lines generalizing loads with
  | nil => exact ⟨loads, rfl, by simp⟩
  | cons line earlier ih =>
    obtain ⟨found, hfound⟩ := h line List.mem_cons_self
    have hearlier := fun other hother => h other (List.mem_cons_of_mem _ hother)
    by_cases hboth : (loads.low.isSome && loads.high.isSome) = true
    · refine ⟨loads, by rw [findLoads, if_pos hboth], fun register => ?_⟩
      obtain ⟨amount, hamount⟩ := loads.get_eq_some_of_both hboth register
      rw [hamount, Option.some_or]
    · rw [findLoads, if_neg hboth, hfound]
      have hother : (∀ register, Line.load? config register line = none) →
          ∃ result, findLoads config loads earlier = .ok result ∧ ∀ register,
            result.get register = (loads.get register).or
              ((line :: earlier).findSome? (Line.load? config register)) := by
        intro hnone
        obtain ⟨result, hresult, hget⟩ := ih hearlier loads
        refine ⟨result, hresult, fun register => ?_⟩
        rw [hget, List.findSome?_cons, hnone]
      cases found with
      | label | text => exact hother fun register => by simp [Line.load?, Line.operation?, hfound]
      | instruction address operation =>
        cases operation with
        | frameLoad target amount =>
          obtain ⟨result, hresult, hget⟩ := ih hearlier (loads.note target amount)
          refine ⟨result, hresult, fun register => ?_⟩
          have hload : Line.load? config register line =
              if target = register then some amount else none := by
            simp [Line.load?, Line.operation?, hfound]
          rw [hget, FrameLoads.get_note, List.findSome?_cons, hload, Option.or_assoc]
          by_cases htarget : target = register <;> simp [htarget]
        | _ => exact hother fun register => by simp [Line.load?, Line.operation?, hfound]

/-- From the end of the lines, the search finds the last load to each register. -/
theorem findLoads_reverse {lines : List String}
    (h : ∀ line ∈ lines, ∃ found, Line.classify config line = .ok found) :
    ∃ result, findLoads config {} lines.reverse = .ok result ∧ ∀ register,
      result.get register = lines.reverse.findSome? (Line.load? config register) := by
  have hreversed : ∀ line ∈ lines.reverse, ∃ found, Line.classify config line = .ok found :=
    fun line hline => h line (List.mem_reverse.1 hline)
  obtain ⟨result, hresult, hget⟩ := findLoads_eq hreversed {}
  refine ⟨result, hresult, fun register => ?_⟩
  rw [hget]
  cases register <;> rfl

/-! ### The save -/

variable {r : Routine}

theorem saveRegisters_of_missing
    (hread : ∀ line ∈ r.lines.toList, ∃ found, Line.classify config line = .ok found)
    {register : FrameRegister} (h : ∀ amount, ¬ Line.LastLoad config r.lines.toList register amount)
    (offset : Option Nat) :
    r.saveRegisters config offset = .faulted (.missingFrameLoad r.name) := by
  obtain ⟨⟨low, high⟩, hresult, hget⟩ := findLoads_reverse hread
  have hnone := hget register
  rw [Line.not_lastLoad_iff.1 h] at hnone
  rw [saveRegisters, hresult]
  cases register with
  | r26 =>
    cases hnone
    rfl
  | r27 =>
    cases hnone
    cases low <;> rfl

theorem saveRegisters_of_lastLoads
    (hread : ∀ line ∈ r.lines.toList, ∃ found, Line.classify config line = .ok found)
    {low high : Nat} (hlow : Line.LastLoad config r.lines.toList .r26 low)
    (hhigh : Line.LastLoad config r.lines.toList .r27 high) (offset : Option Nat) :
    r.saveRegisters config offset = r.reserve (savedBytes config low high offset) := by
  obtain ⟨⟨foundLow, foundHigh⟩, hresult, hget⟩ := findLoads_reverse hread
  have hfoundLow : foundLow = some low := (hget .r26).trans (Line.lastLoad_iff.1 hlow)
  have hfoundHigh : foundHigh = some high := (hget .r27).trans (Line.lastLoad_iff.1 hhigh)
  subst hfoundLow hfoundHigh
  rw [saveRegisters, hresult]

theorem reserve_of_held (h : r.reserved ≠ 0)
    (hdigits : (Nat.toDigits 10 r.reserved.natAbs).length ≤ Text.Numeral.maxDigits)
    (amount : Int) : ∃ held, r.reserve amount = .faulted (.doubleReservation r.name held) := by
  cases hwrite : Text.Numeral.write r.reserved with
  | ok held => exact ⟨held, by rw [reserve, if_neg h, hwrite]⟩
  | error e =>
    rw [Text.Numeral.write, if_neg (Nat.not_lt.2 hdigits)] at hwrite
    cases hwrite

end Routine

/-! ### Lines that fail -/

namespace Visit

variable {config : Config} {mode : PassMode} {v : Visit}

/-- The line is counted as failed and reported under the code, and it changes nothing, but that the
current routine owns it. -/
structure Faults (config : Config) (mode : PassMode) (v : Visit) (code : String) : Prop where
  outcome : v.outcome config mode = .faulted
  reported : ∃ d, v.reports config mode = [d] ∧ d.severity = .error ∧ d.code = code
  opened : (v.after config mode).opened = PassState.ownLine v.line v.state.opened

theorem faults_iff_of_faulted {fault : LineFault} (h : v.reaction config mode = .faulted fault)
    {code : String} : v.Faults config mode code ↔ fault.code = code := by
  have hreports : v.reports config mode = v.state.diagnose v.line (.faulted fault) := by
    rw [reports, h]
  constructor
  · rintro ⟨-, ⟨d, hd, -, hcode⟩, -⟩
    rw [hreports] at hd
    cases hd
    exact hcode
  · rintro rfl
    refine ⟨by rw [outcome, h]; rfl, ⟨_, hreports, rfl, rfl⟩, ?_⟩
    exact congrArg (fun reaction => PassState.ownLine v.line (v.state.routines reaction)) h

theorem not_faults_of_changed {after : Routine} {warning : Option LineWarning}
    (h : v.reaction config mode = .changed after warning) (code : String) :
    ¬ v.Faults config mode code := by
  intro hfaults
  have houtcome := hfaults.outcome
  rw [outcome, h] at houtcome
  cases houtcome

/-- To reserve a block fails exactly if one is reserved already. -/
theorem faults_iff_of_reserve {r : Routine} {amount : Int}
    (h : v.reaction config mode = r.reserve amount)
    (hdigits : (Nat.toDigits 10 r.reserved.natAbs).length ≤ Text.Numeral.maxDigits)
    {code : String} :
    v.Faults config mode code ↔ r.reserved ≠ 0 ∧ code = "double-reservation" := by
  by_cases hreserved : r.reserved = 0
  · rw [Routine.reserve, if_pos hreserved] at h
    exact iff_of_false (not_faults_of_changed h code) fun hheld => hheld.1 hreserved
  · obtain ⟨held, hheld⟩ := Routine.reserve_of_held hreserved hdigits amount
    rw [faults_iff_of_faulted (h.trans hheld)]
    exact ⟨fun hcode => ⟨hreserved, hcode.symm⟩, fun hcode => hcode.2.symm⟩

theorem after_of_changed {r : Routine} (h : v.reaction config mode = .changed r none) :
    v.after config mode =
      { index := v.state.index + 1
        opened := { r with lines := r.lines.push v.line } :: v.state.opened.tail
        outcomes := v.state.outcomes.count .matched
        diagnostics := v.state.diagnostics } := by
  rw [reaction] at h
  simp only [after, PassState.step, h]
  simp [PassState.routines, PassState.ownLine, PassState.diagnose, Reaction.outcome]

end Visit

/-! ### The lines since the label -/

namespace PassState

variable {config : Config} {mode : PassMode}

/-- The lines of the routine are its label and those that were passed since. -/
def OwnsSinceLabel (past : List Visit) (r : Routine) : Prop :=
  ∃ front label body, past = front ++ label :: body ∧ label.isLabel = true ∧
    (∀ w ∈ body, w.isLabel = false) ∧ r.lines.toList = label.line :: body.map Visit.line

theorem ownsSinceLabel_step {s : PassState} {past : List Visit}
    (h : ∀ r ∈ s.opened.head?, OwnsSinceLabel past r) (line : String) (following : List String) :
    ∀ r ∈ (s.step config mode line following).opened.head?,
      OwnsSinceLabel (past ++ [⟨s, line, following⟩]) r := by
  cases hlabel : Line.label? line.toList with
  | some label =>
    rw [step_label config mode hlabel]
    rintro r ⟨⟩
    exact ⟨past, ⟨s, line, following⟩, [], rfl, by simp [Visit.isLabel, Line.isLabel, hlabel],
      by simp, rfl⟩
  | none =>
    cases hopened : s.opened with
    | nil => simp [step_before_label config mode hlabel hopened]
    | cons current earlier =>
      have hbody : Line.isLabel line = false := Line.isLabel_eq_false.2 hlabel
      obtain ⟨front, label, body, rfl, hfirst, hno, hlines⟩ := h current (by simp [hopened])
      rw [step_pass config mode hbody hopened]
      rintro r ⟨⟩
      refine ⟨front, label, body ++ [⟨s, line, following⟩], by simp, hfirst, ?_, by simp [hlines]⟩
      intro w hw
      rcases List.mem_append.1 hw with hw | hw
      · exact hno w hw
      · rw [List.mem_singleton.1 hw]
        exact hbody

theorem ownsSinceLabel_of_visits {lines : List String} {done later : List Visit} {v : Visit}
    (h : visits config mode {} lines = done ++ v :: later) :
    ∀ r ∈ v.current?, OwnsSinceLabel done r :=
  (visits_invariant (motive := fun s past => ∀ r ∈ s.opened.head?, OwnsSinceLabel past r)
    (fun _ _ line following hs => ownsSinceLabel_step hs line following) {} [] (by simp) lines).1
    done v later h

theorem reaction_of_registerSave {v : Visit} {r : Routine} (hcurrent : v.current? = some r)
    {offset : Option Nat} (h : Line.operation? config v.line = some (.registerSave offset)) :
    v.reaction config mode = r.saveRegisters config offset := by
  obtain ⟨earlier, hopened⟩ := List.head?_eq_some_iff.1 hcurrent
  have hoperation : Line.operationAt config v.line v.following = some (.registerSave offset) := by
    rw [Line.operationAt_of_ne_stackLow (by simp [h]), h]
  exact react_of_operationAt mode hopened hoperation

end PassState

/-- A register save finds the last loads to the two registers since the label of the routine, in any
state in which all lines of the routine can be read and the reserved bytes can be written. If one of
the loads is missing, and only then, the line fails for want of a frame size. Otherwise it fails
exactly if a block is reserved already, and else reserves what the loads and the entry point of the
helper give. Along a pass, the lines of the current routine are its label and all lines since. -/
theorem registerSave_takes_last_loads (config : Config) (mode : PassMode) (v : Visit) (r : Routine)
    (hcurrent : v.current? = some r) (offset : Option Nat)
    (hsave : Line.operation? config v.line = some (.registerSave offset))
    (hread : ∀ line ∈ r.lines.toList, ∃ found, Line.classify config line = .ok found)
    (hdigits : (Nat.toDigits 10 r.reserved.natAbs).length ≤ 4300) :
    (v.Faults config mode "missing-frame-load" ↔
      ∃ register, ∀ amount, ¬ Line.LastLoad config r.lines.toList register amount) ∧
    (∀ low high, Line.LastLoad config r.lines.toList .r26 low →
      Line.LastLoad config r.lines.toList .r27 high →
      (v.Faults config mode "double-reservation" ↔ r.reserved ≠ 0) ∧
      (r.reserved = 0 →
        let saved : Int :=
          low + 256 * high + config.registerSaveBaseline - (offset.getD 0 / 2 : Nat)
        v.after config mode =
          { index := v.state.index + 1
            opened := { r with stackUsed := r.stackUsed + saved, reserved := saved,
                               lines := r.lines.push v.line } :: v.state.opened.tail
            outcomes := v.state.outcomes.count .matched
            diagnostics := v.state.diagnostics })) ∧
    ∀ listing done later, PassState.visits config mode {} listing = done ++ v :: later →
      PassState.OwnsSinceLabel done r := by
  have hreaction : v.reaction config mode = r.saveRegisters config offset :=
    PassState.reaction_of_registerSave hcurrent hsave
  refine ⟨?_, ?_, fun listing done later h => PassState.ownsSinceLabel_of_visits h r hcurrent⟩
  · constructor
    · intro hfaults
      by_contra hboth
      push Not at hboth
      obtain ⟨low, hlow⟩ := hboth .r26
      obtain ⟨high, hhigh⟩ := hboth .r27
      rw [Routine.saveRegisters_of_lastLoads hread hlow hhigh] at hreaction
      have hcode := ((Visit.faults_iff_of_reserve hreaction hdigits).1 hfaults).2
      exact absurd hcode (by decide)
    · rintro ⟨register, hnone⟩
      rw [Routine.saveRegisters_of_missing hread hnone] at hreaction
      exact (Visit.faults_iff_of_faulted hreaction).2 rfl
  · intro low high hlow hhigh
    rw [Routine.saveRegisters_of_lastLoads hread hlow hhigh] at hreaction
    refine ⟨(Visit.faults_iff_of_reserve hreaction hdigits).trans (and_iff_left rfl), ?_⟩
    intro hreserved saved
    have hsaved : Routine.savedBytes config low high offset = saved := by
      simp only [Routine.savedBytes, saved]
      omega
    rw [Routine.reserve, if_pos hreserved, hsaved] at hreaction
    exact Visit.after_of_changed hreaction

/-! ### A frame size that is loaded anew

The low byte is loaded a second time, behind a line of source text, before the helper is entered
four registers past its start. -/

def reloadedFrame : List String :=
  ["700 <work>:", "700:\ta0 e1\tldi\tr26, 0x10\t; 16", "702:\tb1 e0\tldi\tr27, 0x01\t; 1",
   "  size = 32;", "704:\ta0 e2\tldi\tr26, 0x20\t; 32"]

def reloadedSave : Visit where
  state := PassState.run {} .full {} reloadedFrame
  line := "706:\t0c 94 00 01\tjmp\t0x200\t; 0x200 <__prologue_saves__+0x8>"
  following := []

def reloadedRoutine : Routine :=
  { name := "work", start := 0x700, lines := reloadedFrame.toArray }

theorem registerSave_takes_last_loads_reloadedFrame :
    reloadedSave.current? = some reloadedRoutine ∧
      Line.operation? {} reloadedSave.line = some (.registerSave (some 8)) ∧
      (∀ line ∈ reloadedRoutine.lines.toList, ∃ found, Line.classify {} line = .ok found) ∧
      Line.LastLoad {} reloadedRoutine.lines.toList .r26 32 ∧
      Line.LastLoad {} reloadedRoutine.lines.toList .r27 1 ∧
      ¬ reloadedSave.Faults {} .full "missing-frame-load" ∧
      ¬ reloadedSave.Faults {} .full "double-reservation" ∧
      (reloadedSave.after {} .full).opened.map (fun r => (r.stackUsed, r.reserved)) =
        [(32 + 256 + 18 - 4, 302)] := by
  have hcurrent : reloadedSave.current? = some reloadedRoutine := by decide +kernel
  have hsave : Line.operation? {} reloadedSave.line = some (.registerSave (some 8)) := by
    decide +kernel
  have hread : ∀ line ∈ reloadedRoutine.lines.toList, ∃ found,
      Line.classify {} line = .ok found := by
    have hall : (reloadedFrame.all fun line => (Line.classify {} line).isOk) = true := by
      decide +kernel
    intro line hline
    have hok := List.all_eq_true.1 hall line hline
    cases hfound : Line.classify {} line with
    | ok found => exact ⟨found, rfl⟩
    | error e =>
      rw [hfound] at hok
      cases hok
  have hlow : Line.LastLoad {} reloadedRoutine.lines.toList .r26 32 :=
    Line.lastLoad_iff.2 (by decide +kernel)
  have hhigh : Line.LastLoad {} reloadedRoutine.lines.toList .r27 1 :=
    Line.lastLoad_iff.2 (by decide +kernel)
  obtain ⟨hmissing, hloads, -⟩ := registerSave_takes_last_loads {} .full reloadedSave
    reloadedRoutine hcurrent (some 8) hsave hread (by decide)
  obtain ⟨hheld, hreserves⟩ := hloads 32 1 hlow hhigh
  have htail : reloadedSave.state.opened.tail = [] := by decide +kernel
  refine ⟨hcurrent, hsave, hread, hlow, hhigh, ?_, ?_, ?_⟩
  · rw [hmissing]
    rintro ⟨register, hnone⟩
    cases register with
    | r26 => exact hnone 32 hlow
    | r27 => exact hnone 1 hhigh
  · rw [hheld]
    exact fun hne => hne rfl
  · rw [hreserves rfl, htail]
    rfl

end StackDepth
