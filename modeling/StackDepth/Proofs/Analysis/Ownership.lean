import StackDepth.Analysis.Pass
import StackDepth.Proofs.Listing.Label

/-!
# Which lines a routine owns

A label opens a routine, and every line up to the next label is added to it. What a line does
besides changes figures of the routine only: its stack, its reservation and its call targets. So
the lines of a routine that a pass has found are its label and lines that are no labels, and a
bounded pass over them never leaves the routine.
-/
namespace StackDepth

/-- The reaction changes figures of the routine at most. -/
def Reaction.Within (r : Routine) : Reaction → Prop
  | .ignored | .faulted _ => True
  | .opened .. => False
  | .changed after _ => ∃ used reserved targets,
      after = { r with stackUsed := used, reserved := reserved, callTargets := targets }

namespace Routine

variable (config : Config) (r : Routine)

theorem reserve_within (amount : Int) : (r.reserve amount).Within r := by
  unfold reserve
  split
  · exact ⟨_, _, _, rfl⟩
  · split
    · trivial
    · trivial

theorem saveRegisters_within (offset : Option Nat) : (r.saveRegisters config offset).Within r := by
  unfold saveRegisters
  split
  · trivial
  · exact r.reserve_within _
  · trivial

theorem jump_within (target : Nat) (name : String) (offset : Option Nat) :
    (r.jump config target name offset).Within r := by
  unfold jump
  split
  · trivial
  · exact ⟨_, _, _, rfl⟩

theorem release_within (amount : Nat) : (r.release config amount).Within r := by
  unfold release
  simp only
  split
  · exact ⟨_, _, _, rfl⟩
  · split
    · exact ⟨_, _, _, rfl⟩
    · trivial
    · trivial

theorem operate_within (mode : PassMode) (operation : Operation) :
    (r.operate config mode operation).Within r := by
  cases operation with
  | push | selfCall | call => exact ⟨_, _, _, rfl⟩
  | frameLoad | stackLow | other => trivial
  | registerSave offset => exact r.saveRegisters_within config offset
  | jump target name offset => exact r.jump_within config target name offset
  | stackDecrement amount =>
    rw [operate]
    split
    · trivial
    · exact r.reserve_within amount
  | stackIncrement amount =>
    rw [operate]
    split
    · exact r.release_within config amount
    · trivial
  | pop | registerRestore =>
    rw [operate]
    split
    · exact ⟨_, _, _, rfl⟩
    · trivial

/-- The lines of the routine are its label and lines that are no labels. -/
def Labelled (r : Routine) : Prop :=
  ∃ (label : String) (body : List String) (address : Nat), r.lines.toList = label :: body ∧
    Line.label? label.toList = some (address, r.name) ∧ r.start = address ∧
    ∀ line ∈ body, Line.label? line.toList = none

theorem Labelled.push {r : Routine} (h : r.Labelled) {line : String}
    (hline : Line.label? line.toList = none) (used reserved : Int) (targets : AddressSet) :
    Labelled { r with stackUsed := used, reserved := reserved, callTargets := targets,
                      lines := r.lines.push line } := by
  obtain ⟨label, body, address, hlines, hlabel, hstart, hbody⟩ := h
  refine ⟨label, body ++ [line], address, by simp [hlines], hlabel, hstart, ?_⟩
  intro other hother
  rcases List.mem_append.1 hother with hother | hother
  · exact hbody other hother
  · rw [List.mem_singleton.1 hother]
    exact hline

end Routine

namespace PassState

variable (config : Config) (mode : PassMode)

theorem step_label {line : String} {address : Nat} {name : String}
    (h : Line.label? line.toList = some (address, name)) (s : PassState)
    (following : List String) :
    (s.step config mode line following).opened =
      { name, start := address, lineStart := s.index, lines := #[line] } :: s.opened := by
  simp [step, react, Line.classifyAt_of_label config h, openRoutine, routines, ownLine]

theorem react_within {line : String} (h : Line.label? line.toList = none) {s : PassState}
    {r : Routine} {earlier : List Routine} (hopened : s.opened = r :: earlier)
    (following : List String) : (s.react config mode line following).Within r := by
  unfold react
  split
  · trivial
  · rename_i hlabel
    exact absurd hlabel (Line.classifyAt_ne_label h following _ _)
  · rw [hopened]
    exact r.operate_within config mode _
  · trivial

/-- A line that is no label goes to the current routine. -/
theorem step_body {line : String} (h : Line.label? line.toList = none) {s : PassState}
    {r : Routine} {earlier : List Routine} (hopened : s.opened = r :: earlier)
    (following : List String) :
    ∃ used reserved targets, (s.step config mode line following).opened =
      { r with stackUsed := used, reserved := reserved, callTargets := targets,
               lines := r.lines.push line } :: earlier := by
  have hwithin := react_within config mode h hopened following
  unfold step
  cases hreact : s.react config mode line following with
  | ignored | faulted =>
    exact ⟨r.stackUsed, r.reserved, r.callTargets, by simp only [routines, hopened, ownLine]⟩
  | opened routine clash =>
    rw [hreact] at hwithin
    exact hwithin.elim
  | changed after warning =>
    rw [hreact] at hwithin
    obtain ⟨used, reserved, targets, rfl⟩ := hwithin
    exact ⟨used, reserved, targets, by simp only [routines, hopened, List.tail_cons, ownLine]⟩

theorem step_before_label {line : String} (h : Line.label? line.toList = none) {s : PassState}
    (hopened : s.opened = []) (following : List String) :
    (s.step config mode line following).opened = [] := by
  unfold step react
  split
  · simp only [routines, hopened, ownLine]
  · rename_i hlabel
    exact absurd hlabel (Line.classifyAt_ne_label h following _ _)
  · simp only [routines, hopened, ownLine]
  · simp only [routines, hopened, ownLine]

theorem step_labelled {s : PassState} (h : ∀ r ∈ s.opened, r.Labelled) (line : String)
    (following : List String) :
    ∀ r ∈ (s.step config mode line following).opened, r.Labelled := by
  cases hline : Line.label? line.toList with
  | some label =>
    rw [step_label config mode hline]
    intro r hr
    rcases List.mem_cons.1 hr with rfl | hr
    · exact ⟨line, [], label.1, rfl, hline, rfl, by simp⟩
    · exact h r hr
  | none =>
    cases hopened : s.opened with
    | nil => simp [step_before_label config mode hline hopened]
    | cons current earlier =>
      obtain ⟨used, reserved, targets, hstep⟩ :=
        step_body config mode hline hopened following
      rw [hopened] at h
      rw [hstep]
      intro r hr
      rcases List.mem_cons.1 hr with rfl | hr
      · exact (h current List.mem_cons_self).push hline used reserved targets
      · exact h r (List.mem_cons_of_mem _ hr)

theorem run_labelled {s : PassState} (h : ∀ r ∈ s.opened, r.Labelled) (lines : List String) :
    ∀ r ∈ (s.run config mode lines).opened, r.Labelled := by
  induction lines generalizing s with
  | nil => exact h
  | cons line rest ih =>
    rw [run]
    split
    · exact h
    · exact ih (step_labelled config mode h line rest)

/-- A run over lines none of which is a label stays in the current routine. -/
theorem run_body {lines : List String} (h : ∀ line ∈ lines, Line.label? line.toList = none)
    {s : PassState} {r : Routine} {earlier : List Routine} (hopened : s.opened = r :: earlier) :
    ∃ after, (s.run config mode lines).opened = after :: earlier ∧
      after.name = r.name ∧ after.start = r.start := by
  induction lines generalizing s r with
  | nil => exact ⟨r, hopened, rfl, rfl⟩
  | cons line rest ih =>
    rw [run]
    split
    · exact ⟨r, hopened, rfl, rfl⟩
    · obtain ⟨used, reserved, targets, hstep⟩ :=
        step_body config mode (h line List.mem_cons_self) hopened rest
      obtain ⟨after, hrun, hname, hstart⟩ :=
        ih (fun other hother => h other (List.mem_cons_of_mem _ hother)) hstep
      exact ⟨after, hrun, hname, hstart⟩

end PassState

/-! ### The table of a full pass -/

theorem mem_of_mem_firstByStart {r : Routine} {routines : List Routine}
    (h : r ∈ firstByStart routines) : r ∈ routines := by
  induction routines with
  | nil => exact h
  | cons first rest ih =>
    rw [firstByStart, List.mem_cons] at h
    rcases h with rfl | h
    · exact List.mem_cons_self
    · exact List.mem_cons_of_mem _ (ih (List.mem_filter.1 h).1)

theorem nodup_firstByStart (routines : List Routine) :
    ((firstByStart routines).map Routine.start).Nodup := by
  induction routines with
  | nil => exact List.nodup_nil
  | cons first rest ih =>
    rw [firstByStart, List.map_cons, List.nodup_cons]
    constructor
    · intro hmem
      obtain ⟨r, hr, hstart⟩ := List.mem_map.1 hmem
      simpa [hstart] using (List.mem_filter.1 hr).2
    · exact ih.sublist (List.filter_sublist.map _)

/-- What keeps the start addresses can be done before or after. -/
theorem map_firstByStart {f : Routine → Routine} (hf : ∀ r, (f r).start = r.start)
    (routines : List Routine) : (firstByStart routines).map f = firstByStart (routines.map f) := by
  induction routines with
  | nil => rfl
  | cons r rest ih =>
    simp only [firstByStart, List.map_cons, ← ih, List.filter_map, Function.comp_def, hf]

theorem labelled_of_mem_analyze {config : Config} {lines : List String} {r : Routine}
    (h : r ∈ (analyze config lines).routines) : r.Labelled := by
  apply PassState.run_labelled config .full (s := {}) (by simp) lines
  exact List.mem_reverse.1 (mem_of_mem_firstByStart h)

/-- A bounded pass over the lines of a routine ends in that routine. -/
theorem Routine.Labelled.analyzePart_eq {r : Routine} (h : r.Labelled) (config : Config)
    (stop : Int) :
    (analyzePart config r stop).routine.name = r.name ∧
      (analyzePart config r stop).routine.start = r.start := by
  obtain ⟨label, body, address, hlines, hlabel, hstart, hbody⟩ := h
  have hends : (PassMode.bounded stop).endsBefore label = false := by
    rw [PassMode.endsBefore, Line.address?_of_label hlabel]
    rfl
  obtain ⟨after, hrun, hafter⟩ := PassState.run_body config (.bounded stop) hbody
    (PassState.step_label config (.bounded stop) hlabel {} body)
  have hpart : (analyzePart config r stop).routine = after := by
    simp [analyzePart, hlines, PassState.run, hends, hrun]
  rw [hpart, hstart]
  exact hafter

end StackDepth
