import Mathlib
import StackDepth.Proofs.Analysis.Effect
import StackDepth.Proofs.Listing.LookAhead

/-!
# The course of a pass

A pass visits lines one after another. `visits` lists these with the state before each of them and
the lines behind it, and what every step of a pass preserves holds along the whole list
(`visits_invariant`).

Between two labels a pass only works on one routine. `Routine.follow` gives what comes of it, and
every routine that a pass has opened is what following it from its label gives
(`exists_visit_of_mem_opened`).
-/
namespace StackDepth

/-! ### One routine -/

namespace Routine

/-- The routine as a line in it leaves it, if the line is an operation that is applied. -/
def change? (config : Config) (mode : PassMode) (r : Routine) (line : String)
    (following : List String) : Option Routine :=
  match Line.operationAt config line following with
  | none => none
  | some operation =>
    match r.operate config mode operation with
    | .changed after _ => some after
    | _ => none

def pass (config : Config) (mode : PassMode) (r : Routine) (line : String)
    (following : List String) : Routine :=
  { (r.change? config mode line following).getD r with lines := r.lines.push line }

/-- The routine as a pass leaves it: at the next label, or where the pass ends. -/
def follow (config : Config) (mode : PassMode) : Routine → List String → Routine
  | r, [] => r
  | r, line :: rest =>
    if Line.isLabel line || mode.endsBefore line then r
    else follow config mode (r.pass config mode line rest) rest

structure Stay where
  /-- The routine before the line. -/
  routine : Routine
  line : String
  following : List String

/-- The lines by which following a routine leads. -/
def stays (config : Config) (mode : PassMode) : Routine → List String → List Stay
  | _, [] => []
  | r, line :: rest =>
    if Line.isLabel line || mode.endsBefore line then []
    else ⟨r, line, rest⟩ :: stays config mode (r.pass config mode line rest) rest

variable {config : Config} {mode : PassMode} {r : Routine} {line : String}
variable {following : List String}

theorem change?_eq_some {after : Routine} (h : r.change? config mode line following = some after) :
    ∃ operation warning, Line.operationAt config line following = some operation ∧
      r.operate config mode operation = .changed after warning := by
  unfold change? at h
  split at h
  · cases h
  · rename_i operation hoperation
    split at h
    · rename_i after' warning hchanged
      cases h
      exact ⟨operation, warning, hoperation, hchanged⟩
    · cases h

theorem change?_within {after : Routine} (h : r.change? config mode line following = some after) :
    ∃ used reserved targets,
      after = { r with stackUsed := used, reserved := reserved, callTargets := targets } := by
  obtain ⟨operation, warning, -, hchanged⟩ := change?_eq_some h
  have hwithin := r.operate_within config mode operation
  rwa [hchanged] at hwithin

theorem change?_lines : ((r.change? config mode line following).getD r).lines = r.lines := by
  cases h : r.change? config mode line following with
  | none => rfl
  | some after =>
    obtain ⟨used, reserved, targets, rfl⟩ := change?_within h
    rfl

theorem pass_of_change {after : Routine} (h : r.change? config mode line following = some after) :
    r.pass config mode line following = { after with lines := r.lines.push line } := by
  rw [pass, h, Option.getD_some]

theorem pass_of_no_change (h : r.change? config mode line following = none) :
    r.pass config mode line following = { r with lines := r.lines.push line } := by
  rw [pass, h, Option.getD_none]

theorem pass_of_operate {operation : Operation} {after : Routine}
    {warning : Option LineWarning}
    (hoperation : Line.operationAt config line following = some operation)
    (h : r.operate config mode operation = .changed after warning) :
    r.pass config mode line following = { after with lines := r.lines.push line } := by
  apply pass_of_change
  simp only [change?, hoperation, h]

variable (config mode r line following)

theorem pass_eq : ∃ used reserved targets, r.pass config mode line following =
    { r with stackUsed := used, reserved := reserved, callTargets := targets,
             lines := r.lines.push line } := by
  cases h : r.change? config mode line following with
  | none => exact ⟨_, _, _, pass_of_no_change h⟩
  | some after =>
    obtain ⟨used, reserved, targets, rfl⟩ := change?_within h
    exact ⟨used, reserved, targets, pass_of_change h⟩

@[simp] theorem pass_lines : (r.pass config mode line following).lines = r.lines.push line := rfl

@[simp] theorem pass_lineStart :
    (r.pass config mode line following).lineStart = r.lineStart := by
  obtain ⟨used, reserved, targets, h⟩ := r.pass_eq config mode line following
  rw [h]

variable {config mode r line following}

theorem follow_stop {rest : List String} (h : (Line.isLabel line || mode.endsBefore line) = true) :
    r.follow config mode (line :: rest) = r := by
  rw [follow, if_pos h]

theorem follow_pass {rest : List String} (hlabel : Line.isLabel line = false)
    (hends : mode.endsBefore line = false) :
    r.follow config mode (line :: rest) =
      (r.pass config mode line rest).follow config mode rest := by
  rw [follow, if_neg (by simp [hlabel, hends])]

theorem stays_stop {rest : List String} (h : (Line.isLabel line || mode.endsBefore line) = true) :
    r.stays config mode (line :: rest) = [] := by
  rw [stays, if_pos h]

theorem stays_pass {rest : List String} (hlabel : Line.isLabel line = false)
    (hends : mode.endsBefore line = false) :
    r.stays config mode (line :: rest) =
      ⟨r, line, rest⟩ :: (r.pass config mode line rest).stays config mode rest := by
  rw [stays, if_neg (by simp [hlabel, hends])]

theorem follow_lineStart (lines : List String) :
    (r.follow config mode lines).lineStart = r.lineStart := by
  induction lines generalizing r with
  | nil => rfl
  | cons line rest ih =>
    rw [follow]
    split
    · rfl
    · rw [ih, pass_lineStart]

theorem follow_full_lines (lines : List String) :
    (r.follow config .full lines).lines.toList =
      r.lines.toList ++ untilLabel lines := by
  induction lines generalizing r with
  | nil => simp [follow, untilLabel]
  | cons line rest ih =>
    cases hlabel : Line.isLabel line with
    | true => rw [follow_stop (by simp [hlabel]), untilLabel_label hlabel, List.append_nil]
    | false =>
      rw [follow_pass hlabel rfl, ih, untilLabel_body hlabel]
      simp

end Routine

/-! ### Visits -/

structure Visit where
  /-- The state before the line. -/
  state : PassState
  line : String
  following : List String
deriving DecidableEq

namespace Visit

def after (config : Config) (mode : PassMode) (v : Visit) : PassState :=
  v.state.step config mode v.line v.following

/-- The routine that the line finds, unless no label has come yet. -/
def current? (v : Visit) : Option Routine := v.state.opened.head?

def isLabel (v : Visit) : Bool := Line.isLabel v.line

def opens? (v : Visit) : Option Routine :=
  (Line.label? v.line.toList).map fun label =>
    { name := label.2, start := label.1, lineStart := v.state.index, lines := #[v.line] }

end Visit

namespace PassState

/-- The lines that a pass from a state on comes to, up to where it ends. -/
def visits (config : Config) (mode : PassMode) : PassState → List String → List Visit
  | _, [] => []
  | s, line :: rest =>
    if mode.endsBefore line then []
    else ⟨s, line, rest⟩ :: visits config mode (s.step config mode line rest) rest

variable {config : Config} {mode : PassMode}

/-- A statement about a state and the visits so far that every step keeps holds before each visit
and at the end. -/
theorem visits_invariant {motive : PassState → List Visit → Prop}
    (hstep : ∀ s past line following, motive s past →
      motive (s.step config mode line following) (past ++ [⟨s, line, following⟩]))
    (s : PassState) (past : List Visit) (h : motive s past) (lines : List String) :
    (∀ done v later, s.visits config mode lines = done ++ v :: later →
        motive v.state (past ++ done)) ∧
      motive (s.run config mode lines) (past ++ s.visits config mode lines) := by
  induction lines generalizing s past with
  | nil => exact ⟨by simp [visits], by simpa [visits, run] using h⟩
  | cons line rest ih =>
    by_cases hends : mode.endsBefore line = true
    · exact ⟨by simp [visits, hends], by simpa [visits, run, hends] using h⟩
    · obtain ⟨hvisits, hrun⟩ := ih _ _ (hstep s past line rest h)
      rw [visits, if_neg hends, run, if_neg hends]
      refine ⟨?_, by simpa using hrun⟩
      intro done v later hsplit
      cases done with
      | nil =>
        obtain ⟨rfl, -⟩ := List.cons.inj hsplit
        rw [List.append_nil]
        exact h
      | cons first done =>
        obtain ⟨rfl, hrest⟩ := List.cons.inj hsplit
        simpa using hvisits done v later hrest

/-- What comes behind a visit is the course of the pass from there on. -/
theorem visits_split {s : PassState} {lines : List String} {v : Visit}
    (h : v ∈ s.visits config mode lines) :
    ∃ front, s.visits config mode lines =
      front ++ v :: (v.after config mode).visits config mode v.following := by
  induction lines generalizing s with
  | nil => simp [visits] at h
  | cons line rest ih =>
    rw [visits] at h ⊢
    split at h
    · simp at h
    · rename_i hends
      rw [if_neg hends]
      rcases List.mem_cons.1 h with rfl | h
      · exact ⟨[], rfl⟩
      · obtain ⟨front, hfront⟩ := ih h
        exact ⟨_ :: front, by rw [hfront, List.cons_append]⟩

theorem mem_visits_of_after {s : PassState} {lines : List String} {v w : Visit}
    (hv : v ∈ s.visits config mode lines)
    (hw : w ∈ (v.after config mode).visits config mode v.following) :
    w ∈ s.visits config mode lines := by
  obtain ⟨front, hfront⟩ := visits_split hv
  rw [hfront]
  exact List.mem_append_right _ (List.mem_cons_of_mem _ hw)

/-! ### The routine of a visit -/

theorem after_of_opens (config : Config) (mode : PassMode) {v : Visit} {r : Routine}
    (h : v.opens? = some r) :
    (v.after config mode).opened = r :: v.state.opened := by
  obtain ⟨⟨address, name⟩, hlabel, rfl⟩ := Option.map_eq_some_iff.1 h
  exact step_label config mode hlabel v.state v.following

theorem react_of_operationAt (mode : PassMode) {s : PassState} {r : Routine}
    {earlier : List Routine} (hopened : s.opened = r :: earlier) {line : String} {following : List String}
    {operation : Operation} (h : Line.operationAt config line following = some operation) :
    s.react config mode line following = r.operate config mode operation := by
  unfold Line.operationAt at h
  unfold react
  split at h
  · rename_i hread
    cases h
    rw [hread]
    simp only [hopened]
  · cases h

theorem routines_of_no_operation {line : String} (hlabel : Line.isLabel line = false)
    {following : List String} (h : Line.operationAt config line following = none)
    (s : PassState) : s.routines (s.react config mode line following) = s.opened := by
  unfold Line.operationAt at h
  unfold react
  cases hread : Line.classifyAt config line following with
  | error e => rfl
  | ok found =>
    cases found with
    | label address name =>
      exact absurd hread (Line.classifyAt_ne_label (Line.isLabel_eq_false.1 hlabel) following _ _)
    | text => rfl
    | instruction address operation =>
      rw [hread] at h
      cases h

/-- All that a line can do which is no label. -/
theorem react_cases {line : String} (h : Line.label? line.toList = none) (s : PassState)
    (following : List String) :
    s.react config mode line following = .ignored ∨
      (∃ e, s.react config mode line following = .faulted (.numeral e)) ∨
      ∃ r earlier operation, s.opened = r :: earlier ∧
        s.react config mode line following = r.operate config mode operation := by
  unfold react
  split
  · rename_i e _
    exact .inr (.inl ⟨e, rfl⟩)
  · rename_i hlabel
    exact absurd hlabel (Line.classifyAt_ne_label h following _ _)
  · rename_i operation _
    split
    · exact .inl rfl
    · rename_i r earlier hopened
      exact .inr (.inr ⟨r, earlier, operation, hopened, rfl⟩)
  · exact .inl rfl

/-- A line that is no label changes the current routine alone. -/
theorem routines_react {line : String} (hlabel : Line.isLabel line = false) {s : PassState}
    {r : Routine} {earlier : List Routine} (hopened : s.opened = r :: earlier)
    (following : List String) :
    s.routines (s.react config mode line following) =
      (r.change? config mode line following).getD r :: earlier := by
  cases hoperation : Line.operationAt config line following with
  | none =>
    rw [routines_of_no_operation hlabel hoperation, hopened]
    simp [Routine.change?, hoperation]
  | some operation =>
    have hwithin := r.operate_within config mode operation
    rw [react_of_operationAt mode hopened hoperation]
    cases hreaction : r.operate config mode operation with
    | ignored | faulted | changed =>
      simp [routines, hopened, Routine.change?, hoperation, hreaction]
    | opened routine clash =>
      rw [hreaction] at hwithin
      exact hwithin.elim

theorem step_pass (config : Config) (mode : PassMode) {line : String}
    (hlabel : Line.isLabel line = false) {s : PassState} {r : Routine} {earlier : List Routine}
    (hopened : s.opened = r :: earlier) (following : List String) :
    (s.step config mode line following).opened =
      r.pass config mode line following :: earlier := by
  have hroutines : s.routines (s.react config mode line following) =
      (r.change? config mode line following).getD r :: earlier :=
    routines_react hlabel hopened following
  simp only [step, hroutines, ownLine, Routine.pass, Routine.change?_lines]

/-- A run over lines without labels leaves the current routine as following it does. -/
theorem run_follow {lines : List String} (h : ∀ line ∈ lines, Line.isLabel line = false)
    {s : PassState} {r : Routine} {earlier : List Routine} (hopened : s.opened = r :: earlier) :
    (s.run config mode lines).opened = r.follow config mode lines :: earlier := by
  induction lines generalizing s r with
  | nil => exact hopened
  | cons line rest ih =>
    have hlabel := h line List.mem_cons_self
    have hrest : ∀ other ∈ rest, Line.isLabel other = false :=
      fun other hother => h other (List.mem_cons_of_mem _ hother)
    by_cases hends : mode.endsBefore line = true
    · rw [run, if_pos hends, Routine.follow_stop (by simp [hends]), hopened]
    · rw [run, if_neg hends, Routine.follow_pass hlabel (by simpa using hends)]
      exact ih hrest (step_pass config mode hlabel hopened rest)

/-- A routine that a run leaves behind was closed before, or was the current one and was followed,
or was opened by one of the labels and followed from there. -/
theorem mem_opened_run {s : PassState} {lines : List String} {f : Routine}
    (h : f ∈ (s.run config mode lines).opened) :
    f ∈ s.opened.tail ∨ (∃ r, s.opened.head? = some r ∧ f = r.follow config mode lines) ∨
      ∃ v ∈ s.visits config mode lines, ∃ r, v.opens? = some r ∧
        f = r.follow config mode v.following := by
  have hmem : ∀ routines : List Routine, f ∈ routines → f ∈ routines.tail ∨
      routines.head? = some f := by
    rintro (_ | ⟨r, earlier⟩) hf
    · cases hf
    · exact (List.mem_cons.1 hf).symm.imp_right fun hr => by rw [hr]; rfl
  induction lines generalizing s with
  | nil => exact (hmem _ h).imp_right fun hf => .inl ⟨f, hf, rfl⟩
  | cons line rest ih =>
    by_cases hends : mode.endsBefore line = true
    · rw [run, if_pos hends] at h
      refine (hmem _ h).imp_right fun hf => .inl ⟨f, hf, ?_⟩
      rw [Routine.follow_stop (by simp [hends])]
    · rw [run, if_neg hends] at h
      rw [visits, if_neg hends]
      cases hlabel : Line.isLabel line with
      | true =>
        obtain ⟨label, hsome⟩ := Option.isSome_iff_exists.1 hlabel
        obtain ⟨r, hopens⟩ : ∃ r, (⟨s, line, rest⟩ : Visit).opens? = some r :=
          ⟨_, Option.map_eq_some_iff.2 ⟨label, hsome, rfl⟩⟩
        have hopened := after_of_opens config mode hopens
        rw [Visit.after] at hopened
        rcases ih h with hclosed | ⟨r', hr', hf⟩ | ⟨v, hv, hf⟩
        · rw [hopened] at hclosed
          refine (hmem _ hclosed).imp_right fun hf => .inl ⟨f, hf, ?_⟩
          rw [Routine.follow_stop (by simp [hlabel])]
        · rw [hopened] at hr'
          cases hr'
          exact .inr (.inr ⟨_, List.mem_cons_self, r, hopens, hf⟩)
        · exact .inr (.inr ⟨v, List.mem_cons_of_mem _ hv, hf⟩)
      | false =>
        cases hopened : s.opened with
        | nil =>
          have hnone := step_before_label config mode (Line.isLabel_eq_false.1 hlabel) hopened rest
          rcases ih h with hclosed | ⟨r', hr', -⟩ | ⟨v, hv, hf⟩
          · simp [hnone] at hclosed
          · simp [hnone] at hr'
          · exact .inr (.inr ⟨v, List.mem_cons_of_mem _ hv, hf⟩)
        | cons r earlier =>
          have hpass := step_pass config mode hlabel hopened rest
          rcases ih h with hclosed | ⟨r', hr', hf⟩ | ⟨v, hv, hf⟩
          · rw [hpass] at hclosed
            exact .inl hclosed
          · rw [hpass] at hr'
            cases hr'
            refine .inr (.inl ⟨r, rfl, ?_⟩)
            rw [Routine.follow_pass hlabel (by simpa using hends)]
            exact hf
          · exact .inr (.inr ⟨v, List.mem_cons_of_mem _ hv, hf⟩)

/-- Every routine that a pass has opened is followed from its label. -/
theorem exists_visit_of_mem_opened {lines : List String} {f : Routine}
    (h : f ∈ (run config mode {} lines).opened) :
    ∃ v ∈ visits config mode {} lines, ∃ r, v.opens? = some r ∧
      f = r.follow config mode v.following := by
  rcases mem_opened_run h with hclosed | ⟨r, hr, -⟩ | hv
  · cases hclosed
  · cases hr
  · exact hv

/-! ### Reports on lines -/

theorem mem_diagnose {s : PassState} {line : String} {reaction : Reaction} {d : Diagnostic}
    (h : d ∈ s.diagnose line reaction) :
    d.lineIndex = some (s.index : Int) ∧ d.lineText = some line := by
  unfold diagnose at h
  split at h
  · cases h
  · rw [List.mem_singleton.1 h]
    exact ⟨rfl, rfl⟩
  · rw [List.mem_singleton.1 h]
    exact ⟨rfl, rfl⟩
  · rw [List.mem_singleton.1 h]
    exact ⟨rfl, rfl⟩
  · cases h
  · cases h

/-! ### Where routines begin -/

theorem index_le_of_mem_visits {s : PassState} {lines : List String} {v : Visit}
    (h : v ∈ s.visits config mode lines) : s.index ≤ v.state.index := by
  induction lines generalizing s with
  | nil => simp [visits] at h
  | cons line rest ih =>
    rw [visits] at h
    split at h
    · simp at h
    · rcases List.mem_cons.1 h with rfl | h
      · exact Nat.le_refl _
      · exact Nat.le_of_succ_le (ih h)

/-- Where a visit stands among the lines of the pass. -/
theorem drop_of_mem_visits {s : PassState} {lines : List String} {v : Visit}
    (h : v ∈ s.visits config mode lines) :
    ∃ k, v.state.index = s.index + k ∧ lines.drop k = v.line :: v.following := by
  induction lines generalizing s with
  | nil => cases h
  | cons line rest ih =>
    rw [visits] at h
    split at h
    · cases h
    · rcases List.mem_cons.1 h with rfl | h
      · exact ⟨0, rfl, rfl⟩
      · obtain ⟨k, hindex, hdrop⟩ := ih h
        have hstep : (s.step config mode line rest).index = s.index + 1 := rfl
        exact ⟨k + 1, by omega, hdrop⟩

theorem index_lt_of_visits_split {s : PassState} {lines : List String} {front later : List Visit}
    {v w : Visit} (h : s.visits config mode lines = front ++ v :: later) (hw : w ∈ front) :
    w.state.index < v.state.index := by
  induction lines generalizing s front with
  | nil => simp [visits] at h
  | cons line rest ih =>
    rw [visits] at h
    split at h
    · simp at h
    · cases front with
      | nil => cases hw
      | cons first front =>
        obtain ⟨rfl, hrest⟩ := List.cons.inj h
        rcases List.mem_cons.1 hw with rfl | hw
        · have hv : v ∈ (s.step config mode line rest).visits config mode rest := by
            rw [hrest]
            simp
          exact index_le_of_mem_visits hv
        · exact ih hrest hw

theorem step_lineStart_lt {s : PassState} (h : ∀ r ∈ s.opened, r.lineStart < s.index)
    (line : String) (following : List String) :
    ∀ r ∈ (s.step config mode line following).opened, r.lineStart < s.index + 1 := by
  cases hlabel : Line.label? line.toList with
  | some label =>
    rw [step_label config mode hlabel]
    intro r hr
    rcases List.mem_cons.1 hr with rfl | hr
    · exact Int.lt_add_one_iff.2 (Int.le_refl _)
    · have := h r hr
      omega
  | none =>
    cases hopened : s.opened with
    | nil => simp [step_before_label config mode hlabel hopened]
    | cons current earlier =>
      rw [step_pass config mode (Line.isLabel_eq_false.2 hlabel) hopened]
      rw [hopened] at h
      intro r hr
      rcases List.mem_cons.1 hr with rfl | hr
      · have := h current List.mem_cons_self
        rw [Routine.pass_lineStart]
        omega
      · have := h r (List.mem_cons_of_mem _ hr)
        omega

theorem lineStart_lt_index {lines : List String} {v : Visit}
    (h : v ∈ visits config mode {} lines) : ∀ r ∈ v.state.opened, r.lineStart < v.state.index := by
  obtain ⟨done, later, hsplit⟩ := List.append_of_mem h
  have hstep : ∀ (s : PassState) (past : List Visit) line following,
      (∀ r ∈ s.opened, r.lineStart < s.index) →
      ∀ r ∈ (s.step config mode line following).opened,
        r.lineStart < (s.step config mode line following).index :=
    fun s _ line following h => step_lineStart_lt h line following
  exact (visits_invariant (motive := fun s _ => ∀ r ∈ s.opened, r.lineStart < s.index) hstep
    {} [] (by simp) lines).1 done v later hsplit

/-- From a routine on, a pass is in that routine or in later ones. -/
theorem lineStart_le_of_mem_visits {s : PassState} {r q : Routine} {earlier : List Routine}
    {lines : List String} {w : Visit} (hopened : s.opened = r :: earlier)
    (hr : r.lineStart ≤ s.index) (hw : w ∈ s.visits config mode lines)
    (hq : w.current? = some q) : r.lineStart ≤ q.lineStart := by
  induction lines generalizing s r earlier with
  | nil => simp [visits] at hw
  | cons line rest ih =>
    rw [visits] at hw
    split at hw
    · simp at hw
    · rcases List.mem_cons.1 hw with rfl | hw
      · rw [Visit.current?, hopened, List.head?_cons, Option.some.injEq] at hq
        rw [hq]
      · have hindex : (s.step config mode line rest).index = s.index + 1 := rfl
        cases hlabel : Line.label? line.toList with
        | some label =>
          have hnext := ih (step_label config mode hlabel s rest) (by simp [hindex]) hw
          simp only at hnext
          omega
        | none =>
          have hpass := step_pass config mode
            (Line.isLabel_eq_false.2 hlabel) hopened rest
          have hnext := ih hpass (by rw [Routine.pass_lineStart, hindex]; omega) hw
          rwa [Routine.pass_lineStart] at hnext

theorem exists_visit_of_stay {s : PassState} {r : Routine} {earlier : List Routine}
    {lines : List String} {stay : Routine.Stay} (hopened : s.opened = r :: earlier)
    (h : stay ∈ r.stays config mode lines) :
    ∃ w ∈ s.visits config mode lines, w.current? = some stay.routine ∧
      stay.routine.lineStart = r.lineStart ∧ w.isLabel = false ∧ w.line = stay.line ∧
      w.following = stay.following := by
  induction lines generalizing s r with
  | nil => simp [Routine.stays] at h
  | cons line rest ih =>
    rw [Routine.stays] at h
    split at h
    · simp at h
    · rename_i hgo
      simp only [Bool.or_eq_true, not_or, Bool.not_eq_true] at hgo
      rw [visits, if_neg (by simp [hgo.2])]
      rcases List.mem_cons.1 h with rfl | h
      · exact ⟨_, List.mem_cons_self, by rw [Visit.current?, hopened]; rfl, rfl, hgo.1, rfl, rfl⟩
      · obtain ⟨w, hw, hcurrent, hstart, hline⟩ := ih (step_pass config mode hgo.1 hopened rest) h
        rw [Routine.pass_lineStart] at hstart
        exact ⟨w, List.mem_cons_of_mem _ hw, hcurrent, hstart, hline⟩

theorem mem_stays_of_visit {s : PassState} {r q : Routine} {earlier : List Routine}
    {lines : List String} {w : Visit} (hopened : s.opened = r :: earlier)
    (hr : r.lineStart < s.index) (hw : w ∈ s.visits config mode lines)
    (hq : w.current? = some q) (hstart : q.lineStart = r.lineStart)
    (hlabel : w.isLabel = false) :
    ⟨q, w.line, w.following⟩ ∈ r.stays config mode lines := by
  induction lines generalizing s r earlier with
  | nil => simp [visits] at hw
  | cons line rest ih =>
    rw [visits] at hw
    split at hw
    · simp at hw
    · rename_i hends
      have hindex : (s.step config mode line rest).index = s.index + 1 := rfl
      cases hline : Line.label? line.toList with
      | some label =>
        rcases List.mem_cons.1 hw with rfl | hw
        · simp [Visit.isLabel, Line.isLabel, hline] at hlabel
        · have hnext := lineStart_le_of_mem_visits (step_label config mode hline s rest)
            (by simp [hindex]) hw hq
          simp only at hnext
          omega
      | none =>
        have hbody := Line.isLabel_eq_false.2 hline
        rw [Routine.stays_pass hbody (by simpa using hends)]
        rcases List.mem_cons.1 hw with rfl | hw
        · rw [Visit.current?, hopened, List.head?_cons, Option.some.injEq] at hq
          rw [hq]
          exact List.mem_cons_self
        · refine List.mem_cons_of_mem _ (ih (step_pass config mode hbody hopened rest) ?_ hw ?_)
          · rw [Routine.pass_lineStart, hindex]
            omega
          · rw [Routine.pass_lineStart, hstart]

/-! ### The routines of a pass -/

/-- The routine `f` of a pass over a listing comes of following `r` from its label on, and the
lines by which this leads are those at which the pass was in `f`. -/
structure Followed (config : Config) (mode : PassMode) (lines : List String) (f r : Routine)
    (rest : List String) : Prop where
  eq_follow : f = r.follow config mode rest
  visit_of_stay : ∀ stay ∈ r.stays config mode rest, ∃ w ∈ visits config mode {} lines,
    w.current? = some stay.routine ∧ stay.routine.lineStart = f.lineStart ∧ w.isLabel = false ∧
      w.line = stay.line ∧ w.following = stay.following
  stay_of_visit : ∀ w ∈ visits config mode {} lines, ∀ q, w.current? = some q →
    q.lineStart = f.lineStart → w.isLabel = false →
      ⟨q, w.line, w.following⟩ ∈ r.stays config mode rest

theorem exists_followed {lines : List String} {f : Routine}
    (h : f ∈ (run config mode {} lines).opened) :
    ∃ (label : String) (address : Nat) (name : String) (index : Nat) (rest : List String),
      Line.label? label.toList = some (address, name) ∧
      Followed config mode lines f
        { name, start := address, lineStart := index, lines := #[label] } rest := by
  obtain ⟨v, hv, r, hopens, hf⟩ := exists_visit_of_mem_opened h
  have hopened := after_of_opens config mode hopens
  obtain ⟨⟨address, name⟩, hlabel, rfl⟩ := Option.map_eq_some_iff.1 hopens
  have hstart : f.lineStart = v.state.index := by rw [hf, Routine.follow_lineStart]
  refine ⟨v.line, address, name, v.state.index, v.following, hlabel, hf, ?_, ?_⟩
  · intro stay hstay
    obtain ⟨w, hw, hcurrent, hbegin, hline⟩ := exists_visit_of_stay hopened hstay
    exact ⟨w, mem_visits_of_after hv hw, hcurrent, by rw [hbegin, hstart], hline⟩
  · intro w hw q hq hbegin hbody
    have hbefore := lineStart_lt_index hw q (List.mem_of_mem_head? hq)
    obtain ⟨front, hsplit⟩ := visits_split hv
    rw [hsplit] at hw
    rcases List.mem_append.1 hw with hw | hw
    · have := index_lt_of_visits_split hsplit hw
      omega
    · rcases List.mem_cons.1 hw with rfl | hw
      · omega
      · refine mem_stays_of_visit hopened ?_ hw hq (by rw [hbegin, hstart]) hbody
        exact Int.lt_add_one_iff.2 (Int.le_refl _)

theorem Followed.forall_stays_iff {lines rest : List String} {f r : Routine}
    (h : Followed config mode lines f r rest) {motive : Routine → String → List String → Prop} :
    (∀ stay ∈ r.stays config mode rest, motive stay.routine stay.line stay.following) ↔
      ∀ v ∈ visits config mode {} lines, ∀ q ∈ v.current?, q.lineStart = f.lineStart →
        v.isLabel = false → motive q v.line v.following := by
  constructor
  · intro hstays v hv q hq hstart hlabel
    exact hstays _ (h.stay_of_visit v hv q hq hstart hlabel)
  · intro hvisits stay hstay
    obtain ⟨v, hv, hcurrent, hstart, hlabel, hline, hfollowing⟩ := h.visit_of_stay stay hstay
    rw [← hline, ← hfollowing]
    exact hvisits v hv stay.routine hcurrent hstart hlabel

theorem Followed.lines_eq {lines rest : List String} {f r : Routine}
    (h : Followed config .full lines f r rest) :
    f.lines.toList = r.lines.toList ++ untilLabel rest := by
  rw [h.eq_follow, Routine.follow_full_lines]

theorem run_own (config : Config) (mode : PassMode) {label : String} {address : Nat}
    {name : String} (hlabel : Line.label? label.toList = some (address, name))
    (rest : List String) :
    (run config mode {} (label :: untilLabel rest)).opened =
      [Routine.follow config mode { name, start := address, lines := #[label] }
        (untilLabel rest)] := by
  have hends : mode.endsBefore label = false := by
    cases mode with
    | full => rfl
    | bounded stop => rw [PassMode.endsBefore, Line.address?_of_label hlabel]; rfl
  rw [run, if_neg (by simp [hends])]
  exact run_follow (fun _ => isLabel_of_mem_untilLabel)
    (step_label config mode hlabel {} (untilLabel rest))

end PassState

theorem mem_opened_of_mem_analyze {config : Config} {lines : List String} {f : Routine}
    (h : f ∈ (analyze config lines).routines) :
    f ∈ (PassState.run config .full {} lines).opened :=
  List.mem_reverse.1 (mem_of_mem_firstByStart h)

theorem analyze_own (config : Config) {label : String} {address : Nat} {name : String}
    (hlabel : Line.label? label.toList = some (address, name)) (rest : List String) :
    (analyze config (label :: untilLabel rest)).routines =
      [Routine.follow config .full { name, start := address, lines := #[label] }
        (untilLabel rest)] := by
  rw [analyze, PassState.run_own config .full hlabel, List.reverse_singleton]
  simp only [firstByStart, List.filter_nil]

end StackDepth
