import Mathlib
import StackDepth.Proofs.Analysis.Containment

/-!
# Bounded passes are nested

Two bounded passes over a routine differ only in where they end. Up to the earlier end they do the
same, line by line, since a line is read in view of all lines of the routine and not only of those
that the pass comes to. The later pass goes on from there (`PassState.run_resume`), and from any
state on a pass only adds lines, call targets and diagnostics. So what a pass to an address finds
is part of what a pass to a later address finds, and it is the same if there is no instruction
between the two.
-/
namespace StackDepth

/-! ### Where a pass ends -/

/-- The line is an instruction at the address or beyond it. -/
def Line.Reaches (stop : Int) (line : String) : Prop :=
  ∃ address ∈ Line.address? line, stop ≤ (address : Int)

namespace PassMode

variable {a b : Int} {line : String}

theorem endsBefore_iff : (bounded a).endsBefore line = true ↔ Line.Reaches a line := by
  cases haddress : Line.address? line with
  | none => simp [endsBefore, Line.Reaches, haddress]
  | some address => simp [endsBefore, Line.Reaches, haddress]

theorem endsBefore_mono (h : a ≤ b) (hends : (bounded b).endsBefore line = true) :
    (bounded a).endsBefore line = true := by
  obtain ⟨address, haddress, hb⟩ := endsBefore_iff.1 hends
  exact endsBefore_iff.2 ⟨address, haddress, Int.le_trans h hb⟩

theorem endsBefore_of_label {label : Nat × String}
    (h : Line.label? line.toList = some label) : (bounded a).endsBefore line = false := by
  rw [endsBefore, Line.address?_of_label h]
  rfl

end PassMode

namespace PassState

variable (config : Config) {a b : Int}

/-- What a line does in a bounded pass does not depend on where the pass ends. -/
theorem step_bounded (a b : Int) (s : PassState) (line : String) (following : List String) :
    s.step config (.bounded a) line following = s.step config (.bounded b) line following := by
  have hoperate : ∀ (r : Routine) (operation : Operation),
      r.operate config (.bounded a) operation = r.operate config (.bounded b) operation := by
    intro r operation
    cases operation <;> rfl
  simp only [step, react, hoperate]

/-- A pass goes on from where a pass to an earlier address has ended. -/
theorem run_resume (h : a ≤ b) (s : PassState) (lines : List String) :
    s.run config (.bounded b) lines = (s.run config (.bounded a) lines).run config (.bounded b)
      (lines.dropWhile fun line => !(PassMode.bounded a).endsBefore line) := by
  induction lines generalizing s with
  | nil => rfl
  | cons line rest ih =>
    cases hends : (PassMode.bounded a).endsBefore line with
    | true =>
      have hstop : s.run config (.bounded a) (line :: rest) = s := by rw [run, if_pos hends]
      rw [hstop, List.dropWhile_cons_of_neg (by simp [hends])]
    | false =>
      have hlater : ¬ (PassMode.bounded b).endsBefore line = true := by
        intro hb
        rw [PassMode.endsBefore_mono h hb] at hends
        cases hends
      rw [List.dropWhile_cons_of_pos (by simp [hends]), run, if_neg hlater, run,
        if_neg (by simp [hends]), step_bounded config b a, ih]

/-- Where no instruction lies between the two addresses, the pass ends at the same line. -/
theorem run_eq_of_gap (h : a ≤ b) {lines : List String}
    (hgap : ∀ line ∈ lines, Line.Reaches a line → Line.Reaches b line) (s : PassState) :
    s.run config (.bounded a) lines = s.run config (.bounded b) lines := by
  rw [run_resume config h s lines]
  cases hrest : lines.dropWhile fun line => !(PassMode.bounded a).endsBefore line with
  | nil => rfl
  | cons line rest =>
    have hends : (PassMode.bounded a).endsBefore line = true := by
      have hhead :=
        List.head?_dropWhile_not (fun line => !(PassMode.bounded a).endsBefore line) lines
      rw [hrest] at hhead
      simpa using hhead
    have hmem : line ∈ lines := by
      apply (List.dropWhile_sublist _).subset
      rw [hrest]
      exact List.mem_cons_self
    have hlater := PassMode.endsBefore_iff.2 (hgap line hmem (PassMode.endsBefore_iff.1 hends))
    rw [run, if_pos hlater]

theorem diagnostics_prefix_run (mode : PassMode) (s : PassState) (lines : List String) :
    s.diagnostics <+: (s.run config mode lines).diagnostics := by
  rw [diagnostics_run]
  exact List.prefix_append _ _

end PassState

/-! ### What a pass adds -/

namespace Routine

/-- The routine has all lines and call targets of an earlier state. -/
structure Grows (r after : Routine) : Prop where
  lines : r.lines.toList <+: after.lines.toList
  targets : ∀ target ∈ r.callTargets, target ∈ after.callTargets

theorem Grows.refl (r : Routine) : r.Grows r := ⟨List.prefix_refl _, fun _ => id⟩

theorem Grows.trans {r s t : Routine} (h : r.Grows s) (h' : s.Grows t) : r.Grows t :=
  ⟨h.lines.trans h'.lines, fun target htarget => h'.targets target (h.targets target htarget)⟩

variable {config : Config} {mode : PassMode} {r : Routine}

theorem targets_of_applies {operation : Operation} {after : Routine}
    {warning : Option LineWarning} (h : Applies config mode r operation after warning)
    {target : Int} (htarget : target ∈ r.callTargets) : target ∈ after.callTargets := by
  cases h with
  | call | jump => exact AddressSet.mem_insert.2 (.inr htarget)
  | push | selfCall | reserve | pop | release | restore => exact htarget

theorem pass_grows (line : String) (following : List String) :
    r.Grows (r.pass config mode line following) := by
  refine ⟨by simp, fun target htarget => ?_⟩
  cases hchange : r.change? config mode line following with
  | none => rwa [pass_of_no_change hchange]
  | some after =>
    obtain ⟨operation, warning, -, hchanged⟩ := change?_eq_some hchange
    rw [pass_of_change hchange]
    exact targets_of_applies (applies_of_operate hchanged) htarget

theorem follow_grows (lines : List String) : r.Grows (r.follow config mode lines) := by
  induction lines generalizing r with
  | nil => exact Grows.refl r
  | cons line rest ih =>
    rw [follow]
    split
    · exact Grows.refl r
    · exact (pass_grows line rest).trans ih

/-- Following a routine through lines without labels takes in those before the end of the pass. -/
theorem follow_lines {lines : List String} (h : ∀ line ∈ lines, Line.isLabel line = false) :
    (r.follow config mode lines).lines.toList =
      r.lines.toList ++ lines.takeWhile fun line => !mode.endsBefore line := by
  induction lines generalizing r with
  | nil => simp [follow]
  | cons line rest ih =>
    rw [List.forall_mem_cons] at h
    cases hends : mode.endsBefore line with
    | true =>
      rw [follow_stop (by simp [hends]), List.takeWhile_cons_of_neg (by simp [hends]),
        List.append_nil]
    | false =>
      rw [follow_pass h.1 hends, ih h.2, List.takeWhile_cons_of_pos (by simp [hends])]
      simp

end Routine

/-- The first lines, as far as all of them have the property. -/
structure IsLongestPrefix (property : String → Prop) (part lines : List String) : Prop where
  isPrefix : part <+: lines
  all : ∀ line ∈ part, property line
  longest : ∀ other, other <+: lines → (∀ line ∈ other, property line) → other <+: part

theorem isLongestPrefix_takeWhile {property : String → Prop} {test : String → Bool}
    (htest : ∀ line, test line = true ↔ property line) (lines : List String) :
    IsLongestPrefix property (lines.takeWhile test) lines where
  isPrefix := List.takeWhile_prefix test
  all line hline := (htest line).1 (List.mem_takeWhile_imp hline)
  longest other hother hall := by
    obtain ⟨rest, rfl⟩ := hother
    rw [List.takeWhile_append_of_pos fun line hline => (htest line).2 (hall line hline)]
    exact List.prefix_append other _

/-! ### Snapshots -/

/-- What a pass has found when it ends is part of what another one finds. -/
structure Snapshot.Within (s t : Snapshot) : Prop where
  routine : s.routine.Grows t.routine
  diagnostics : s.diagnostics <+: t.diagnostics

namespace Routine.Labelled

variable {f : Routine} (h : f.Labelled) (config : Config)

include h

/-- A bounded pass over the lines of a routine has opened this routine alone. -/
theorem opened_run (stop : Int) :
    (PassState.run config (.bounded stop) {} f.lines.toList).opened =
      [(analyzePart config f stop).routine] := by
  obtain ⟨label, body, address, hlines, hlabel, -, hbody⟩ := h
  have hown : untilLabel body = body :=
    untilLabel_of_no_label fun line hline => Line.isLabel_eq_false.2 (hbody line hline)
  have hopened := PassState.run_own config (.bounded stop) hlabel body
  rw [hown] at hopened
  simp only [analyzePart, hlines, hopened, List.head?_cons, Option.getD_some]

theorem lines_analyzePart (stop : Int) : (analyzePart config f stop).routine.lines.toList =
    f.lines.toList.takeWhile fun line => !(PassMode.bounded stop).endsBefore line := by
  have hopened := h.opened_run config stop
  obtain ⟨label, body, address, hlines, hlabel, -, hbody⟩ := h
  have hisLabel : ∀ line ∈ body, Line.isLabel line = false :=
    fun line hline => Line.isLabel_eq_false.2 (hbody line hline)
  have hrun := PassState.run_own config (.bounded stop) hlabel body
  rw [untilLabel_of_no_label hisLabel, ← hlines, hopened, List.singleton_inj] at hrun
  rw [hrun, Routine.follow_lines hisLabel, hlines,
    List.takeWhile_cons_of_pos (by simp [PassMode.endsBefore_of_label hlabel])]
  rfl

/-- Behind the end of a bounded pass there are no labels. -/
theorem isLabel_of_mem_dropWhile (stop : Int) {line : String}
    (hline : line ∈ f.lines.toList.dropWhile fun line =>
      !(PassMode.bounded stop).endsBefore line) : Line.isLabel line = false := by
  obtain ⟨label, body, address, hlines, hlabel, -, hbody⟩ := h
  rw [hlines, List.dropWhile_cons_of_pos (by simp [PassMode.endsBefore_of_label hlabel])] at hline
  exact Line.isLabel_eq_false.2 (hbody line ((List.dropWhile_sublist _).subset hline))

theorem analyzePart_within {a b : Int} (hab : a ≤ b) :
    (analyzePart config f a).Within (analyzePart config f b) := by
  have hresume := PassState.run_resume config hab {} f.lines.toList
  constructor
  · have hfollow := h.opened_run config b
    rw [hresume, PassState.run_follow (fun _ => h.isLabel_of_mem_dropWhile a)
      (h.opened_run config a), List.singleton_inj] at hfollow
    rw [← hfollow]
    exact Routine.follow_grows _
  · have hdiagnostics := PassState.diagnostics_prefix_run config (.bounded b)
      (PassState.run config (.bounded a) {} f.lines.toList)
      (f.lines.toList.dropWhile fun line => !(PassMode.bounded a).endsBefore line)
    rwa [← hresume] at hdiagnostics

end Routine.Labelled

theorem analyzePart_eq_of_gap (config : Config) {f : Routine} {a b : Int} (hab : a ≤ b)
    (hgap : ∀ line ∈ f.lines.toList, ∀ address ∈ Line.address? line,
      ¬ (a ≤ (address : Int) ∧ (address : Int) < b)) :
    analyzePart config f a = analyzePart config f b := by
  have hreaches : ∀ line ∈ f.lines.toList, Line.Reaches a line → Line.Reaches b line := by
    rintro line hline ⟨address, haddress, ha⟩
    refine ⟨address, haddress, ?_⟩
    by_contra hb
    exact hgap line hline address haddress ⟨ha, Int.not_le.1 hb⟩
  simp only [analyzePart, PassState.run_eq_of_gap config hab hreaches]

/-- A bounded pass over a routine of the table takes in its lines up to the first instruction at
the address or beyond it. A pass to a later address finds all that it finds, and nothing else if
no instruction of the routine lies between the two addresses. -/
theorem analyzePart_nested {config : Config} {listing : List String} {f : Routine}
    (hf : f ∈ (analyze config listing).routines) (config' : Config) :
    (∀ stop, (analyzePart config' f stop).routine.name = f.name ∧
      (analyzePart config' f stop).routine.start = f.start ∧
      IsLongestPrefix (fun line => ¬ Line.Reaches stop line)
        (analyzePart config' f stop).routine.lines.toList f.lines.toList) ∧
    ∀ a b, a ≤ b →
      (analyzePart config' f a).Within (analyzePart config' f b) ∧
      ((∀ line ∈ f.lines.toList, ∀ address ∈ Line.address? line,
          ¬ (a ≤ (address : Int) ∧ (address : Int) < b)) →
        analyzePart config' f a = analyzePart config' f b) := by
  have hlabelled : f.Labelled := labelled_of_mem_analyze hf
  constructor
  · intro stop
    obtain ⟨hname, hstart⟩ := hlabelled.analyzePart_eq config' stop
    refine ⟨hname, hstart, ?_⟩
    rw [hlabelled.lines_analyzePart config' stop]
    apply isLongestPrefix_takeWhile
    intro line
    rw [← PassMode.endsBefore_iff, Bool.not_eq_true, Bool.not_eq_true']
  · intro a b hab
    exact ⟨hlabelled.analyzePart_within config' hab, analyzePart_eq_of_gap config' hab⟩

/-- A routine that calls one function and jumps into another. -/
def relay : List String :=
  ["300 <relay>:", "300:\tcf 93\tpush\tr28",
   "302:\t0e 94 00 02\tcall\t0x400\t; 0x400 <alpha>",
   "306:\t0c 94 82 02\tjmp\t0x504\t; 0x504 <beta+0x4>", "30a:\t08 95\tret"]

theorem analyzePart_nested_relay :
    ∃ f ∈ (analyze {} relay).routines,
      (analyzePart {} f 0x306).Within (analyzePart {} f 0x30a) ∧
      (analyzePart {} f 0x306).routine.callTargets.toList = [0x400] ∧
      (analyzePart {} f 0x30a).routine.callTargets.toList = [0x400, 0x504] ∧
      (analyzePart {} f 0x306).diagnostics.length = 0 ∧
      (analyzePart {} f 0x30a).diagnostics.length = 1 ∧
      analyzePart {} f 0x303 = analyzePart {} f 0x306 := by
  have hnonempty : (analyze {} relay).routines ≠ [] := by decide +kernel
  have hfound : ∀ f ∈ (analyze {} relay).routines,
      (analyzePart {} f 0x306).routine.callTargets.toList = [0x400] ∧
        (analyzePart {} f 0x30a).routine.callTargets.toList = [0x400, 0x504] ∧
        (analyzePart {} f 0x306).diagnostics.length = 0 ∧
        (analyzePart {} f 0x30a).diagnostics.length = 1 := by decide +kernel
  have hgap : ∀ f ∈ (analyze {} relay).routines, ∀ line ∈ f.lines.toList,
      ∀ address ∈ Line.address? line, ¬ ((0x303 : Int) ≤ address ∧ (address : Int) < 0x306) := by
    decide +kernel
  obtain ⟨f, hf⟩ := List.exists_mem_of_ne_nil _ hnonempty
  have hnested := (analyzePart_nested hf {}).2
  obtain ⟨hearly, hlate, hnone, hone⟩ := hfound f hf
  exact ⟨f, hf, (hnested 0x306 0x30a (by decide)).1, hearly, hlate, hnone, hone,
    (hnested 0x303 0x306 (by decide)).2 (hgap f hf)⟩

end StackDepth
