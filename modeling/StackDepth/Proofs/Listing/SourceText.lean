import StackDepth.Analysis.Pass
import StackDepth.Proofs.Listing.Label

/-!
# Source text in a listing

A listing may hold lines of source text between its labels and instructions. Both ways of looking
at neighbouring lines pass over them: the look ahead along a stack pointer update, and the look
back for the loads of a frame size. So each of them finds the same in a listing and in its code
lines alone, and listings with the same code lines are read alike.
-/
namespace StackDepth

open Text

namespace Line

/-- The line is neither a label nor an instruction. -/
def isText (line : String) : Bool := (label? line.toList).isNone && (address? line).isNone

theorem isText_iff {line : String} :
    isText line = true ↔ label? line.toList = none ∧ address? line = none := by
  simp [isText]

theorem classify_of_isText (config : Config) {line : String} (h : isText line = true) :
    classify config line = .ok .text := by
  obtain ⟨hlabel, haddress⟩ := isText_iff.1 h
  have hinstruction : Scan.instruction line.toList = none := by
    simpa [address?] using haddress
  simp only [classify, classifyBy, hlabel, hinstruction]

end Line

/-- The labels and instructions of a listing. -/
def codeLines (lines : List String) : List String := lines.filter (!Line.isText ·)

theorem codeLines_cons_text {line : String} (h : Line.isText line = true) (lines : List String) :
    codeLines (line :: lines) = codeLines lines := by
  simp [codeLines, h]

theorem codeLines_cons_code {line : String} (h : Line.isText line = false) (lines : List String) :
    codeLines (line :: lines) = line :: codeLines lines := by
  simp [codeLines, h]

@[simp] theorem codeLines_append (lines more : List String) :
    codeLines (lines ++ more) = codeLines lines ++ codeLines more :=
  List.filter_append ..

theorem codeLines_reverse (lines : List String) :
    codeLines lines.reverse = (codeLines lines).reverse :=
  List.filter_reverse ..

@[simp] theorem codeLines_codeLines (lines : List String) :
    codeLines (codeLines lines) = codeLines lines := by
  simp [codeLines]

/-- The second listing comes from the first by inserting lines of text at any positions. -/
inductive Interleaved : List String → List String → Prop
  | nil : Interleaved [] []
  | keep (line : String) {lines lines' : List String} :
      Interleaved lines lines' → Interleaved (line :: lines) (line :: lines')
  | insert {line : String} {lines lines' : List String} :
      Line.isText line = true → Interleaved lines lines' → Interleaved lines (line :: lines')

theorem Interleaved.codeLines_eq {lines lines' : List String} (h : Interleaved lines lines') :
    codeLines lines = codeLines lines' := by
  induction h with
  | nil => rfl
  | keep line _ ih =>
    cases hline : Line.isText line with
    | true => rw [codeLines_cons_text hline, codeLines_cons_text hline, ih]
    | false => rw [codeLines_cons_code hline, codeLines_cons_code hline, ih]
  | insert hline _ ih => rw [codeLines_cons_text hline, ih]

/-! ### Looking ahead -/

theorem nextInstructions_codeLines (count : Nat) (lines : List String) :
    StackPointer.nextInstructions count (codeLines lines) =
      StackPointer.nextInstructions count lines := by
  induction lines generalizing count with
  | nil => rfl
  | cons line rest ih =>
    cases count with
    | zero => simp [StackPointer.nextInstructions]
    | succ count =>
      cases hline : Line.isText line with
      | true =>
        have haddress := (Line.isText_iff.1 hline).2
        simp [codeLines_cons_text hline, StackPointer.nextInstructions, haddress, ih]
      | false =>
        rw [codeLines_cons_code hline, StackPointer.nextInstructions,
          StackPointer.nextInstructions, ih, ih]

theorem Line.classifyAt_codeLines (config : Config) (line : String) (following : List String) :
    classifyAt config line (codeLines following) = classifyAt config line following := by
  simp only [classifyAt, nextInstructions_codeLines]

/-- How a line reads does not depend on the text behind it. -/
theorem Line.classifyAt_congr (config : Config) (line : String) {following following' : List String}
    (h : codeLines following = codeLines following') :
    classifyAt config line following = classifyAt config line following' := by
  rw [← classifyAt_codeLines, h, classifyAt_codeLines]

theorem Line.classifyAt_of_isText (config : Config) {line : String} (h : isText line = true)
    (following : List String) : classifyAt config line following = .ok .text := by
  simp [classifyAt, classify_of_isText config h, bind, Except.bind, pure, Except.pure]

/-! ### Looking back -/

namespace Routine

theorem findLoads_of_known (config : Config) {loads : FrameLoads}
    (h : (loads.low.isSome && loads.high.isSome) = true) (lines : List String) :
    findLoads config loads lines = .ok loads := by
  cases lines with
  | nil => rfl
  | cons line earlier => rw [findLoads, if_pos h]

theorem findLoads_codeLines (config : Config) (loads : FrameLoads) (lines : List String) :
    findLoads config loads (codeLines lines) = findLoads config loads lines := by
  induction lines generalizing loads with
  | nil => rfl
  | cons line earlier ih =>
    cases hknown : loads.low.isSome && loads.high.isSome with
    | true => rw [findLoads_of_known config hknown, findLoads_of_known config hknown]
    | false =>
      cases hline : Line.isText line with
      | true =>
        rw [codeLines_cons_text hline, ih]
        simp [findLoads, hknown, Line.classify_of_isText config hline]
      | false =>
        rw [codeLines_cons_code hline, findLoads, findLoads]
        simp only [ih]

/-- The loads found do not depend on the text between them. -/
theorem findLoads_congr (config : Config) {lines lines' : List String}
    (h : codeLines lines = codeLines lines') :
    findLoads config {} lines.reverse = findLoads config {} lines'.reverse := by
  rw [← findLoads_codeLines, codeLines_reverse, h, ← codeLines_reverse, findLoads_codeLines]

end Routine
end StackDepth
