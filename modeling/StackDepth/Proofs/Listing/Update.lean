import StackDepth.Proofs.Listing.Readings
import StackDepth.Proofs.Listing.SourceText

/-!
# Stack pointer updates as they are written

An update by a number of sixteen bits is written as an instruction for the low byte of the number
and some that follow it: possibly one for the high byte or for a mere carry, and three that write
the stack pointer. Source text may stand between them. The first instruction then reads as an
update by exactly this number, whatever comes behind the last one, and the others have no effect on
the stack. Numbers below the sign bit read as decrements, the others as increments.
-/
namespace StackDepth

/-- The operation leaves the bytes in use and the reserved block of a routine alone. -/
def Operation.isIdle : Operation → Bool
  | call _ | jump _ _ _ | frameLoad _ _ | other => true
  | _ => false

namespace Line

variable {config : Config} {line : String}

/-- The line stays in its routine and leaves the stack alone, whatever lines follow it. -/
def isIdle (config : Config) (line : String) : Bool :=
  !isLabel line && (operation? config line).all Operation.isIdle

theorem isLabel_of_isIdle (h : isIdle config line = true) : isLabel line = false := by
  simpa using (Bool.and_eq_true_iff.1 h).1

theorem isIdle_operationAt (h : isIdle config line = true) {following : List String}
    {operation : Operation} (hoperation : operationAt config line following = some operation) :
    operation.isIdle = true := by
  have hall := (Bool.and_eq_true_iff.1 h).2
  have hlow : ∀ low, operation? config line ≠ some (.stackLow low) := by
    intro low hlow
    rw [hlow] at hall
    cases hall
  rw [operationAt_of_ne_stackLow hlow] at hoperation
  rwa [hoperation] at hall

theorem isIdle_of_isText (config : Config) (h : isText line = true) :
    isIdle config line = true := by
  have hoperation : operation? config line = none := by
    rw [operation?, classify_of_isText config h]
  simp [isIdle, isLabel, (isText_iff.1 h).1, hoperation]

/-- An update does not depend on the text between its instructions. -/
theorem update?_congr (config : Config) (line : String) {following following' : List String}
    (h : codeLines following = codeLines following') :
    update? config line following = update? config line following' := by
  rw [update?, update?, ← nextInstructions_codeLines, h, nextInstructions_codeLines]

end Line

namespace StackPointer

theorem isIdle_of_isLater (config : Config) {line : String} (h : isLater line = true) :
    Line.isIdle config line = true := by
  obtain ⟨address, texts, htexts, -⟩ := exists_laterWord h
  have hlabel : Line.label? line.toList = none := by
    cases hlabel : Line.label? line.toList with
    | none => rfl
    | some label => rw [Line.instruction_of_label hlabel] at htexts; cases htexts
  have hidle : ∀ operation ∈ Line.operation? config line, operation.isIdle = true := by
    intro operation hoperation
    rcases operation?_of_isLater h hoperation with rfl | hcall
    · rfl
    · cases operation with
      | call => rfl
      | _ => cases hcall
  rw [Line.isIdle, Line.isLabel, hlabel]
  simpa [Option.all_eq_true] using hidle

/-! ### The instructions of an update -/

/-- The instructions of an update by an amount. -/
structure Update (config : Config) (amount : Nat) where
  /-- The instruction for the low byte. -/
  low : String
  /-- The instructions behind it. -/
  later : List String
  reads_update : Line.update? config low later = some amount
  isLater_of_mem : ∀ line ∈ later, isLater line = true

namespace Update

variable {config : Config} {n : Nat} (u : Update config n)

def lines : List String := u.low :: u.later

/-- The first instruction reads as the whole update. -/
theorem operationAt_low {lines : List String} (h : Interleaved u.later lines)
    (more : List String) :
    Line.operationAt config u.low (lines ++ more) = some (ofAmount n) := by
  apply Line.operationAt_of_update?
  apply Line.update?_mono (List.prefix_append lines more)
  rw [← Line.update?_congr config u.low h.codeLines_eq]
  exact u.reads_update

example : Line.operationAt {} "602:\tc0 58\tsubi\tr28, 0x80\t; 128"
    ["604:\td1 09\tsbc\tr29, r1", "  uint8_t buffer[128];", "606:\t0f b6\tin\tr0, 0x3f\t; 63",
     "608:\tf8 94\tcli", "60a:\tde bf\tout\t0x3e, r29\t; 62"] = some (.stackDecrement 128) := by
  decide +kernel

end Update
end StackPointer

/-! ### Text around instructions -/

namespace Interleaved

theorem refl (lines : List String) : Interleaved lines lines := by
  induction lines with
  | nil => exact .nil
  | cons line rest ih => exact .keep line ih

theorem mem_or_isText {lines lines' : List String} (h : Interleaved lines lines') {line : String}
    (hline : line ∈ lines') : line ∈ lines ∨ Line.isText line = true := by
  induction h with
  | nil => cases hline
  | keep first _ ih =>
    rcases List.mem_cons.1 hline with rfl | hline
    · exact .inl List.mem_cons_self
    · exact (ih hline).imp_left (List.mem_cons_of_mem _)
  | insert htext _ ih =>
    rcases List.mem_cons.1 hline with rfl | hline
    · exact .inr htext
    · exact ih hline

/-- Before the first line there is only text. -/
theorem exists_split {first : String} {lines lines' : List String}
    (h : Interleaved (first :: lines) lines') :
    ∃ texts rest, lines' = texts ++ first :: rest ∧ (∀ line ∈ texts, Line.isText line = true) ∧
      Interleaved lines rest := by
  generalize hall : first :: lines = all at h
  induction h with
  | nil => cases hall
  | keep line h _ =>
    cases hall
    exact ⟨[], _, rfl, by simp, h⟩
  | @insert line _ _ htext _ ih =>
    obtain ⟨texts, rest, rfl, htexts, hrest⟩ := ih hall
    exact ⟨line :: texts, rest, rfl, List.forall_mem_cons.2 ⟨htext, htexts⟩, hrest⟩

end Interleaved
end StackDepth
