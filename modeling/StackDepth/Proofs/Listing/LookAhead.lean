import Mathlib.Data.List.TakeWhile
import StackDepth.Proofs.Listing.Label

/-!
# Looking ahead along a stack pointer update

The look ahead from the first instruction of an update does not stop at labels. If the lines of a
routine are taken alone, the update may therefore lack instructions that the listing has behind
the next label. Nothing else can change: what the lines up to the label settle stays settled, and
an update that they leave open reads as an instruction without effect.
-/
namespace StackDepth

namespace Line

def isLabel (line : String) : Bool := (label? line.toList).isSome

theorem isLabel_eq_false {line : String} : isLabel line = false ↔ label? line.toList = none := by
  simp [isLabel]

/-- The operation that a line stands for by itself. -/
def operation? (config : Config) (line : String) : Option Operation :=
  match classify config line with
  | .ok (.instruction _ operation) => some operation
  | _ => none

/-- The operation that a line stands for in view of the lines behind it, if it is an instruction
that can be read. -/
def operationAt (config : Config) (line : String) (following : List String) : Option Operation :=
  match classifyAt config line following with
  | .ok (.instruction _ operation) => some operation
  | _ => none

end Line

/-- The lines before the next label. -/
def untilLabel (lines : List String) : List String := lines.takeWhile (!Line.isLabel ·)

theorem isPrefix_untilLabel (lines : List String) : untilLabel lines <+: lines :=
  List.takeWhile_prefix _

theorem untilLabel_label {line : String} (h : Line.isLabel line = true) (rest : List String) :
    untilLabel (line :: rest) = [] := by
  simp [untilLabel, h]

theorem untilLabel_body {line : String} (h : Line.isLabel line = false) (rest : List String) :
    untilLabel (line :: rest) = line :: untilLabel rest := by
  simp [untilLabel, h]

theorem isLabel_of_mem_untilLabel {line : String} {lines : List String}
    (h : line ∈ untilLabel lines) : Line.isLabel line = false := by
  simpa using List.mem_takeWhile_imp h

theorem untilLabel_of_no_label {lines : List String}
    (h : ∀ line ∈ lines, Line.isLabel line = false) : untilLabel lines = lines := by
  rw [untilLabel, List.takeWhile_eq_self_iff]
  simpa using h

@[simp] theorem untilLabel_untilLabel (lines : List String) :
    untilLabel (untilLabel lines) = untilLabel lines :=
  untilLabel_of_no_label fun _ => isLabel_of_mem_untilLabel

namespace StackPointer

theorem nextInstructions_mono (count : Nat) {lines more : List String} (h : lines <+: more) :
    nextInstructions count lines <+: nextInstructions count more := by
  induction lines generalizing count more with
  | nil => cases count <;> exact List.nil_prefix
  | cons line rest ih =>
    obtain ⟨tail, rfl⟩ := h
    cases count with
    | zero => exact List.nil_prefix
    | succ count =>
      rw [List.cons_append, nextInstructions, nextInstructions]
      split
      · exact (List.prefix_cons_inj line).2 (ih count (List.prefix_append rest tail))
      · exact ih (count + 1) (List.prefix_append rest tail)

theorem writesPointer_mono {next more : List String} (h : next <+: more)
    (hwrites : writesPointer next = true) : writesPointer more = true := by
  obtain ⟨tail, rfl⟩ := h
  match next with
  | a :: b :: c :: rest => exact hwrites

/-- More instructions only settle what is open. -/
theorem amount_settled (low : Nat) {next more : List String} (h : next <+: more) :
    amount low next = .ok none ∨ amount low more = amount low next := by
  obtain ⟨tail, rfl⟩ := h
  cases next with
  | nil => exact .inl rfl
  | cons first rest =>
    have hrest : writesPointer rest = false ∨
        writesPointer (rest ++ tail) = writesPointer rest := by
      cases hwrites : writesPointer rest with
      | false => exact .inl rfl
      | true => exact .inr (writesPointer_mono (List.prefix_append rest tail) hwrites)
    have hall : writesPointer (first :: rest) = false ∨
        writesPointer (first :: (rest ++ tail)) = writesPointer (first :: rest) := by
      cases hwrites : writesPointer (first :: rest) with
      | false => exact .inl rfl
      | true => exact .inr (writesPointer_mono (List.prefix_append (first :: rest) tail) hwrites)
    rw [List.cons_append, amount, amount]
    cases isCarry first with
    | true => rcases hrest with hrest | hrest <;> simp [hrest]
    | false =>
      cases highDigits first with
      | none => rcases hall with hall | hall <;> simp [hall]
      | some digits =>
        simp only [bind, Except.bind]
        cases Text.Numeral.decimal digits with
        | error e => exact .inr rfl
        | ok high => rcases hrest with hrest | hrest <;> simp [hrest]

/-- What an update that begins with the low byte does. -/
def operation? (low : Nat) (following : List String) : Option Operation :=
  match amount low (nextInstructions 4 following) with
  | .ok found => some ((found.map ofAmount).getD .other)
  | .error _ => none

theorem operation?_cases {low : Nat} {following : List String} {operation : Operation}
    (h : operation? low following = some operation) :
    operation = .other ∨ (∃ amount, operation = .stackDecrement amount) ∨
      ∃ amount, operation = .stackIncrement amount := by
  unfold operation? at h
  split at h
  · rename_i found _
    cases h
    cases found with
    | none => exact .inl rfl
    | some amount =>
      simp only [Option.map_some, Option.getD_some, ofAmount]
      split
      · exact .inr (.inr ⟨amount, rfl⟩)
      · exact .inr (.inl ⟨amount, rfl⟩)
  · cases h

theorem operation?_settled (low : Nat) {following more : List String} (h : following <+: more) :
    operation? low following = some .other ∨ operation? low more = operation? low following := by
  unfold operation?
  rcases amount_settled low (nextInstructions_mono 4 h) with hopen | hsettled
  · rw [hopen]
    exact .inl rfl
  · rw [hsettled]
    exact .inr rfl

end StackPointer

namespace Line

variable {config : Config} {line : String}

theorem operationAt_of_stackLow {low : Nat}
    (h : operation? config line = some (.stackLow low)) (following : List String) :
    operationAt config line following = StackPointer.operation? low following := by
  unfold operation? at h
  unfold operationAt classifyAt StackPointer.operation?
  split at h
  · rename_i hread
    cases h
    rw [hread]
    simp only [bind, Except.bind, pure, Except.pure]
    cases StackPointer.amount low (StackPointer.nextInstructions 4 following) with
    | error e => rfl
    | ok found => rfl
  · cases h

/-- The number of sixteen bits by which the stack pointer update that starts at the line moves the
stack pointer down. -/
def update? (config : Config) (line : String) (following : List String) : Option Nat :=
  match operation? config line with
  | some (.stackLow low) =>
    match StackPointer.amount low (StackPointer.nextInstructions 4 following) with
    | .ok found => found
    | .error _ => none
  | _ => none

theorem update?_eq_some_iff {following : List String} {n : Nat} :
    update? config line following = some n ↔
      ∃ low, operation? config line = some (.stackLow low) ∧
        StackPointer.amount low (StackPointer.nextInstructions 4 following) = .ok (some n) := by
  constructor
  · intro h
    unfold update? at h
    split at h
    · rename_i low hlow
      refine ⟨low, hlow, ?_⟩
      split at h
      · rename_i found hfound
        rw [hfound, h]
      · cases h
    · cases h
  · rintro ⟨low, hlow, hamount⟩
    simp only [update?, hlow, hamount]

theorem operationAt_of_update? {following : List String} {n : Nat}
    (h : update? config line following = some n) :
    operationAt config line following = some (StackPointer.ofAmount n) := by
  obtain ⟨low, hlow, hamount⟩ := update?_eq_some_iff.1 h
  rw [operationAt_of_stackLow hlow, StackPointer.operation?, hamount]
  rfl

/-- Lines behind an update do not change it. -/
theorem update?_mono {following more : List String} {n : Nat} (hmore : following <+: more)
    (h : update? config line following = some n) : update? config line more = some n := by
  obtain ⟨low, hlow, hamount⟩ := update?_eq_some_iff.1 h
  refine update?_eq_some_iff.2 ⟨low, hlow, ?_⟩
  rcases StackPointer.amount_settled low (StackPointer.nextInstructions_mono 4 hmore) with
    hopen | hsettled
  · rw [hopen] at hamount
    cases hamount
  · rw [hsettled, hamount]

theorem operationAt_of_ne_stackLow (h : ∀ low, operation? config line ≠ some (.stackLow low))
    (following : List String) :
    operationAt config line following = operation? config line := by
  unfold operation? at h ⊢
  unfold operationAt classifyAt
  cases hread : classify config line with
  | error e => rfl
  | ok found =>
    rw [hread] at h
    cases found with
    | instruction address operation =>
      cases operation with
      | stackLow low => exact absurd rfl (h low)
      | _ => rfl
    | _ => rfl

/-- An operation other than those of updates shows in the line alone. -/
theorem operationAt_eq_some_iff {operation : Operation} (following : List String)
    (hlow : ∀ low, operation ≠ .stackLow low) (hother : operation ≠ .other)
    (hamount : ∀ amount, operation ≠ StackPointer.ofAmount amount) :
    operationAt config line following = some operation ↔
      operation? config line = some operation := by
  by_cases h : ∃ low, operation? config line = some (.stackLow low)
  · obtain ⟨low, h⟩ := h
    have hne : StackPointer.operation? low following ≠ some operation := by
      unfold StackPointer.operation?
      split
      · rename_i found _
        cases found with
        | none => simpa using hother.symm
        | some amount => simpa using (hamount amount).symm
      · simp
    rw [operationAt_of_stackLow h, h]
    simpa [hne] using (hlow low).symm
  · rw [operationAt_of_ne_stackLow fun low hlow => h ⟨low, hlow⟩]

/-- Lines behind the next label matter only to an update that is open there. -/
theorem operationAt_untilLabel (config : Config) (line : String) (following : List String) :
    operationAt config line (untilLabel following) = operationAt config line following ∨
      operationAt config line (untilLabel following) = some .other ∧
        ∃ low, operation? config line = some (.stackLow low) := by
  by_cases h : ∃ low, operation? config line = some (.stackLow low)
  · obtain ⟨low, h⟩ := h
    rw [operationAt_of_stackLow h, operationAt_of_stackLow h]
    rcases StackPointer.operation?_settled low (isPrefix_untilLabel following) with hopen | hsettled
    · exact .inr ⟨hopen, low, h⟩
    · exact .inl hsettled.symm
  · have hne := fun low hlow => h ⟨low, hlow⟩
    left
    rw [operationAt_of_ne_stackLow hne, operationAt_of_ne_stackLow hne]

end Line
end StackDepth
