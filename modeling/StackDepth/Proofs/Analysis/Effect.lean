import StackDepth.Proofs.Analysis.Ownership

/-!
# What operations do to a routine

An operation is either applied to the routine that it stands in, or it leaves the routine alone:
because it does not concern the stack, because the pass does not follow releases, or because its
effect cannot be told. `Routine.Applies` lists all that an applied operation can do. A register
save and a stack pointer decrement do the same thing, they reserve a block, and differ only in how
its size is found.
-/
namespace StackDepth

namespace Routine

/-- The bytes that an operation is to reserve in the routine, if it is a reservation. -/
def reservation? (config : Config) (r : Routine) : Operation → Option Int
  | .registerSave offset =>
    match findLoads config {} r.lines.toList.reverse with
    | .ok ⟨some low, some high⟩ => some (savedBytes config low high offset)
    | _ => none
  | .stackDecrement amount =>
    if (amount : Int) < config.reserveThreshold then none else some amount
  | _ => none

/-- An operation is applied to the routine and turns it into another one, perhaps with a warning. -/
inductive Applies (config : Config) (mode : PassMode) (r : Routine) :
    Operation → Routine → Option LineWarning → Prop
  | push : Applies config mode r .push { r with stackUsed := r.stackUsed + 1 } none
  | selfCall : Applies config mode r .selfCall
      { r with stackUsed := r.stackUsed + config.returnAddressBytes } none
  | reserve {operation : Operation} {amount : Int} :
      r.reservation? config operation = some amount → r.reserved = 0 →
      Applies config mode r operation
        { r with stackUsed := r.stackUsed + amount, reserved := amount } none
  | call (target : Nat) : Applies config mode r (.call target) (r.addTarget target) none
  | jump (target : Nat) (name : String) (offset : Option Nat) (warning : Option LineWarning) :
      Applies config mode r (.jump target name offset) (r.addTarget target) warning
  | pop : mode.follows = true →
      Applies config mode r .pop { r with stackUsed := r.stackUsed - 1 } none
  | release {amount : Nat} {warning : Option LineWarning} : mode.follows = true →
      (config.releaseModulus - amount ≠ r.reserved →
        ∃ released held, warning = some (.releaseMismatch r.name released held)) →
      Applies config mode r (.stackIncrement amount)
        { r with stackUsed := r.stackUsed - (config.releaseModulus - amount), reserved := 0 }
        warning
  | restore (offset : Option Nat) : mode.follows = true →
      Applies config mode r (.registerRestore offset)
        { r with stackUsed := r.stackUsed - r.reserved, reserved := 0 } none

variable {config : Config} {mode : PassMode} {r after : Routine} {warning : Option LineWarning}

theorem reserve_changed {amount : Int} (h : r.reserve amount = .changed after warning) :
    r.reserved = 0 ∧ warning = none ∧
      after = { r with stackUsed := r.stackUsed + amount, reserved := amount } := by
  unfold reserve at h
  split at h
  · rename_i hreserved
    cases h
    exact ⟨hreserved, rfl, rfl⟩
  · split at h <;> cases h

/-- A reservation is treated the same way, however its size was found. -/
theorem operate_reservation (mode : PassMode) {operation : Operation} {amount : Int}
    (h : r.reservation? config operation = some amount) :
    r.operate config mode operation = r.reserve amount := by
  cases operation with
  | registerSave offset =>
    rw [operate, saveRegisters]
    rw [reservation?] at h
    split at h
    · rename_i hloads
      cases h
      rw [hloads]
    · cases h
  | stackDecrement n =>
    rw [reservation?] at h
    split at h
    · cases h
    · rename_i hthreshold
      cases h
      rw [operate, if_neg hthreshold]
  | _ => cases h

theorem operate_registerSave_none {offset : Option Nat}
    (h : r.reservation? config (.registerSave offset) = none) :
    r.operate config mode (.registerSave offset) ≠ .changed after warning := by
  rw [operate, saveRegisters]
  intro hchanged
  rw [reservation?] at h
  cases hloads : findLoads config {} r.lines.toList.reverse with
  | error e => rw [hloads] at hchanged; cases hchanged
  | ok loads =>
    rw [hloads] at h hchanged
    obtain ⟨low, high⟩ := loads
    cases low with
    | none => cases hchanged
    | some low =>
      cases high with
      | none => cases hchanged
      | some high => cases h

theorem applies_of_reserve {operation : Operation} {amount : Int}
    (hreservation : r.reservation? config operation = some amount)
    (h : r.operate config mode operation = .changed after warning) :
    Applies config mode r operation after warning := by
  rw [operate_reservation mode hreservation] at h
  obtain ⟨hreserved, rfl, rfl⟩ := reserve_changed h
  exact .reserve hreservation hreserved

theorem applies_of_jump {target : Nat} {name : String} {offset : Option Nat}
    (h : r.jump config target name offset = .changed after warning) :
    Applies config mode r (.jump target name offset) after warning := by
  unfold jump at h
  split at h
  · cases h
  · cases h
    exact .jump target name offset _

theorem applies_of_release {amount : Nat} (hmode : mode.follows = true)
    (h : r.release config amount = .changed after warning) :
    Applies config mode r (.stackIncrement amount) after warning := by
  unfold release at h
  simp only at h
  split at h
  · rename_i hreleased
    cases h
    exact .release hmode fun hne => absurd hreleased hne
  · split at h
    · rename_i released held _ _
      cases h
      exact .release hmode fun _ => ⟨released, held, rfl⟩
    · cases h
    · cases h

/-- All that an operation can change. -/
theorem applies_of_operate {operation : Operation}
    (h : r.operate config mode operation = .changed after warning) :
    Applies config mode r operation after warning := by
  cases operation with
  | push => cases h; exact .push
  | selfCall => cases h; exact .selfCall
  | call target => cases h; exact .call target
  | jump target name offset => exact applies_of_jump h
  | registerSave offset =>
    cases hreservation : r.reservation? config (.registerSave offset) with
    | none => exact absurd h (operate_registerSave_none hreservation)
    | some amount => exact applies_of_reserve hreservation h
  | stackDecrement n =>
    cases hreservation : r.reservation? config (.stackDecrement n) with
    | some amount => exact applies_of_reserve hreservation h
    | none =>
      rw [reservation?] at hreservation
      split at hreservation
      · rename_i hthreshold
        rw [operate, if_pos hthreshold] at h
        cases h
      · cases hreservation
  | stackIncrement n =>
    rw [operate] at h
    split at h
    · rename_i hmode
      exact applies_of_release hmode h
    · cases h
  | pop =>
    rw [operate] at h
    split at h
    · rename_i hmode
      cases h
      exact .pop hmode
    · cases h
  | registerRestore offset =>
    rw [operate] at h
    split at h
    · rename_i hmode
      cases h
      exact .restore offset hmode
    · cases h
  | frameLoad | stackLow | other => cases h

end Routine
end StackDepth
