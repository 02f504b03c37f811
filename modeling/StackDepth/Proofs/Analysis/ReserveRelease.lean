import Mathlib
import StackDepth.Proofs.Analysis.Accounting
import StackDepth.Proofs.Listing.Update

/-!
# Blocks that are reserved and given back

A bounded pass that goes through a reservation and the release that belongs to it ends with
nothing reserved and with the bytes in use that the lines in between account for. This holds for
stack pointer updates, where the release is written as the negative of the reservation in sixteen
bits, and for the helpers that save and restore registers, where the release says nothing about
its size.

Along a pass we keep track of three things (`PassState.Holds`): the bytes in use apart from the
reserved block, the reserved block, and the releases that were reported as wrong. The first moves
with pushes, pops and calls to the next instruction only, as long as the releases fit.
-/
namespace StackDepth

open StackPointer

/-! ### Passing a part of a listing -/

namespace PassState

variable {config : Config} {mode : PassMode}

/-- The state behind some lines of a listing, given the lines that follow them. -/
def through (config : Config) (mode : PassMode) :
    PassState → List String → List String → PassState
  | s, [], _ => s
  | s, line :: rest, after =>
    through config mode (s.step config mode line (rest ++ after)) rest after

theorem through_append (s : PassState) (lines more after : List String) :
    s.through config mode (lines ++ more) after =
      (s.through config mode lines (more ++ after)).through config mode more after := by
  induction lines generalizing s with
  | nil => rfl
  | cons line rest ih =>
    rw [List.cons_append, through, through, ih, List.append_assoc]

theorem run_append {lines : List String} (h : ∀ line ∈ lines, mode.endsBefore line = false)
    (s : PassState) (after : List String) :
    s.run config mode (lines ++ after) =
      (s.through config mode lines after).run config mode after := by
  induction lines generalizing s with
  | nil => rfl
  | cons line rest ih =>
    obtain ⟨hline, hrest⟩ := List.forall_mem_cons.1 h
    rw [List.cons_append, run, if_neg (by simp [hline]), through, ih hrest]

end PassState

/-! ### What lines account for -/

theorem Line.isLabel_of_operationAt {config : Config} {line : String} {following : List String}
    {operation : Operation} (h : operationAt config line following = some operation) :
    isLabel line = false := by
  cases hlabel : label? line.toList with
  | none => exact isLabel_eq_false.2 hlabel
  | some label =>
    rw [operationAt, classifyAt_of_label config hlabel] at h
    cases h

/-- How many of the lines stand for the operation. -/
def operationCount (config : Config) (operation : Operation) (lines : List String) : Nat :=
  lines.countP fun line => Line.operation? config line = some operation

/-- The bytes that lines put on the stack, less those that they take off it, apart from blocks. -/
def netBytes (config : Config) (lines : List String) : Int :=
  operationCount config .push lines - operationCount config .pop lines +
    config.returnAddressBytes * operationCount config .selfCall lines

@[simp] theorem netBytes_nil (config : Config) : netBytes config [] = 0 := by
  simp [netBytes, operationCount]

theorem netBytes_cons (config : Config) (line : String) (rest : List String) :
    netBytes config (line :: rest) = netBytes config [line] + netBytes config rest := by
  simp only [netBytes, operationCount, List.countP_cons, List.countP_nil]
  push_cast
  ring

theorem netBytes_of_not_counted {config : Config} {line : String} {following : List String}
    (h : ∀ operation, Line.operationAt config line following = some operation →
      operation.isCounted (.bounded 0) = false) : netBytes config [line] = 0 := by
  have hne : ∀ operation : Operation, operation.isCounted (.bounded 0) = true →
      Line.operation? config line ≠ some operation := by
    intro operation hcounted hoperation
    have hread := (Line.operationAt_of_isCounted hcounted following).2 hoperation
    rw [h operation hread] at hcounted
    cases hcounted
  simp [netBytes, operationCount, hne .push rfl, hne .pop rfl, hne .selfCall rfl]

/-- The operation neither reserves a block nor gives one back. -/
def Operation.keepsBlock (config : Config) : Operation → Bool
  | registerSave _ | registerRestore _ | stackIncrement _ => false
  | stackDecrement amount => (amount : Int) < config.reserveThreshold
  | _ => true

theorem Operation.keepsBlock_of_isIdle (config : Config) {operation : Operation}
    (h : operation.isIdle = true) : operation.keepsBlock config = true := by
  cases operation with
  | call | jump | frameLoad | other => rfl
  | _ => cases h

theorem Operation.isCounted_of_isIdle (mode : PassMode) {operation : Operation}
    (h : operation.isIdle = true) : operation.isCounted mode = false := by
  cases operation with
  | call | jump | frameLoad | other => rfl
  | _ => cases h

/-- Among the lines are no labels and nothing that reserves a block or gives one back, given the
lines that follow them. -/
def leavesBlock (config : Config) : List String → List String → Bool
  | [], _ => true
  | line :: rest, after =>
    !Line.isLabel line &&
      (Line.operationAt config line (rest ++ after)).all (Operation.keepsBlock config) &&
      leavesBlock config rest after

/-! ### One line -/

namespace Routine

variable {config : Config} {stop : Int} {r : Routine} {line : String} {following : List String}

/-- The line is no release, or it gives back exactly what is reserved. -/
def Fits (config : Config) (r : Routine) (line : String) (following : List String) : Prop :=
  ∀ amount : Nat, Line.operationAt config line following = some (.stackIncrement amount) →
    config.releaseModulus - amount = r.reserved

theorem Fits.totalDrift {mode : PassMode} (h : r.Fits config line following) :
    totalDrift config (r.applied? config mode line following).toList = 0 := by
  apply totalDrift_eq_zero
  intro a ha
  obtain ⟨after, warning, hheld, hoperation, -⟩ := applied?_eq_some (Option.mem_toList.1 ha)
  unfold Applied.drift
  split
  · rename_i amount hamount
    rw [hamount] at hoperation
    rw [hheld, h amount hoperation, sub_self]
  · rfl

/-- Apart from the reserved block, a line that fits moves the bytes in use by what it accounts
for. -/
theorem Fits.balance (h : r.Fits config line following) :
    (r.pass config (.bounded stop) line following).stackUsed -
        (r.pass config (.bounded stop) line following).reserved =
      r.stackUsed - r.reserved + netBytes config [line] := by
  rw [balance_pass, sum_net, applications_applied? rfl, applications_applied? rfl,
    applications_applied? rfl, h.totalDrift]
  simp [netBytes, operationCount, List.countP_singleton]

theorem reserved_pass_of_keepsBlock (mode : PassMode)
    (h : ∀ operation, Line.operationAt config line following = some operation →
      operation.keepsBlock config = true) :
    (r.pass config mode line following).reserved = r.reserved := by
  cases hchange : r.change? config mode line following with
  | none => rw [pass_of_no_change hchange]
  | some after =>
    obtain ⟨operation, warning, hoperation, hchanged⟩ := change?_eq_some hchange
    have hkeeps := h operation hoperation
    rw [pass_of_change hchange]
    cases applies_of_operate hchanged with
    | push | selfCall | call | jump | pop => rfl
    | release | restore => cases hkeeps
    | reserve hreservation =>
      cases operation with
      | stackDecrement amount =>
        simp [reservation?, of_decide_eq_true hkeeps] at hreservation
      | registerSave => cases hkeeps
      | _ => cases hreservation

theorem reserved_pass_of_stackDecrement (mode : PassMode) {amount : Nat}
    (h : Line.operationAt config line following = some (.stackDecrement amount))
    (hthreshold : config.reserveThreshold ≤ amount) (hreserved : r.reserved = 0) :
    (r.pass config mode line following).reserved = amount := by
  have hoperate : r.operate config mode (.stackDecrement amount) =
      .changed { r with stackUsed := r.stackUsed + amount, reserved := amount } none := by
    rw [operate, if_neg (not_lt.2 hthreshold), reserve, if_pos hreserved]
  rw [pass_of_operate h hoperate]

theorem reserved_pass_of_stackIncrement {amount : Nat}
    (h : Line.operationAt config line following = some (.stackIncrement amount))
    (hfits : r.Fits config line following) :
    (r.pass config (.bounded stop) line following).reserved = 0 := by
  have hoperate : r.operate config (.bounded stop) (.stackIncrement amount) =
      .changed { r with stackUsed := r.stackUsed - (config.releaseModulus - amount),
                        reserved := 0 } none := by
    rw [operate, if_pos (by rfl), release, if_pos (hfits amount h)]
  rw [pass_of_operate h hoperate]

theorem reserved_pass_of_registerRestore {offset : Option Nat}
    (h : Line.operationAt config line following = some (.registerRestore offset)) :
    (r.pass config (.bounded stop) line following).reserved = 0 := by
  have hoperate : r.operate config (.bounded stop) (.registerRestore offset) =
      .changed { r with stackUsed := r.stackUsed - r.reserved, reserved := 0 } none := rfl
  rw [pass_of_operate h hoperate]

theorem jump_ne_releaseMismatch {target : Nat} {name : String} {offset : Option Nat}
    {after : Routine} {routine released held : String} :
    r.jump config target name offset ≠
      .changed after (some (.releaseMismatch routine released held)) := by
  unfold jump
  split
  · simp
  · split <;> simp

/-- Only a release that does not fit is reported as one. -/
theorem exists_release_of_mismatch {mode : PassMode} {operation : Operation} {after : Routine}
    {routine released held : String}
    (h : r.operate config mode operation =
      .changed after (some (.releaseMismatch routine released held))) :
    ∃ amount, operation = .stackIncrement amount ∧
      config.releaseModulus - amount ≠ r.reserved := by
  cases applies_of_operate h with
  | jump => exact absurd h jump_ne_releaseMismatch
  | @release amount _ hmode _ =>
    refine ⟨amount, rfl, ?_⟩
    intro hsame
    rw [operate, if_pos hmode, release, if_pos hsame] at h
    cases h

end Routine

namespace PassState

variable {config : Config} {mode : PassMode} {stop : Int} {s : PassState} {line : String}
variable {following : List String}

/-- The releases that were reported as wrong. -/
def mismatches (s : PassState) : Log := Log.byCode s.diagnostics "release-mismatch"

theorem byCode_diagnose (s : PassState) (line : String) {reaction : Reaction}
    (h : ∀ after routine released held,
      reaction ≠ .changed after (some (.releaseMismatch routine released held))) :
    Log.byCode (s.diagnose line reaction) "release-mismatch" = [] := by
  cases reaction with
  | ignored => rfl
  | faulted fault => cases fault <;> rfl
  | opened routine clash =>
    cases clash with
    | none => rfl
    | some fault => cases fault <;> rfl
  | changed after warning =>
    cases warning with
    | none => rfl
    | some warning =>
      cases warning with
      | tailJumpOffset => rfl
      | releaseMismatch routine released held => exact absurd rfl (h _ _ _ _)

theorem mismatches_step {r : Routine} {earlier : List Routine} (hopened : s.opened = r :: earlier)
    (hfits : r.Fits config line following) :
    (s.step config mode line following).mismatches = s.mismatches := by
  have hquiet : Log.byCode (s.diagnose line (s.react config mode line following))
      "release-mismatch" = [] := by
    apply byCode_diagnose
    intro after routine released held hreact
    cases hoperation : Line.operationAt config line following with
    | none =>
      unfold Line.operationAt at hoperation
      unfold react at hreact
      split at hreact
      · cases hreact
      · cases hreact
      · rename_i hread
        rw [hread] at hoperation
        cases hoperation
      · cases hreact
    | some operation =>
      rw [react_of_operationAt mode hopened hoperation] at hreact
      obtain ⟨amount, rfl, hne⟩ := Routine.exists_release_of_mismatch hreact
      exact hne (hfits amount hoperation)
  rw [mismatches, step, Log.byCode_append, hquiet, List.append_nil, mismatches]

/-- The pass is in a routine with a reserved block and a number of bytes in use besides it. -/
structure Holds (s : PassState) (earlier : List Routine) (log : Log) (besides reserved : Int) :
    Prop where
  current : ∃ r, s.opened = r :: earlier ∧ r.stackUsed - r.reserved = besides ∧
    r.reserved = reserved
  mismatches : s.mismatches = log

variable {earlier : List Routine} {log : Log} {besides reserved : Int}

variable (stop)

theorem Holds.step (h : s.Holds earlier log besides reserved) (hlabel : Line.isLabel line = false)
    (hfits : ∀ amount : Nat, Line.operationAt config line following =
      some (.stackIncrement amount) → config.releaseModulus - amount = reserved) :
    ∃ r : Routine, r.reserved = reserved ∧ r.Fits config line following ∧
      (s.step config (.bounded stop) line following).Holds earlier log
        (besides + netBytes config [line])
        (r.pass config (.bounded stop) line following).reserved := by
  obtain ⟨⟨r, hopened, rfl, rfl⟩, hlog⟩ := h
  refine ⟨r, rfl, hfits, ?_, ?_⟩
  · exact ⟨_, step_pass config (.bounded stop) hlabel hopened following,
      Routine.Fits.balance hfits, rfl⟩
  · rw [mismatches_step hopened hfits, hlog]

theorem Holds.keep (h : s.Holds earlier log besides reserved) (hlabel : Line.isLabel line = false)
    (hkeeps : ∀ operation, Line.operationAt config line following = some operation →
      operation.keepsBlock config = true) :
    (s.step config (.bounded stop) line following).Holds earlier log
      (besides + netBytes config [line]) reserved := by
  have hfits : ∀ amount : Nat, Line.operationAt config line following =
      some (.stackIncrement amount) → config.releaseModulus - amount = reserved :=
    fun amount hoperation => absurd (hkeeps _ hoperation) (by simp [Operation.keepsBlock])
  obtain ⟨r, rfl, -, hstep⟩ := h.step stop hlabel hfits
  rwa [Routine.reserved_pass_of_keepsBlock _ hkeeps] at hstep

/-- An operation on blocks leaves the bytes besides the block alone, if it fits. -/
theorem Holds.block (h : s.Holds earlier log besides reserved) {operation : Operation}
    (hoperation : Line.operationAt config line following = some operation)
    (hcounted : operation.isCounted (.bounded 0) = false)
    (hfits : ∀ amount : Nat, operation = .stackIncrement amount →
      config.releaseModulus - amount = reserved) :
    ∃ r : Routine, r.reserved = reserved ∧ r.Fits config line following ∧
      (s.step config (.bounded stop) line following).Holds earlier log besides
        (r.pass config (.bounded stop) line following).reserved := by
  have hnet : netBytes config [line] = 0 := by
    apply netBytes_of_not_counted
    intro found hfound
    rw [hoperation, Option.some.injEq] at hfound
    rwa [← hfound]
  obtain ⟨r, hreserved, hr, hstep⟩ := h.step stop (Line.isLabel_of_operationAt hoperation)
    fun amount hamount => hfits amount (Option.some.inj (hoperation.symm.trans hamount))
  rw [hnet, add_zero] at hstep
  exact ⟨r, hreserved, hr, hstep⟩

theorem Holds.reserve (h : s.Holds earlier log besides 0) {amount : Nat}
    (hoperation : Line.operationAt config line following = some (.stackDecrement amount))
    (hthreshold : config.reserveThreshold ≤ amount) :
    (s.step config (.bounded stop) line following).Holds earlier log besides amount := by
  obtain ⟨r, hreserved, -, hstep⟩ := h.block stop hoperation rfl (by simp)
  rwa [Routine.reserved_pass_of_stackDecrement _ hoperation hthreshold hreserved] at hstep

theorem Holds.release (h : s.Holds earlier log besides reserved) {amount : Nat}
    (hoperation : Line.operationAt config line following = some (.stackIncrement amount))
    (hfits : config.releaseModulus - amount = reserved) :
    (s.step config (.bounded stop) line following).Holds earlier log besides 0 := by
  obtain ⟨r, -, hr, hstep⟩ := h.block stop hoperation rfl (by simpa using hfits)
  rwa [Routine.reserved_pass_of_stackIncrement hoperation hr] at hstep

theorem Holds.restore (h : s.Holds earlier log besides reserved) {offset : Option Nat}
    (hoperation : Line.operationAt config line following = some (.registerRestore offset)) :
    (s.step config (.bounded stop) line following).Holds earlier log besides 0 := by
  obtain ⟨r, -, -, hstep⟩ := h.block stop hoperation rfl (by simp)
  rwa [Routine.reserved_pass_of_registerRestore hoperation] at hstep

theorem Holds.save (h : s.Holds earlier log besides reserved) {offset : Option Nat}
    (hoperation : Line.operationAt config line following = some (.registerSave offset)) :
    ∃ saved, (s.step config (.bounded stop) line following).Holds earlier log besides saved := by
  obtain ⟨r, -, -, hstep⟩ := h.block stop hoperation rfl (by simp)
  exact ⟨_, hstep⟩

/-! ### Several lines -/

/-- Lines that leave the block alone move the bytes besides it. -/
theorem Holds.through (h : s.Holds earlier log besides reserved) {lines after : List String}
    (hlines : leavesBlock config lines after = true) :
    (s.through config (.bounded stop) lines after).Holds earlier log
      (besides + netBytes config lines) reserved := by
  induction lines generalizing s besides with
  | nil =>
    rw [netBytes_nil, add_zero]
    exact h
  | cons line rest ih =>
    simp only [leavesBlock, Bool.and_eq_true, Bool.not_eq_true', Option.all_eq_true] at hlines
    obtain ⟨⟨hlabel, hkeeps⟩, hrest⟩ := hlines
    rw [netBytes_cons, ← add_assoc]
    exact ih (h.keep stop hlabel hkeeps) hrest

theorem Holds.through_idle (h : s.Holds earlier log besides reserved) {lines : List String}
    (hlines : ∀ line ∈ lines, Line.isIdle config line = true) (after : List String) :
    (s.through config (.bounded stop) lines after).Holds earlier log besides reserved := by
  induction lines generalizing s with
  | nil => exact h
  | cons line rest ih =>
    obtain ⟨hline, hrest⟩ := List.forall_mem_cons.1 hlines
    have hidle : ∀ operation, Line.operationAt config line (rest ++ after) = some operation →
        operation.isIdle = true := fun operation => Line.isIdle_operationAt hline
    have hstep := h.keep stop (Line.isLabel_of_isIdle hline)
      fun operation hoperation => Operation.keepsBlock_of_isIdle config (hidle operation hoperation)
    rw [netBytes_of_not_counted fun operation hoperation =>
      Operation.isCounted_of_isIdle _ (hidle operation hoperation), add_zero] at hstep
    exact ih hstep hrest

/-- An update does what its first instruction does. -/
theorem Holds.update (h : s.Holds earlier log besides reserved) {n : Nat} (u : Update config n)
    {lines : List String} (hlines : Interleaved u.lines lines) {reserved' : Int}
    (hlow : ∀ (t : PassState) (following : List String), t.Holds earlier log besides reserved →
      Line.operationAt config u.low following = some (ofAmount n) →
      (t.step config (.bounded stop) u.low following).Holds earlier log besides reserved')
    (after : List String) :
    (s.through config (.bounded stop) lines after).Holds earlier log besides reserved' := by
  obtain ⟨texts, rest, rfl, htexts, hrest⟩ := hlines.exists_split
  have hbefore : ∀ line ∈ texts, Line.isIdle config line = true :=
    fun line hline => Line.isIdle_of_isText config (htexts line hline)
  have hbehind : ∀ line ∈ rest, Line.isIdle config line = true := by
    intro line hline
    rcases hrest.mem_or_isText hline with hmem | htext
    · exact isIdle_of_isLater config (u.isLater_of_mem line hmem)
    · exact Line.isIdle_of_isText config htext
  rw [through_append, PassState.through]
  apply Holds.through_idle stop _ hbehind
  exact hlow _ _ (h.through_idle stop hbefore _) (u.operationAt_low hrest after)

theorem Holds.update_reserve (h : s.Holds earlier log besides 0) {n : Nat} (u : Update config n)
    {lines : List String} (hlines : Interleaved u.lines lines) (hsign : n < signBit)
    (hthreshold : config.reserveThreshold ≤ n) (after : List String) :
    (s.through config (.bounded stop) lines after).Holds earlier log besides n := by
  apply h.update stop u hlines
  intro t following ht hread
  rw [ofAmount, if_neg (not_le.2 hsign)] at hread
  exact ht.reserve stop hread hthreshold

theorem Holds.update_release (h : s.Holds earlier log besides reserved) {n : Nat}
    (u : Update config n) {lines : List String} (hlines : Interleaved u.lines lines)
    (hsign : signBit ≤ n) (hfits : config.releaseModulus - n = reserved) (after : List String) :
    (s.through config (.bounded stop) lines after).Holds earlier log besides 0 := by
  apply h.update stop u hlines
  intro t following ht hread
  rw [ofAmount, if_pos hsign] at hread
  exact ht.release stop hread hfits

/-! ### A block from its reservation to its release -/

/-- A bounded pass that comes to the lines `block` in the routine `r` leaves them in the same
routine, with nothing reserved, with no further release reported as wrong, and with the bytes in
use moved by what the lines `between` account for. -/
structure GivesBack (config : Config) (stop : Int) (s : PassState) (r : Routine)
    (earlier : List Routine) (block between after : List String) : Prop where
  run_block : (∀ line ∈ block, (PassMode.bounded stop).endsBefore line = false) →
    s.run config (.bounded stop) (block ++ after) =
      (s.through config (.bounded stop) block after).run config (.bounded stop) after
  current : ∃ q, (s.through config (.bounded stop) block after).opened = q :: earlier ∧
    q.reserved = 0 ∧
    q.stackUsed = r.stackUsed +
      (operationCount config .push between - operationCount config .pop between +
        config.returnAddressBytes * operationCount config .selfCall between)
  mismatches : (s.through config (.bounded stop) block after).mismatches = s.mismatches

theorem holds_of_opened {r : Routine} (hopened : s.opened = r :: earlier)
    (hreserved : r.reserved = 0) : s.Holds earlier s.mismatches r.stackUsed 0 where
  current := ⟨r, hopened, by rw [hreserved, sub_zero], hreserved⟩
  mismatches := rfl

theorem Holds.givesBack {r : Routine} {block between after : List String}
    (h : (s.through config (.bounded stop) block after).Holds earlier s.mismatches
      (r.stackUsed + netBytes config between) 0) :
    GivesBack config stop s r earlier block between after := by
  obtain ⟨⟨q, hopened, hused, hreserved⟩, hlog⟩ := h
  rw [hreserved, sub_zero] at hused
  exact ⟨fun hends => run_append hends s after, ⟨q, hopened, hreserved, hused⟩, hlog⟩

/-- A block that is reserved by a stack pointer update is given back by the update with the
negative of its size, and one that is reserved by saving registers is given back by restoring
them, whatever instructions and source text stand in between, as long as none of them starts a
routine or concerns a block. -/
theorem reserve_release_cancel (config : Config) (stop : Int) (s : PassState) (r : Routine)
    (earlier : List Routine) (hopened : s.opened = r :: earlier) (hreserved : r.reserved = 0)
    (between after : List String) :
    (∀ (amount : Nat) (reserve : Update config amount) (release : Update config (65536 - amount))
        (reserving releasing : List String), config.releaseModulus = 65536 →
      config.reserveThreshold ≤ amount → amount ≤ 0x7FFF →
      Interleaved reserve.lines reserving → Interleaved release.lines releasing →
      leavesBlock config between (releasing ++ after) = true →
      GivesBack config stop s r earlier (reserving ++ (between ++ releasing)) between after) ∧
    (∀ (save restore : String) (saveOffset restoreOffset : Option Nat),
      Line.operation? config save = some (.registerSave saveOffset) →
      Line.operation? config restore = some (.registerRestore restoreOffset) →
      leavesBlock config between (restore :: after) = true →
      GivesBack config stop s r earlier (save :: (between ++ [restore])) between after) := by
  have hstart := holds_of_opened hopened hreserved
  constructor
  · intro amount reserve release reserving releasing hmodulus hthreshold hamount hreserving
      hreleasing hbetween
    have hreserve : amount < signBit := Nat.lt_succ_of_le hamount
    have hrelease : signBit ≤ 65536 - amount := by
      unfold signBit
      omega
    have hfits : config.releaseModulus - (65536 - amount : Nat) = amount := by omega
    apply Holds.givesBack
    rw [through_append, through_append]
    apply Holds.update_release stop _ release hreleasing hrelease hfits
    apply Holds.through stop _ hbetween
    exact hstart.update_reserve stop reserve hreserving hreserve hthreshold _
  · intro save restore saveOffset restoreOffset hsave hrestore hbetween
    have hread : ∀ following, Line.operationAt config save following =
        some (.registerSave saveOffset) := fun following => by
      rw [Line.operationAt_of_ne_stackLow (by simp [hsave]), hsave]
    obtain ⟨saved, hsaved⟩ := hstart.save stop (hread (between ++ [restore] ++ after))
    apply Holds.givesBack
    rw [through, through_append]
    apply Holds.restore stop (Holds.through stop hsaved hbetween)
    rw [Line.operationAt_of_ne_stackLow (by simp [hrestore]), hrestore]

/-! ### The largest block that an update can reserve -/

def largestReserve : Update {} 0x7FFF where
  low := "606:\tcf 5f\tsubi\tr28, 0xFF\t; 255"
  later :=
    ["608:\tdf 47\tsbci\tr29, 0x7F\t; 127", "60a:\t0f b6\tin\tr0, 0x3f\t; 63", "60c:\tf8 94\tcli",
     "60e:\tde bf\tout\t0x3e, r29\t; 62"]
  reads_update := by decide +kernel
  isLater_of_mem := by decide +kernel

def largestRelease : Update {} (65536 - 0x7FFF) where
  low := "614:\tc1 50\tsubi\tr28, 0x01\t; 1"
  later :=
    ["616:\td0 48\tsbci\tr29, 0x80\t; 128", "618:\t0f b6\tin\tr0, 0x3f\t; 63", "61a:\tf8 94\tcli",
     "61c:\tde bf\tout\t0x3e, r29\t; 62"]
  reads_update := by decide +kernel
  isLater_of_mem := by decide +kernel

def largestReserving : List String :=
  ["606:\tcf 5f\tsubi\tr28, 0xFF\t; 255", "608:\tdf 47\tsbci\tr29, 0x7F\t; 127",
   "  uint8_t buffer[32767];", "60a:\t0f b6\tin\tr0, 0x3f\t; 63", "60c:\tf8 94\tcli",
   "60e:\tde bf\tout\t0x3e, r29\t; 62"]

theorem interleaved_largestReserving : Interleaved largestReserve.lines largestReserving :=
  .keep _ <| .keep _ <| .insert (by decide +kernel) <| .refl _

def prologue : List String :=
  ["600 <work>:", "600:\tcf 93\tpush\tr28", "602:\ta0 e1\tldi\tr26, 0x10\t; 16",
   "604:\tb0 e0\tldi\tr27, 0x00\t; 0"]

/-- The state in which a pass comes to the block. -/
def atBlock : PassState := run {} (.bounded 0x700) {} prologue

def blockBody : List String :=
  ["610:\tcf 93\tpush\tr28", "  fill(buffer);", "612:\t00 d0\trcall\t.+0\t; 0x614"]

def helperSave : String := "606:\t0c 94 00 01\tjmp\t0x200\t; 0x200 <__prologue_saves__+0x1c>"

def helperRestore : String :=
  "614:\t0c 94 10 01\tjmp\t0x220\t; 0x220 <__epilogue_restores__+0x1c>"

theorem reserve_release_cancel_largest :
    ∃ r, atBlock.opened = [r] ∧ r.stackUsed = 1 ∧ r.reserved = 0 ∧
      netBytes {} blockBody = 3 ∧
      leavesBlock {} blockBody largestRelease.lines = true ∧
      (∀ line ∈ largestReserving ++ (blockBody ++ largestRelease.lines),
        (PassMode.bounded 0x700).endsBefore line = false) ∧
      GivesBack {} 0x700 atBlock r [] (largestReserving ++ (blockBody ++ largestRelease.lines))
        blockBody [] ∧
      leavesBlock {} blockBody [helperRestore] = true ∧
      (∀ line ∈ helperSave :: (blockBody ++ [helperRestore]),
        (PassMode.bounded 0x700).endsBefore line = false) ∧
      GivesBack {} 0x700 atBlock r [] (helperSave :: (blockBody ++ [helperRestore]))
        blockBody [] := by
  have hfigures : atBlock.opened.map (fun r => (r.stackUsed, r.reserved)) = [(1, 0)] := by
    decide +kernel
  obtain ⟨r, hopened, hr⟩ := List.map_eq_singleton_iff.1 hfigures
  obtain ⟨hused, hreserved⟩ := Prod.mk.inj hr
  have hupdate : leavesBlock {} blockBody largestRelease.lines = true := by decide +kernel
  have hhelper : leavesBlock {} blockBody [helperRestore] = true := by decide +kernel
  have hcancel := reserve_release_cancel {} 0x700 atBlock r [] hopened hreserved blockBody []
  refine ⟨r, hopened, hused, hreserved, by decide +kernel, hupdate, by decide +kernel, ?_, hhelper,
    by decide +kernel, ?_⟩
  · exact hcancel.1 0x7FFF largestReserve largestRelease _ _ rfl (by decide) (by decide)
      interleaved_largestReserving (.refl _) (by rwa [List.append_nil])
  · exact hcancel.2 helperSave helperRestore (some 28) (some 28) (by decide +kernel)
      (by decide +kernel) hhelper

end PassState
end StackDepth
