import Mathlib
import StackDepth.Proofs.Analysis.ReserveRelease

/-!
# Blocks below the threshold

A stack pointer update by less than the threshold counts as pointer arithmetic and reserves
nothing. The update that takes it back counts as a release all the same, whatever its size. A
bounded pass over both therefore ends with fewer bytes in use than the lines account for, short by
just the size of the block, and with a release that is reported as wrong.

The pass is followed line by line with `PassState.Holds`, as for the blocks that are reserved, and
with `PassState.Within`, which says where in the routine it is.
-/
namespace StackDepth

open StackPointer

/-! ### Where a pass is -/

namespace PassState

variable {config : Config} {mode : PassMode} {s : PassState} {name : String}
variable {passed : List String}

/-- The pass has come to one routine only and has passed the given lines of it. -/
structure Within (s : PassState) (name : String) (passed : List String) : Prop where
  current : ∃ r, s.opened = [r] ∧ r.name = name ∧ r.lines.toList = passed
  index : s.index = passed.length

theorem Within.step (h : s.Within name passed) {line : String}
    (hlabel : Line.isLabel line = false) (following : List String) :
    (s.step config mode line following).Within name (passed ++ [line]) := by
  obtain ⟨⟨r, hopened, rfl, rfl⟩, hindex⟩ := h
  obtain ⟨used, reserved, targets, hpass⟩ := r.pass_eq config mode line following
  refine ⟨⟨_, step_pass config mode hlabel hopened following, ?_, ?_⟩, ?_⟩
  · rw [hpass]
  · rw [Routine.pass_lines, Array.toList_push]
  · rw [PassState.step, hindex, List.length_append, List.length_singleton]

theorem Within.through (h : s.Within name passed) {lines : List String}
    (hlines : ∀ line ∈ lines, Line.isLabel line = false) (after : List String) :
    (s.through config mode lines after).Within name (passed ++ lines) := by
  induction lines generalizing s passed with
  | nil => rwa [List.append_nil]
  | cons line rest ih =>
    obtain ⟨hline, hrest⟩ := List.forall_mem_cons.1 hlines
    rw [List.append_cons]
    exact ih (h.step hline _) hrest

theorem within_of_label (config : Config) (mode : PassMode) {label : String} {address : Nat}
    (hlabel : Line.label? label.toList = some (address, name)) {body : List String}
    (hbody : ∀ line ∈ body, Line.isLabel line = false) (after : List String) :
    (PassState.through config mode {} (label :: body) after).Within name (label :: body) := by
  have hstart : (PassState.step config mode {} label (body ++ after)).Within name [label] :=
    ⟨⟨_, step_label config mode hlabel {} _, rfl, rfl⟩, rfl⟩
  exact hstart.through hbody after

/-! ### Updates below the threshold -/

variable {line : String} {following : List String} {earlier : List Routine} {log : Log}
variable {besides reserved : Int} {amount : Nat} (stop : Int)

theorem Holds.ignore (h : s.Holds earlier log besides reserved)
    (hoperation : Line.operationAt config line following = some (.stackDecrement amount))
    (hthreshold : (amount : Int) < config.reserveThreshold) :
    (s.step config (.bounded stop) line following).Holds earlier log besides reserved := by
  have hkeeps : ∀ operation, Line.operationAt config line following = some operation →
      operation.keepsBlock config = true := by
    intro operation hfound
    rw [hoperation, Option.some.injEq] at hfound
    rw [← hfound]
    exact decide_eq_true hthreshold
  obtain ⟨r, hreserved, -, hstep⟩ := h.block stop hoperation rfl (by simp)
  rwa [Routine.reserved_pass_of_keepsBlock _ hkeeps, hreserved] at hstep

/-- The report about a release that does not fit. -/
def mismatch (name released held : String) (index : Nat) (line : String) : Diagnostic where
  severity := .warning
  code := "release-mismatch"
  message := s!"{name} released {released}, but reserved {held}"
  lineIndex := some index
  lineText := some line

/-- A release that does not fit takes off its own size, not that of the block. -/
theorem Holds.release_mismatch (h : s.Holds earlier log besides reserved) {r : Routine}
    (hopened : s.opened = r :: earlier)
    (hoperation : Line.operationAt config line following = some (.stackIncrement amount))
    (hmismatch : config.releaseModulus - amount ≠ reserved) {released held : String}
    (hreleased : Text.Numeral.write (config.releaseModulus - amount) = .ok released)
    (hheld : Text.Numeral.write reserved = .ok held) :
    (s.step config (.bounded stop) line following).Holds earlier
      (log ++ [mismatch r.name released held s.index line])
      (besides + reserved - (config.releaseModulus - amount)) 0 := by
  obtain ⟨⟨q, hq, rfl, rfl⟩, rfl⟩ := h
  obtain ⟨rfl, -⟩ := List.cons.inj (hopened.symm.trans hq)
  have hoperate : r.operate config (.bounded stop) (.stackIncrement amount) =
      .changed { r with stackUsed := r.stackUsed - (config.releaseModulus - amount),
                        reserved := 0 } (some (.releaseMismatch r.name released held)) := by
    simp only [Routine.operate, PassMode.follows, if_true, Routine.release, if_neg hmismatch,
      hreleased, hheld]
  constructor
  · refine ⟨_, step_pass config _ (Line.isLabel_of_operationAt hoperation) hopened following, ?_⟩
    rw [Routine.pass_of_operate hoperation hoperate]
    simp
  · rw [PassState.mismatches, PassState.step, Log.byCode_append,
      react_of_operationAt _ hopened hoperation, hoperate]
    rfl

/-! ### To the end of a pass -/

theorem run_eq_through (s : PassState) (lines : List String) :
    s.run config mode lines =
      s.through config mode (lines.takeWhile (!mode.endsBefore ·))
        (lines.dropWhile (!mode.endsBefore ·)) := by
  induction lines generalizing s with
  | nil => rfl
  | cons line rest ih =>
    cases hends : mode.endsBefore line with
    | true => simp [run, hends, PassState.through]
    | false =>
      rw [run, if_neg (by simp [hends]), ih, List.takeWhile_cons_of_pos (by simp [hends]),
        List.dropWhile_cons_of_pos (by simp [hends]), PassState.through,
        List.takeWhile_append_dropWhile]

end PassState

theorem isLabel_of_leavesBlock {config : Config} {lines after : List String}
    (h : leavesBlock config lines after = true) : ∀ line ∈ lines, Line.isLabel line = false := by
  induction lines with
  | nil => simp
  | cons line rest ih =>
    simp only [leavesBlock, Bool.and_eq_true, Bool.not_eq_true'] at h
    exact List.forall_mem_cons.2 ⟨h.1.1, ih h.2⟩

theorem leavesBlock_append (config : Config) (lines more after : List String) :
    leavesBlock config (lines ++ more) after =
      (leavesBlock config lines (more ++ after) && leavesBlock config more after) := by
  induction lines with
  | nil => rfl
  | cons line rest ih =>
    rw [List.cons_append, leavesBlock, leavesBlock, ih, List.append_assoc, ← Bool.and_assoc]

theorem leavesBlock_takeWhile {config : Config} {lines : List String}
    (h : leavesBlock config lines [] = true) (p : String → Bool) :
    leavesBlock config (lines.takeWhile p) (lines.dropWhile p) = true := by
  rw [← List.takeWhile_append_dropWhile (p := p) (l := lines), leavesBlock_append,
    List.append_nil, Bool.and_eq_true] at h
  exact h.1

theorem netBytes_of_label (config : Config) {label : String} {address : Nat} {name : String}
    (h : Line.label? label.toList = some (address, name)) : netBytes config [label] = 0 := by
  have hread : Line.operationAt config label [] = none := by
    rw [Line.operationAt, Line.classifyAt_of_label config h]
  apply netBytes_of_not_counted
  intro operation hoperation
  rw [hread] at hoperation
  cases hoperation

theorem netBytes_of_operationAt {config : Config} {line : String} {following : List String}
    {operation : Operation} (h : Line.operationAt config line following = some operation)
    (hcounted : operation.isCounted (.bounded 0) = false) : netBytes config [line] = 0 := by
  apply netBytes_of_not_counted
  intro found hfound
  rw [h, Option.some.injEq] at hfound
  rwa [← hfound]

theorem netBytes_append (config : Config) (lines more : List String) :
    netBytes config (lines ++ more) = netBytes config lines + netBytes config more := by
  simp only [netBytes, operationCount, List.countP_append]
  push_cast
  ring

theorem operationCount_eq_countP (config : Config) (operation : Operation) (lines : List String) :
    operationCount config operation lines =
      (lines.map (Line.operation? config)).countP (· = some operation) := by
  rw [operationCount, List.countP_map]
  rfl

/-- The text of a number that an update can move the stack pointer by. -/
theorem write_amount {n : Nat} (h : n < 0x8000) :
    Text.Numeral.write n = .ok (toString n) := by
  have hdigits : (Nat.toDigits 10 n).length ≤ 5 :=
    (Nat.length_toDigits_le_iff (by decide) (by decide)).2 (by omega)
  have hshort : ¬ (Nat.toDigits 10 n).length > Text.Numeral.maxDigits := by
    unfold Text.Numeral.maxDigits
    omega
  simp only [Text.Numeral.write, Int.natAbs_natCast, if_neg hshort]
  rw [if_neg (by omega)]
  rfl

/-! ### A block that is given back without having been reserved -/

/-- The lines of a routine that moves the stack pointer down by an amount below the threshold and
later up again by the same amount, and that does nothing else about blocks. -/
structure SmallBlock (config : Config) where
  label : String
  address : Nat
  name : String
  amount : Nat
  /-- The first instruction of the update that moves the stack pointer down. -/
  reserve : String
  /-- The first instruction of the update that moves it up. -/
  release : String
  front : List String
  between : List String
  back : List String
  reads_label : Line.label? label.toList = some (address, name)
  amount_pos : 1 ≤ amount
  amount_lt : (amount : Int) < config.reserveThreshold
  reads_reserve : Line.update? config reserve (between ++ release :: back) = some amount
  reads_release : Line.update? config release back = some (65536 - amount)
  leaves_front : leavesBlock config front (reserve :: (between ++ release :: back)) = true
  leaves_between : leavesBlock config between (release :: back) = true
  leaves_back : leavesBlock config back [] = true

namespace SmallBlock

variable {config : Config} (b : SmallBlock config)

/-- The lines up to the release. -/
def before : List String := b.label :: (b.front ++ b.reserve :: b.between)

def lines : List String := b.before ++ b.release :: b.back

/-- The lines that a bounded pass takes in. -/
def passed (stop : Int) : List String :=
  b.before ++ b.release :: b.back.takeWhile (!(PassMode.bounded stop).endsBefore ·)

open PassState

variable (stop : Int)

theorem reads_reserve_small (hthreshold : config.reserveThreshold ≤ 0x8000) :
    Line.operationAt config b.reserve (b.between ++ b.release :: b.back) =
      some (.stackDecrement b.amount) := by
  have hlt := b.amount_lt
  rw [Line.operationAt_of_update? b.reads_reserve, ofAmount, if_neg]
  unfold signBit
  omega

theorem reads_release_small (hthreshold : config.reserveThreshold ≤ 0x8000) :
    Line.operationAt config b.release b.back = some (.stackIncrement (65536 - b.amount)) := by
  have hlt := b.amount_lt
  rw [Line.operationAt_of_update? b.reads_release, ofAmount, if_pos]
  unfold signBit
  omega

/-- Up to the release nothing is reserved, and the bytes in use are those that the lines account
for. -/
theorem holds_before (hthreshold : config.reserveThreshold ≤ 0x8000) :
    (PassState.through config (.bounded stop) {} b.before (b.release :: b.back)).Holds [] []
      (netBytes config b.before) 0 := by
  have hlabel : netBytes config [b.label] = 0 := netBytes_of_label config b.reads_label
  have hreserve : netBytes config [b.reserve] = 0 :=
    netBytes_of_operationAt (b.reads_reserve_small hthreshold) rfl
  have hstart : (PassState.step config (.bounded stop) {} b.label
      ((b.front ++ b.reserve :: b.between) ++ b.release :: b.back)).Holds [] [] 0 0 := by
    refine ⟨⟨_, step_label config _ b.reads_label {} _, rfl, rfl⟩, ?_⟩
    rw [mismatches, PassState.step, react, Line.classifyAt_of_label config b.reads_label]
    rfl
  have hnet : netBytes config b.before =
      0 + netBytes config b.front + netBytes config b.between := by
    rw [before, netBytes_cons, hlabel, netBytes_append, netBytes_cons config b.reserve, hreserve,
      zero_add, zero_add, zero_add]
  rw [hnet, before, PassState.through, through_append, PassState.through]
  apply Holds.through stop _ b.leaves_between
  apply Holds.ignore stop _ (b.reads_reserve_small hthreshold) b.amount_lt
  exact hstart.through stop b.leaves_front

theorem isLabel_before (hthreshold : config.reserveThreshold ≤ 0x8000) :
    ∀ line ∈ b.front ++ b.reserve :: b.between, Line.isLabel line = false := by
  rw [List.forall_mem_append, List.forall_mem_cons]
  exact ⟨isLabel_of_leavesBlock b.leaves_front,
    Line.isLabel_of_operationAt (b.reads_reserve_small hthreshold),
    isLabel_of_leavesBlock b.leaves_between⟩

theorem isLabel_passed (hthreshold : config.reserveThreshold ≤ 0x8000) :
    ∀ line ∈ (b.front ++ b.reserve :: b.between) ++
        b.release :: b.back.takeWhile (!(PassMode.bounded stop).endsBefore ·),
      Line.isLabel line = false := by
  rw [List.forall_mem_append, List.forall_mem_cons]
  exact ⟨b.isLabel_before hthreshold,
    Line.isLabel_of_operationAt (b.reads_release_small hthreshold),
    isLabel_of_leavesBlock (leavesBlock_takeWhile b.leaves_back _)⟩

/-- The release takes off the block, which was never counted. Nothing is held there, so its bytes
are taken from the others. -/
theorem holds_passed (hmodulus : config.releaseModulus = 65536)
    (hthreshold : config.reserveThreshold ≤ 0x8000) :
    (PassState.through config (.bounded stop) {} (b.passed stop)
        (b.back.dropWhile (!(PassMode.bounded stop).endsBefore ·))).Holds []
      [mismatch b.name (toString b.amount) "0" b.before.length b.release]
      (netBytes config (b.passed stop) - b.amount) 0 := by
  have hlt := b.amount_lt
  have hpos := b.amount_pos
  have hmodulus : config.releaseModulus - (65536 - b.amount : Nat) = b.amount := by omega
  have hrelease := b.reads_release_small hthreshold
  have hnone : netBytes config [b.release] = 0 := netBytes_of_operationAt hrelease rfl
  have hwithin := within_of_label config (.bounded stop) b.reads_label
    (b.isLabel_before hthreshold) (b.release :: b.back)
  rw [← before] at hwithin
  obtain ⟨r, hopened, hname, -⟩ := hwithin.current
  have hstep := (b.holds_before stop hthreshold).release_mismatch stop hopened hrelease
    (by omega) (by rw [hmodulus, write_amount (by omega)]) (write_amount (by decide))
  rw [hname, hwithin.index, hmodulus] at hstep
  have hnet : netBytes config (b.passed stop) - b.amount =
      netBytes config b.before + 0 - b.amount +
        netBytes config (b.back.takeWhile (!(PassMode.bounded stop).endsBefore ·)) := by
    rw [passed, netBytes_append, netBytes_cons, hnone]
    ring
  rw [hnet, passed, through_append, PassState.through, List.cons_append,
    List.takeWhile_append_dropWhile]
  exact hstep.through stop (leavesBlock_takeWhile b.leaves_back _)

theorem run_lines (hpast : ∀ line ∈ b.before ++ [b.release],
      (PassMode.bounded stop).endsBefore line = false) :
    PassState.run config (.bounded stop) {} b.lines =
      PassState.through config (.bounded stop) {} (b.passed stop)
        (b.back.dropWhile (!(PassMode.bounded stop).endsBefore ·)) := by
  have hpast' : ∀ line ∈ b.before ++ [b.release],
      (!(PassMode.bounded stop).endsBefore line) = true := by simpa using hpast
  rw [run_eq_through, lines, List.append_cons, List.takeWhile_append_of_pos hpast',
    List.dropWhile_append_of_pos hpast', passed, List.append_assoc, List.singleton_append]

/-- A bounded pass past a block below the threshold and its release has the bytes in use that the
lines account for less the block, which was not counted. It has nothing reserved, and it reports
the release, and no other, as one that gives back the block while nothing is held. -/
theorem analyzePart_past_smallBlock (config : Config) (hmodulus : config.releaseModulus = 65536)
    (hthreshold : config.reserveThreshold ≤ 0x8000) (b : SmallBlock config) (r : Routine)
    (hlines : r.lines.toList = b.lines) (stop : Int)
    (hpast : ∀ line ∈ b.before ++ [b.release], (PassMode.bounded stop).endsBefore line = false) :
    let part := analyzePart config r stop
    part.routine.name = b.name ∧ part.routine.lines.toList = b.passed stop ∧
    part.routine.stackUsed =
      part.routine.occurrences config .push - part.routine.occurrences config .pop +
        config.returnAddressBytes * part.routine.occurrences config .selfCall - b.amount ∧
    part.routine.reserved = 0 ∧
    Log.byCode part.diagnostics "release-mismatch" =
      [mismatch b.name (toString b.amount) "0" b.before.length b.release] := by
  have hwithin := within_of_label config (.bounded stop) b.reads_label
    (b.isLabel_passed stop hthreshold) (b.back.dropWhile (!(PassMode.bounded stop).endsBefore ·))
  rw [← List.cons_append, ← before, ← passed, ← b.run_lines stop hpast] at hwithin
  obtain ⟨⟨q, hopened, hused, hreserved⟩, hlog⟩ := b.holds_passed stop hmodulus hthreshold
  rw [← b.run_lines stop hpast] at hopened hlog
  obtain ⟨q', hopened', hname, hpassed⟩ := hwithin.current
  obtain ⟨rfl, -⟩ := List.cons.inj (hopened.symm.trans hopened')
  have hroutine : (analyzePart config r stop).routine = q := by
    rw [analyzePart, hlines, hopened]
    rfl
  have hdiagnostics : (analyzePart config r stop).diagnostics =
      (PassState.run config (.bounded stop) {} b.lines).diagnostics := by
    rw [analyzePart, hlines]
  rw [hreserved, sub_zero, ← hpassed] at hused
  simp only [hroutine, hdiagnostics]
  exact ⟨hname, hpassed, hused, hreserved, hlog⟩

/-! ### A routine with a buffer of 128 bytes -/

def buffered : SmallBlock {} where
  label := "00000600 <buffered>:"
  address := 0x600
  name := "buffered"
  amount := 128
  front := [" 600:\tcf 93       \tpush\tr28"]
  reserve := " 602:\tc0 58       \tsubi\tr28, 0x80\t; 128"
  between :=
    [" 604:\td1 09       \tsbc\tr29, r1", "  uint8_t buffer[128];",
     " 606:\t0f b6       \tin\tr0, 0x3f\t; 63", " 608:\tf8 94       \tcli",
     " 60a:\tde bf       \tout\t0x3e, r29\t; 62", " 60c:\t00 d0       \trcall\t.+0\t; 0x60e"]
  release := " 60e:\tc0 58       \tsubi\tr28, 0x80\t; 128"
  back :=
    [" 610:\tdf 4f       \tsbci\tr29, 0xFF\t; 255", " 612:\t0f b6       \tin\tr0, 0x3f\t; 63",
     " 614:\tf8 94       \tcli", " 616:\tde bf       \tout\t0x3e, r29\t; 62",
     " 618:\tcf 91       \tpop\tr28"]
  reads_label := by decide +kernel
  amount_pos := by decide
  amount_lt := by decide
  reads_reserve := by decide +kernel
  reads_release := by decide +kernel
  leaves_front := by decide +kernel
  leaves_between := by decide +kernel
  leaves_back := by decide +kernel

def bufferedRoutine : Routine :=
  { name := "buffered", start := 0x600, lines := buffered.lines.toArray }

theorem readings_buffered : buffered.lines.map (Line.operation? {}) =
    [none, some .push, some (.stackLow 128), some .other, none, some .other, some .other,
     some .other, some .selfCall, some (.stackLow 128), some .other, some .other, some .other,
     some .other, some .pop] := by
  decide +kernel

theorem netBytes_buffered : netBytes {} buffered.lines = 2 := by
  simp only [netBytes, operationCount_eq_countP, readings_buffered]
  decide

theorem endsBefore_buffered :
    ∀ line ∈ buffered.lines, (PassMode.bounded 0x700).endsBefore line = false := by
  decide +kernel

theorem passed_buffered : buffered.passed 0x700 = buffered.lines := by
  have hback : ∀ line ∈ buffered.back, (!(PassMode.bounded 0x700).endsBefore line) = true := by
    intro line hline
    rw [endsBefore_buffered line (by simp [lines, hline])]
    rfl
  rw [passed, List.takeWhile_eq_self_iff.2 hback, lines]

/-- The push, the pop and the self call leave two bytes in use, and the block is taken off them. -/
theorem analyzePart_past_smallBlock_buffered :
    let part := analyzePart {} bufferedRoutine 0x700
    netBytes {} buffered.lines = 2 ∧ part.routine.lines.toList = buffered.lines ∧
    part.routine.stackUsed = 2 - 128 ∧ part.routine.reserved = 0 ∧
    (Log.byCode part.diagnostics "release-mismatch").map Diagnostic.message =
      ["buffered released 128, but reserved 0"] := by
  have hpast : ∀ line ∈ buffered.before ++ [buffered.release],
      (PassMode.bounded 0x700).endsBefore line = false := by
    intro line hline
    apply endsBefore_buffered
    rw [lines, List.append_cons]
    exact List.mem_append_left _ hline
  obtain ⟨-, hlines, hused, hreserved, hlog⟩ := analyzePart_past_smallBlock {} rfl (by decide)
    buffered bufferedRoutine rfl 0x700 hpast
  rw [passed_buffered] at hlines
  have hnet : (analyzePart {} bufferedRoutine 0x700).routine.stackUsed =
      netBytes {} (analyzePart {} bufferedRoutine 0x700).routine.lines.toList - 128 := hused
  refine ⟨netBytes_buffered, hlines, ?_, hreserved, ?_⟩
  · rw [hnet, hlines, netBytes_buffered]
  · rw [hlog]
    decide

/-- The release is not ignored along with its block. -/
theorem not_forall_smallBlock_ignored :
    ¬ ∀ config : Config, config.releaseModulus = 65536 → config.reserveThreshold ≤ 0x8000 →
      ∀ (b : SmallBlock config) (r : Routine), r.lines.toList = b.lines → ∀ stop : Int,
        (∀ line ∈ b.lines, (PassMode.bounded stop).endsBefore line = false) →
        (analyzePart config r stop).routine.stackUsed =
          operationCount config .push r.lines.toList - operationCount config .pop r.lines.toList +
            config.returnAddressBytes * operationCount config .selfCall r.lines.toList := by
  intro h
  have hnet : (analyzePart {} bufferedRoutine 0x700).routine.stackUsed =
      netBytes {} buffered.lines :=
    h {} rfl (by decide) buffered bufferedRoutine rfl 0x700 endsBefore_buffered
  have hused : (analyzePart {} bufferedRoutine 0x700).routine.stackUsed = -126 := by
    decide +kernel
  rw [hused, netBytes_buffered] at hnet
  cases hnet

end SmallBlock
end StackDepth
