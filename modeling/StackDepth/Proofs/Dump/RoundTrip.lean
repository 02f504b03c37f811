import Mathlib
import StackDepth.Dump.Trace
import StackDepth.Proofs.Analysis.Program
import StackDepth.Proofs.CallGraph.Lookup

/-!
# Tracing a stack gives back its calls

`writeDump` lays out the stack of a machine with given live calls, as the machine would: the stack
pointer, and for each call the return address and whatever bytes the routine there had put on the
stack. Tracing that dump gives the calls back. Since nothing marks the end of a call's bytes, each
call is found only if the sizes of all calls before it were told right, so the proof goes along the
calls with the position in the dump.
-/
namespace StackDepth

open Text

/-- The bytes that a routine has on the stack before an address, as a bounded pass tells them. -/
def Program.usedAt (p : Program) (config : Config) (i : Fin p.size) (address : Int) : Int :=
  (analyzePart config (p.catalogue.routine i) address).routine.stackUsed

/-- A live call, as the machine has left it on the stack. -/
structure LiveCall (p : Program) (config : Config) where
  /-- The routine that the call returns to. -/
  routine : Fin p.size
  returnAddress : Int
  /-- The bytes that the routine had on the stack when it made the call. -/
  filler : List UInt8
  mem_order : routine ∈ p.graph.order.toList
  even : returnAddress % 2 = 0
  /-- The machine keeps the address as a number of words, in sixteen bits. -/
  lt_top : returnAddress < 131072
  start_lt : p.catalogue.start routine < returnAddress
  nearest : ∀ other ∈ p.graph.order.toList, other ≠ routine →
    ¬ (p.catalogue.start routine < p.catalogue.start other ∧
        p.catalogue.start other < returnAddress)
  length_filler : (filler.length : Int) = max 0 (p.usedAt config routine returnAddress)
  /-- A warning about a negative usage can be written. -/
  writable : p.usedAt config routine returnAddress < 0 →
    (Nat.toDigits 10 (p.usedAt config routine returnAddress).natAbs).length ≤ 4300

namespace LiveCall

variable {p : Program} {config : Config}

def used (call : LiveCall p config) : Int := p.usedAt config call.routine call.returnAddress

/-- The call as a trace shows it. -/
def frame (call : LiveCall p config) : TraceFrame :=
  ⟨some (p.catalogue.routine call.routine).name, call.returnAddress, call.used⟩

def returnWord (call : LiveCall p config) : Nat := (call.returnAddress / 2).toNat

/-- The bytes of the call on the stack. -/
def bytes (call : LiveCall p config) : List UInt8 :=
  UInt8.ofNat (call.returnWord / 256) :: UInt8.ofNat (call.returnWord % 256) :: call.filler

end LiveCall

/-- The dump of a stack with the given calls, the innermost first. -/
def writeDump {p : Program} {config : Config} (stackPointer : Nat)
    (calls : List (LiveCall p config)) : List UInt8 :=
  UInt8.ofNat (stackPointer % 256) :: UInt8.ofNat (stackPointer / 256) ::
    calls.flatMap LiveCall.bytes

/-! ### Reading bytes back -/

/-- Two bytes hold a number of sixteen bits. -/
theorem toNat_high_low {n : Nat} (h : n < 65536) :
    (UInt8.ofNat (n / 256)).toNat * 256 + (UInt8.ofNat (n % 256)).toNat = n := by
  rw [UInt8.toNat_ofNat_of_lt' (by simp [UInt8.size]; omega),
    UInt8.toNat_ofNat_of_lt' (by simp [UInt8.size]; omega)]
  omega

namespace Dump

theorem byteAt?_append (before : List UInt8) (b : UInt8) (rest : List UInt8) :
    byteAt? (before ++ b :: rest).toArray before.length = some b.toNat := by
  have hneg : ¬ ((before.length : Int) < 0) := by omega
  simp [byteAt?, hneg]

theorem returnAddressAt?_append (before : List UInt8) (high low : UInt8) (rest : List UInt8) :
    returnAddressAt? (before ++ high :: low :: rest).toArray before.length =
      some (((high.toNat * 256 + low.toNat) * 2 : Nat) : Int) := by
  have hlow := byteAt?_append (before ++ [high]) low rest
  rw [List.append_assoc, List.singleton_append, List.length_append, List.length_singleton,
    Int.natCast_add, Int.natCast_one] at hlow
  rw [returnAddressAt?, byteAt?_append, hlow]
  rfl

theorem write_ok {n : Int} (h : (Nat.toDigits 10 n.natAbs).length ≤ 4300) :
    ∃ text, Numeral.write n = .ok text := by
  simp only [Numeral.write, Numeral.maxDigits, gt_iff_lt, if_neg (Nat.not_lt.2 h)]
  exact ⟨_, rfl⟩

theorem frameAt_of_containing {n : Nat} {c : Catalogue n} {g : CallGraph n} {config : Config}
    {address : Int} {i : Fin n} (hcontaining : g.containing c address = some i) {used : Int}
    (hused : (analyzePart config (c.routine i) address).routine.stackUsed = used)
    (hwritable : used < 0 → (Nat.toDigits 10 used.natAbs).length ≤ 4300) :
    (frameAt c g config address).result =
      .ok ⟨some (analyzePart config (c.routine i) address).routine.name, address, used⟩ := by
  simp only [frameAt, hcontaining, hused]
  by_cases hneg : 0 ≤ used
  · rw [if_pos hneg]
  · obtain ⟨text, htext⟩ := write_ok (hwritable (by omega))
    rw [if_neg hneg, htext]

end Dump

/-! ### One call -/

namespace LiveCall

variable {passConfig config : Config} {lines : List String} {p : Program}

theorem two_mul_returnWord (hp : Program.ofListing passConfig lines = .ok p)
    (call : LiveCall p config) : ((call.returnWord * 2 : Nat) : Int) = call.returnAddress := by
  obtain ⟨-, -, address, -, -, hstart, -⟩ := Program.labelled_of_ofListing hp call.routine
  have hlt : (p.catalogue.routine call.routine).start < call.returnAddress := call.start_lt
  have heven := call.even
  rw [returnWord]
  omega

theorem containing_returnAddress (hp : Program.ofListing passConfig lines = .ok p)
    (call : LiveCall p config) :
    p.graph.containing p.catalogue call.returnAddress = some call.routine := by
  apply CallGraph.containing_eq_some (Program.ofListing_ok hp).2.2 call.mem_order call.start_lt
  intro other hother hlt
  have hne : other ≠ call.routine := by
    rintro rfl
    exact Int.lt_irrefl _ hlt
  have := call.nearest other hother hne
  omega

theorem frameAt_returnAddress (hp : Program.ofListing passConfig lines = .ok p)
    (call : LiveCall p config) :
    (Dump.frameAt p.catalogue p.graph config call.returnAddress).result = .ok call.frame := by
  rw [Dump.frameAt_of_containing (call.containing_returnAddress hp) rfl call.writable,
    ((Program.labelled_of_ofListing hp call.routine).analyzePart_eq config _).1]
  rfl

theorem returnAddressAt?_bytes (hp : Program.ofListing passConfig lines = .ok p)
    (call : LiveCall p config) (before after : List UInt8) :
    Dump.returnAddressAt? (before ++ call.bytes ++ after).toArray before.length =
      some call.returnAddress := by
  have hword := call.two_mul_returnWord hp
  have htop := call.lt_top
  rw [List.append_assoc, bytes, List.cons_append, List.cons_append, Dump.returnAddressAt?_append,
    toNat_high_low (by omega), hword]

/-- The trace goes from a call to the bytes behind it. -/
theorem span_frame (hbytes : config.returnAddressBytes = 2) (call : LiveCall p config) :
    Trace.span config.returnAddressBytes call.frame = call.bytes.length := by
  have hlength := call.length_filler
  simp only [Trace.span, frame, used, bytes, hbytes, List.length_cons]
  omega

end LiveCall

/-! ### All calls -/

variable {passConfig config : Config} {lines : List String} {p : Program}

/-- The frames behind any bytes, given steps for the calls and one more to see the end. -/
theorem framesFrom_calls (hp : Program.ofListing passConfig lines = .ok p)
    (hbytes : config.returnAddressBytes = 2) (calls : List (LiveCall p config))
    (before : List UInt8) (steps : Nat) (hsteps : calls.length < steps) :
    (Dump.framesFrom p.catalogue p.graph config (before ++ calls.flatMap LiveCall.bytes).toArray
      steps before.length).result = .ok (calls.map LiveCall.frame) := by
  induction calls generalizing before steps with
  | nil =>
    obtain ⟨steps, rfl⟩ : ∃ k, steps = k + 1 := ⟨steps - 1, by omega⟩
    have hsize : (before.toArray.size : Int) < before.length + 2 := by
      rw [List.size_toArray]
      omega
    rw [List.flatMap_nil, List.append_nil, Dump.framesFrom, if_pos hsize]
    rfl
  | cons call rest ih =>
    obtain ⟨steps, rfl⟩ : ∃ k, steps = k + 1 := ⟨steps - 1, by omega⟩
    rw [List.flatMap_cons, ← List.append_assoc]
    have hsize : ¬ (((before ++ call.bytes ++ rest.flatMap LiveCall.bytes).toArray.size : Int) <
        before.length + 2) := by
      simp only [List.size_toArray, List.length_append, LiveCall.bytes, List.length_cons]
      omega
    have hnext : (before.length : Int) + Trace.span config.returnAddressBytes call.frame =
        (before ++ call.bytes).length := by
      rw [call.span_frame hbytes, List.length_append, Int.natCast_add]
    have hlater := ih (before ++ call.bytes) steps (Nat.succ_lt_succ_iff.1 hsteps)
    rw [Dump.framesFrom, if_neg hsize]
    simp only [call.returnAddressAt?_bytes hp, call.frameAt_returnAddress hp, hnext, hlater]
    rfl

theorem length_lt_length_writeDump (stackPointer : Nat) (calls : List (LiveCall p config)) :
    calls.length < (writeDump stackPointer calls).length := by
  have hcalls : calls.length ≤ (calls.flatMap LiveCall.bytes).length := by
    induction calls with
    | nil => exact Nat.le_refl _
    | cons call rest ih =>
      simp only [List.flatMap_cons, List.length_append, List.length_cons, LiveCall.bytes]
      omega
  simp only [writeDump, List.length_cons]
  omega

theorem Trace.accounted_eq_sum (t : Trace) :
    t.accounted = (t.frames.map (span t.returnAddressBytes)).sum := by
  rw [accounted, List.sum_eq_foldr, List.foldr_map]

/-- The calls account for the stack if they reach up to its end. -/
theorem fullyAccounted_iff (stackPointer stackEnd : Int) (calls : List (LiveCall p config)) :
    ({ stackPointer, frames := calls.map LiveCall.frame, stackEnd, returnAddressBytes := 2 } :
        Trace).fullyAccounted = true ↔
      (calls.map fun call => max 0 call.used + 2).sum = stackEnd - stackPointer - 1 := by
  have hspan : Trace.span 2 ∘ LiveCall.frame =
      fun call : LiveCall p config => max 0 call.used + 2 := by
    funext call
    rw [Function.comp_apply, Trace.span, LiveCall.frame, Int.max_comm]
  simp only [Trace.fullyAccounted, Trace.unaccounted, Trace.total, Trace.accounted_eq_sum,
    List.map_map, hspan, decide_eq_true_eq]
  omega

/-- The trace of a stack has the stack pointer and the calls that were laid out, whatever bytes the
routines had put on the stack; and all of the stack is accounted for exactly if the calls reach up
to its end. -/
theorem trace_writeDump (hp : Program.ofListing passConfig lines = .ok p)
    (hbytes : config.returnAddressBytes = 2) {stackPointer : Nat} (hpointer : stackPointer < 65536)
    (calls : List (LiveCall p config)) :
    ∃ t, (Dump.trace p.catalogue p.graph config (writeDump stackPointer calls)).result = .ok t ∧
      t.stackPointer = stackPointer ∧
      t.frames = calls.map LiveCall.frame ∧
      (t.fullyAccounted = true ↔
        (calls.map fun call => max 0 call.used + 2).sum = config.stackEnd - stackPointer - 1) := by
  have hsteps : calls.length < 2 * (writeDump stackPointer calls).length := by
    have := length_lt_length_writeDump stackPointer calls
    omega
  have hframes : (Dump.framesFrom p.catalogue p.graph config (writeDump stackPointer calls).toArray
      (2 * (writeDump stackPointer calls).length) 2).result = .ok (calls.map LiveCall.frame) :=
    framesFrom_calls hp hbytes calls
      [UInt8.ofNat (stackPointer % 256), UInt8.ofNat (stackPointer / 256)] _ hsteps
  refine ⟨⟨stackPointer, calls.map LiveCall.frame, config.stackEnd, 2⟩, ?_, rfl, rfl,
    fullyAccounted_iff _ _ calls⟩
  unfold writeDump at hframes
  simp only [Dump.trace, writeDump, hframes, toNat_high_low hpointer, hbytes]
  rfl

/-! ### Two routines that call each other

The one takes a byte before its call, the other gives back a byte that it never took, so that its
usage is negative and its call has no bytes besides the return address. -/

def nestedMain : List String :=
  ["80 <main>:", "80:\tdf 91\tpop\tr29", "82:\t0e 94 80 00\tcall\t0x100\t; 0x100 <work>"]

def nestedWork : List String :=
  ["100 <work>:", "100:\tdf 93\tpush\tr29", "102:\t0e 94 40 00\tcall\t0x80\t; 0x80 <main>"]

def nestedRoutines : Vector Routine 2 :=
  #v[{ name := "main", start := 0x80, callTargets := .ofList [0x100],
       lines := nestedMain.toArray },
     { name := "work", start := 0x100, lineStart := 3, stackUsed := 1,
       callTargets := .ofList [0x80], lines := nestedWork.toArray }]

def nested : Program where
  analysis :=
    { routines := nestedRoutines.toList
      outcomes := { matched := 5, unmatched := 1 }
      diagnostics := [] }
  size := 2
  catalogue := { routines := nestedRoutines, resolved := #v[some [1], some [0]] }
  graph := { order := #[0, 1], callerIndex := #v[[1], [0]], roots := [] }
  missing := []

theorem ofListing_nested : Program.ofListing {} (nestedMain ++ nestedWork) = .ok nested := by
  have hanalyze : analyze {} (nestedMain ++ nestedWork) = nested.analysis := by decide +kernel
  rw [Program.ofListing, hanalyze]
  cbv

theorem usedAt_nestedWork : nested.usedAt {} ⟨1, by decide⟩ 0x106 = 1 := by decide +kernel

theorem usedAt_nestedMain : nested.usedAt {} ⟨0, by decide⟩ 0x86 = -1 := by decide +kernel

def nestedCalls : List (LiveCall nested {}) :=
  [{ routine := ⟨1, by decide⟩, returnAddress := 0x106, filler := [0x2a]
     mem_order := by decide
     even := by decide
     lt_top := by decide
     start_lt := by decide
     nearest := by decide
     length_filler := by rw [usedAt_nestedWork]; rfl
     writable := by rw [usedAt_nestedWork]; decide },
   { routine := ⟨0, by decide⟩, returnAddress := 0x86, filler := []
     mem_order := by decide
     even := by decide
     lt_top := by decide
     start_lt := by decide
     nearest := by decide
     length_filler := by rw [usedAt_nestedMain]; rfl
     writable := by rw [usedAt_nestedMain]; decide }]

theorem trace_nestedCalls :
    writeDump 0x8fa nestedCalls = [0xfa, 0x08, 0x00, 0x83, 0x2a, 0x00, 0x43] ∧
      Program.ofListing {} (nestedMain ++ nestedWork) = .ok nested ∧
      ∃ t, (Dump.trace nested.catalogue nested.graph {} (writeDump 0x8fa nestedCalls)).result =
          .ok t ∧
        t.stackPointer = 0x8fa ∧
        t.frames = [⟨some "work", 0x106, 1⟩, ⟨some "main", 0x86, -1⟩] ∧
        t.fullyAccounted = true := by
  obtain ⟨t, htrace, hpointer, hframes, haccounted⟩ :=
    trace_writeDump ofListing_nested rfl (by decide : 0x8fa < 65536) nestedCalls
  refine ⟨by decide, ofListing_nested, t, htrace, hpointer, ?_, haccounted.2 ?_⟩
  · rw [hframes]
    simp only [nestedCalls, List.map_cons, List.map_nil, LiveCall.frame, LiveCall.used,
      usedAt_nestedWork, usedAt_nestedMain]
    rfl
  · simp only [nestedCalls, List.map_cons, List.map_nil, LiveCall.used, usedAt_nestedWork,
      usedAt_nestedMain]
    decide

end StackDepth
