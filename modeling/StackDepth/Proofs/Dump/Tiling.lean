import Mathlib
import StackDepth.Proofs.Dump.Progress
import StackDepth.Proofs.Dump.RoundTrip

/-!
# The frames of a trace tile the dump

A trace is a walk through the dump that begins behind the stack pointer. Each frame begins where the
one before it ends, and the walk stops at the first position from which no return address can be
read: at the end of the dump, one byte before it, or behind it if the last frame claims more bytes
than there are. The bytes that the trace accounts for are summed up apart from the walk, and a
negative usage is cut off in both places. So the sum is where the walk has stopped, counted from
where it began.
-/
namespace StackDepth

open Text

namespace Dump

variable {n : Nat} {c : Catalogue n} {g : CallGraph n} {config : Config} {dump : List UInt8}
variable {p q : Int} {k : Nat} {frames : List TraceFrame} {frame : TraceFrame}

/-! ### Reading at a position -/

theorem byteAt?_natCast (dump : List UInt8) (position : Nat) :
    byteAt? dump.toArray position = dump[position]?.map UInt8.toNat := by
  have hneg : ¬ ((position : Int) < 0) := by omega
  simp [byteAt?, hneg]

theorem returnAddressAt?_natCast {position : Nat} (h : position + 2 ≤ dump.length) :
    ∃ high low, dump[position]? = some high ∧ dump[position + 1]? = some low ∧
      returnAddressAt? dump.toArray position =
        some (2 * (256 * (high.toNat : Int) + low.toNat)) := by
  have hhigh := List.getElem?_eq_getElem (show position < dump.length by omega)
  have hlow := List.getElem?_eq_getElem (show position + 1 < dump.length by omega)
  refine ⟨_, _, hhigh, hlow, ?_⟩
  have hbyte := byteAt?_natCast dump position
  have hnext := byteAt?_natCast dump (position + 1)
  rw [hhigh] at hbyte
  rw [hlow, Int.natCast_add, Int.natCast_one] at hnext
  rw [returnAddressAt?, hbyte, hnext]
  simp only [Option.map_some, Option.bind_eq_bind, Option.bind_some, Option.some.injEq]
  push_cast
  ring

theorem frameFrom?_eq_some_iff :
    frameFrom? c g config dump p = some frame ↔
      p + 2 ≤ dump.length ∧ ∃ address, returnAddressAt? dump.toArray p = some address ∧
        (frameAt c g config address).result = .ok frame := by
  have hok : ∀ address, (frameAt c g config address).result.toOption = some frame ↔
      (frameAt c g config address).result = .ok frame := fun address => by
    cases (frameAt c g config address).result <;> simp [Except.toOption]
  by_cases hend : (dump.length : Int) < p + 2
  · rw [frameFrom?, if_pos hend]
    constructor
    · intro h
      cases h
    · intro h
      exact absurd h.1 (Int.not_le.2 hend)
  · rw [frameFrom?, if_neg hend, Option.bind_eq_some_iff]
    simp only [hok, Int.not_lt.1 hend, true_and]

theorem returnAddress_of_frameAt {address : Int}
    (h : (frameAt c g config address).result = .ok frame) : frame.returnAddress = address := by
  unfold frameAt at h
  cases hcontaining : g.containing c address with
  | none =>
    simp only [hcontaining] at h
    cases h
    rfl
  | some i =>
    simp only [hcontaining] at h
    split at h
    · cases h
      rfl
    · split at h
      · cases h
      · cases h
        rfl

/-- The frame at a position is the one that the two bytes there lead to. -/
structure Found (c : Catalogue n) (g : CallGraph n) (config : Config) (dump : List UInt8)
    (position : Nat) (frame : TraceFrame) : Prop where
  bytes : ∃ high low, dump[position]? = some high ∧ dump[position + 1]? = some low ∧
    frame.returnAddress = 2 * (256 * (high.toNat : Int) + low.toNat)
  frame : (frameAt c g config frame.returnAddress).result = .ok frame

theorem found_of_frameFrom? {position : Nat}
    (h : frameFrom? c g config dump position = some frame) :
    position + 2 ≤ dump.length ∧ Found c g config dump position frame := by
  obtain ⟨hroom, address, haddress, hframe⟩ := frameFrom?_eq_some_iff.1 h
  have hle : position + 2 ≤ dump.length := by omega
  obtain ⟨high, low, hhigh, hlow, hbytes⟩ := returnAddressAt?_natCast hle
  rw [hbytes, Option.some.injEq] at haddress
  have hreturn := returnAddress_of_frameAt hframe
  refine ⟨hle, ⟨high, low, hhigh, hlow, hreturn.trans haddress.symm⟩, ?_⟩
  rw [hreturn, hframe]

/-! ### Walks that tile -/

/-- The frames follow one another from the position on, up to where no return address can be
read. -/
inductive Tiles (c : Catalogue n) (g : CallGraph n) (config : Config) (dump : List UInt8) :
    Int → List TraceFrame → Prop
  | done {p : Int} : dump.length < p + 2 → Tiles c g config dump p []
  | frame {p : Int} {frame : TraceFrame} {rest : List TraceFrame} :
      frameFrom? c g config dump p = some frame →
      Tiles c g config dump (p + Trace.span config.returnAddressBytes frame) rest →
      Tiles c g config dump p (frame :: rest)

theorem framesFrom_of_frameFrom? (h : frameFrom? c g config dump p = some frame) (steps : Nat) :
    (framesFrom c g config dump.toArray (steps + 1) p).result =
      (framesFrom c g config dump.toArray steps
        (p + Trace.span config.returnAddressBytes frame)).result.map (frame :: ·) := by
  obtain ⟨hroom, address, haddress, hframe⟩ := frameFrom?_eq_some_iff.1 h
  rw [framesFrom, List.size_toArray, if_neg (Int.not_lt.2 hroom)]
  simp only [haddress, hframe]

/-- A walk gives frames that tile, or has too few steps, or comes to a position with room for a
return address but no frame. -/
theorem framesFrom_cases (c : Catalogue n) (g : CallGraph n) (config : Config) (dump : List UInt8)
    (steps : Nat) (p : Int) :
    (∃ frames, (framesFrom c g config dump.toArray steps p).result = .ok frames ∧
        Tiles c g config dump p frames) ∨
      (framesFrom c g config dump.toArray steps p).result = .error .endless ∨
      ∃ k q, Rounds c g config dump p k q ∧ q + 2 ≤ dump.length ∧
        frameFrom? c g config dump q = none := by
  induction steps generalizing p with
  | zero => exact .inr (.inl rfl)
  | succ steps ih =>
    by_cases hend : (dump.length : Int) < p + 2
    · refine .inl ⟨[], ?_, .done hend⟩
      rw [framesFrom, List.size_toArray, if_pos hend]
    cases hframe : frameFrom? c g config dump p with
    | none => exact .inr (.inr ⟨0, p, .none p, Int.not_lt.1 hend, hframe⟩)
    | some frame =>
      rw [framesFrom_of_frameFrom? hframe]
      rcases ih (p + Trace.span config.returnAddressBytes frame) with
        ⟨rest, hrest, htiles⟩ | hendless | ⟨k, q, hrounds, hroom, hnone⟩
      · exact .inl ⟨frame :: rest, by rw [hrest]; rfl, .frame hframe htiles⟩
      · exact .inr (.inl (by rw [hendless]; rfl))
      · have hnext : next? c g config dump p =
            some (p + Trace.span config.returnAddressBytes frame) := by
          rw [next?, hframe, Option.map_some]
        exact .inr (.inr ⟨k + 1, q, .round hnext hrounds, hroom, hnone⟩)

theorem Tiles.frameFrom? (h : Tiles c g config dump p frames) (hframe : frames[k]? = some frame) :
    Dump.frameFrom? c g config dump
      (p + ((frames.take k).map (Trace.span config.returnAddressBytes)).sum) = some frame := by
  induction h generalizing k with
  | done _ => simp at hframe
  | @frame p first rest hfirst _ ih =>
    cases k with
    | zero =>
      cases hframe
      simpa using hfirst
    | succ k =>
      have hlater := ih hframe
      rwa [Int.add_assoc, ← List.sum_cons, ← List.map_cons, ← List.take_succ_cons] at hlater

theorem Tiles.ends (h : Tiles c g config dump p frames) :
    dump.length < p + (frames.map (Trace.span config.returnAddressBytes)).sum + 2 := by
  induction h with
  | done hend => simpa using hend
  | frame _ _ ih => rwa [List.map_cons, List.sum_cons, ← Int.add_assoc]

/-! ### Walks that succeed -/

/-- Wherever the walk through the dump finds a routine that holds a negative number of bytes, the
warning about it can be written. -/
def Writable (c : Catalogue n) (g : CallGraph n) (config : Config) (dump : List UInt8) : Prop :=
  ∀ k p address i, Rounds c g config dump 2 k p →
    returnAddressAt? dump.toArray p = some address → g.containing c address = some i →
    (analyzePart config (c.routine i) address).routine.stackUsed < 0 →
    (Nat.toDigits 10
      (analyzePart config (c.routine i) address).routine.stackUsed.natAbs).length ≤ 4300

theorem exists_frameFrom? (hwritable : Writable c g config dump)
    (hrounds : Rounds c g config dump 2 k p) (hstart : 0 ≤ p) (hroom : p + 2 ≤ dump.length) :
    ∃ frame, frameFrom? c g config dump p = some frame := by
  obtain ⟨position, rfl⟩ := Int.eq_ofNat_of_zero_le hstart
  have hle : position + 2 ≤ dump.length := by omega
  obtain ⟨high, low, -, -, haddress⟩ := returnAddressAt?_natCast hle
  have hframe : ∃ frame, (frameAt c g config
      (2 * (256 * (high.toNat : Int) + low.toNat))).result = .ok frame := by
    cases hcontaining : g.containing c (2 * (256 * (high.toNat : Int) + low.toNat)) with
    | none =>
      rw [frameAt, hcontaining]
      exact ⟨_, rfl⟩
    | some i =>
      exact ⟨_, frameAt_of_containing hcontaining rfl
        (hwritable k _ _ i hrounds haddress hcontaining)⟩
  obtain ⟨frame, hframe⟩ := hframe
  exact ⟨frame, frameFrom?_eq_some_iff.2 ⟨hroom, _, haddress, hframe⟩⟩

theorem exists_tiles (hbytes : 1 ≤ config.returnAddressBytes) (hdump : 2 ≤ dump.length)
    (hwritable : Writable c g config dump) :
    ∃ frames, (framesFrom c g config dump.toArray (2 * dump.length) 2).result = .ok frames ∧
      Tiles c g config dump 2 frames := by
  have hforward : Advances c g config dump :=
    advances_of_not_stalls (by omega) fun hstalls => by
      have := hstalls.1
      omega
  rcases framesFrom_cases c g config dump (2 * dump.length) 2 with
    htiles | hendless | ⟨k, q, hrounds, hroom, hnone⟩
  · exact htiles
  · have hsteps := (trace_endless_iff hdump).2 (framesFrom_endless_iff.1 hendless)
    exact absurd hsteps (hforward.endsInTime.not_endless hdump)
  · have hstart := hforward.le_position hrounds
    obtain ⟨frame, hframe⟩ := exists_frameFrom? hwritable hrounds (by omega) hroom
    rw [hnone] at hframe
    cases hframe

/-! ### Positions of frames -/

/-- Where the frame with the given number begins. -/
def position (returnAddressBytes : Int) (frames : List TraceFrame) (k : Nat) : Int :=
  2 + ((frames.take k).map (Trace.span returnAddressBytes)).sum

theorem position_succ (returnAddressBytes : Int) (h : frames[k]? = some frame) :
    position returnAddressBytes frames (k + 1) =
      position returnAddressBytes frames k + returnAddressBytes + max frame.bytesUsed 0 := by
  rw [position, position, List.take_add_one, h, Option.toList_some, List.map_append,
    List.sum_append, List.map_singleton, List.sum_singleton, Trace.span]
  ring

theorem position_length (returnAddressBytes : Int) (frames : List TraceFrame) :
    position returnAddressBytes frames frames.length =
      2 + (frames.map (Trace.span returnAddressBytes)).sum := by
  rw [position, List.take_length]

theorem two_le_position {returnAddressBytes : Int} (h : 0 ≤ returnAddressBytes)
    (frames : List TraceFrame) (k : Nat) : 2 ≤ position returnAddressBytes frames k := by
  have hsum : 0 ≤ ((frames.take k).map (Trace.span returnAddressBytes)).sum := by
    refine List.sum_nonneg fun span hspan => ?_
    obtain ⟨frame, -, rfl⟩ := List.mem_map.1 hspan
    rw [Trace.span]
    omega
  rw [position]
  omega

/-- Frames begin at the given positions, each behind the one before it. They are the frames that
the bytes there lead to, and the walk goes on as long as a return address can be read. -/
structure Tiling (c : Catalogue n) (g : CallGraph n) (config : Config) (dump : List UInt8)
    (frames : List TraceFrame) (position : Nat → Nat) : Prop where
  start : position 0 = 2
  next : ∀ k frame, frames[k]? = some frame →
    (position (k + 1) : Int) = position k + config.returnAddressBytes + max frame.bytesUsed 0
  found : ∀ k frame, frames[k]? = some frame → Found c g config dump (position k) frame
  least : IsLeast {k | dump.length < position k + 2} frames.length

theorem Tiles.tiling (hbytes : 0 ≤ config.returnAddressBytes) (h : Tiles c g config dump 2 frames) :
    Tiling c g config dump frames fun k => (position config.returnAddressBytes frames k).toNat := by
  have hcast : ∀ k, ((position config.returnAddressBytes frames k).toNat : Int) =
      position config.returnAddressBytes frames k := fun k => by
    have := two_le_position hbytes frames k
    omega
  have hfound : ∀ k frame, frames[k]? = some frame →
      (position config.returnAddressBytes frames k).toNat + 2 ≤ dump.length ∧
        Found c g config dump (position config.returnAddressBytes frames k).toNat frame := by
    intro k frame hframe
    refine found_of_frameFrom? ?_
    rw [hcast]
    exact h.frameFrom? hframe
  refine ⟨rfl, ?_, fun k frame hframe => (hfound k frame hframe).2, ?_, ?_⟩
  · intro k frame hframe
    rw [hcast, hcast, position_succ _ hframe]
  · have hends := h.ends
    have hend := hcast frames.length
    rw [← position_length] at hends
    change dump.length < (position config.returnAddressBytes frames frames.length).toNat + 2
    omega
  · intro k hk
    by_contra hlt
    have hroom := (hfound k _ (List.getElem?_eq_getElem (Nat.lt_of_not_le hlt))).1
    exact absurd hk (Nat.not_lt.2 hroom)

theorem trace_of_framesFrom (hdump : 2 ≤ dump.length)
    (h : (framesFrom c g config dump.toArray (2 * dump.length) 2).result = .ok frames) :
    ∃ low high, dump[0]? = some low ∧ dump[1]? = some high ∧
      (trace c g config dump).result =
        .ok ⟨256 * (high.toNat : Int) + low.toNat, frames, config.stackEnd,
          config.returnAddressBytes⟩ := by
  match dump, hdump with
  | low :: high :: rest, _ =>
    refine ⟨low, high, rfl, rfl, ?_⟩
    simp only [trace, h, Except.map]
    push_cast
    rw [Int.mul_comm]

/-- If return addresses have bytes, every dump with a stack pointer has a trace whose frames tile
it from behind the stack pointer up to the first position where no return address can be read. The
trace accounts for the bytes up to that position, all of the dump but at most one byte, and so for
the whole stack exactly if the walk stops at the end of the stack. -/
theorem trace_tiles (c : Catalogue n) (g : CallGraph n) (config : Config) (dump : List UInt8)
    (hbytes : 1 ≤ config.returnAddressBytes) (hdump : 2 ≤ dump.length)
    (hwritable : Writable c g config dump) :
    ∃ t position, (trace c g config dump).result = .ok t ∧
      Tiling c g config dump t.frames position ∧
      t.accounted = position t.frames.length - 2 ∧
      (dump.length : Int) - 3 ≤ t.accounted ∧
      (∃ low high, dump[0]? = some low ∧ dump[1]? = some high ∧
        t.stackPointer = 256 * (high.toNat : Int) + low.toNat) ∧
      (t.fullyAccounted = true ↔
        (position t.frames.length : Int) - 2 = config.stackEnd - t.stackPointer - 1) := by
  obtain ⟨frames, hframes, htiles⟩ := exists_tiles hbytes hdump hwritable
  obtain ⟨low, high, hlow, hhigh, htrace⟩ := trace_of_framesFrom hdump hframes
  have hnonneg : 0 ≤ config.returnAddressBytes := by omega
  have htiling := htiles.tiling hnonneg
  have hsum : Trace.accounted ⟨256 * (high.toNat : Int) + low.toNat, frames, config.stackEnd,
      config.returnAddressBytes⟩ =
        (position config.returnAddressBytes frames frames.length).toNat - 2 := by
    have hstart := two_le_position hnonneg frames frames.length
    rw [Trace.accounted_eq_sum, Int.toNat_of_nonneg (by omega), position_length]
    exact (add_sub_cancel_left _ _).symm
  have hend : dump.length <
      (position config.returnAddressBytes frames frames.length).toNat + 2 := htiling.least.1
  refine ⟨_, _, htrace, htiling, hsum, ?_, ⟨low, high, hlow, hhigh, rfl⟩, ?_⟩
  · rw [hsum]
    omega
  · simp only [Trace.fullyAccounted, Trace.unaccounted, hsum, Trace.total, decide_eq_true_eq]
    omega

/-! ### A frame that runs past the end

The routine that gives back a byte it never took is found first, and its frame is only the return
address; the one behind it holds a byte that the dump does not have any more. -/

def cutOffDump : List UInt8 := [0xfa, 0x08, 0x00, 0x43, 0x00, 0x83]

theorem rounds_cutOffDump
    (h : Rounds nested.catalogue nested.graph {} cutOffDump 2 k p) : p = 2 ∨ p = 4 ∨ p = 7 := by
  have hfirst : next? nested.catalogue nested.graph {} cutOffDump 2 = some 4 := by decide +kernel
  have hsecond : next? nested.catalogue nested.graph {} cutOffDump 4 = some 7 := by decide +kernel
  have hlast : next? nested.catalogue nested.graph {} cutOffDump 7 = none := by decide +kernel
  cases h with
  | none => exact .inl rfl
  | round hnext h =>
    cases hfirst.symm.trans hnext
    cases h with
    | none => exact .inr (.inl rfl)
    | round hnext h =>
      cases hsecond.symm.trans hnext
      cases h with
      | none => exact .inr (.inr rfl)
      | round hnext _ => cases hlast.symm.trans hnext

theorem writable_cutOffDump : Writable nested.catalogue nested.graph {} cutOffDump := by
  intro k p address i hrounds haddress hcontaining hneg
  rcases rounds_cutOffDump hrounds with rfl | rfl | rfl
  · have haddress' : returnAddressAt? cutOffDump.toArray 2 = some 0x86 := by decide
    cases haddress'.symm.trans haddress
    have hmain : nested.graph.containing nested.catalogue 0x86 = some ⟨0, by decide⟩ := by
      decide +kernel
    cases hmain.symm.trans hcontaining
    have hused := usedAt_nestedMain
    unfold Program.usedAt at hused
    rw [hused]
    decide
  · have haddress' : returnAddressAt? cutOffDump.toArray 4 = some 0x106 := by decide
    cases haddress'.symm.trans haddress
    have hwork : nested.graph.containing nested.catalogue 0x106 = some ⟨1, by decide⟩ := by
      decide +kernel
    cases hwork.symm.trans hcontaining
    have hused := usedAt_nestedWork
    unfold Program.usedAt at hused
    rw [hused] at hneg
    cases hneg
  · have haddress' : returnAddressAt? cutOffDump.toArray 7 = none := by decide
    cases haddress'.symm.trans haddress

theorem trace_tiles_cutOffDump :
    ∃ t position, (trace nested.catalogue nested.graph {} cutOffDump).result = .ok t ∧
      Tiling nested.catalogue nested.graph {} cutOffDump t.frames position ∧
      t.frames = [⟨some "main", 0x86, -1⟩, ⟨some "work", 0x106, 1⟩] ∧
      position 2 = 7 ∧ t.accounted = 5 ∧ t.fullyAccounted = true := by
  obtain ⟨t, position, htrace, htiling, haccounted, -, hstack, hfully⟩ :=
    trace_tiles nested.catalogue nested.graph {} cutOffDump (by decide) (by decide)
      writable_cutOffDump
  obtain ⟨low, high, hlow, hhigh, hpointer⟩ := hstack
  have hframes : (trace nested.catalogue nested.graph {} cutOffDump).result.toOption.map
      Trace.frames = some [⟨some "main", 0x86, -1⟩, ⟨some "work", 0x106, 1⟩] := by decide +kernel
  rw [htrace] at hframes
  cases hlow
  cases hhigh
  have hframes : t.frames = _ := Option.some.inj hframes
  have hstart := htiling.start
  have hsecond : (position 1 : Int) = position 0 + 2 + max (-1) 0 :=
    htiling.next 0 ⟨some "main", 0x86, -1⟩ (by rw [hframes]; rfl)
  have hend : (position 2 : Int) = position 1 + 2 + max 1 0 :=
    htiling.next 1 ⟨some "work", 0x106, 1⟩ (by rw [hframes]; rfl)
  have hposition : position 2 = 7 := by omega
  refine ⟨t, position, htrace, htiling, hframes, hposition, ?_, ?_⟩
  · rw [haccounted, hframes, List.length_cons, List.length_singleton, hposition]
    rfl
  · rw [hfully, hframes, List.length_cons, List.length_singleton, hposition, hpointer]
    decide

end Dump
end StackDepth
