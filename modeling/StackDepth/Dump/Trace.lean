import StackDepth.Analysis.Pass
import StackDepth.CallGraph.Basic
import StackDepth.Dump.Bytes

/-!
# Traces

A stack dump holds the stack pointer, low byte first, and then the stack from there upwards: for
each live call, innermost first, its return address as a big-endian count of words, and the bytes
that the calling routine had taken when it made the call. These have no mark at their end. How
many they are is found by following the routine that holds the return address up to it.
-/
namespace StackDepth

open Text

/-- One live call: where it returns to, and the bytes that the routine there had taken. -/
structure TraceFrame where
  /-- The name of the routine, unless the address lies before all routines. -/
  routine : Option String
  returnAddress : Int
  bytesUsed : Int
deriving DecidableEq, Repr

def TraceFrame.name (f : TraceFrame) : String := f.routine.getD "<unknown>"

structure Trace where
  stackPointer : Int
  /-- The live calls, innermost first. -/
  frames : List TraceFrame
  stackEnd : Int := ({} : Config).stackEnd
  returnAddressBytes : Int := ({} : Config).returnAddressBytes
deriving DecidableEq, Repr

namespace Trace

/-- The bytes that a frame spans in the dump; a negative usage spans none. -/
def span (returnAddressBytes : Int) (f : TraceFrame) : Int :=
  max f.bytesUsed 0 + returnAddressBytes

/-- The bytes that the frames explain. -/
def accounted (t : Trace) : Int :=
  t.frames.foldr (fun f rest => span t.returnAddressBytes f + rest) 0

/-- The bytes between the stack pointer and the end of the stack. -/
def total (t : Trace) : Int := t.stackEnd - t.stackPointer - 1

def unaccounted (t : Trace) : Int := t.total - t.accounted

def fullyAccounted (t : Trace) : Bool := t.unaccounted = 0

end Trace

/-- Why a dump has no trace. -/
inductive TraceError where
  | dump (error : DumpError)
  /-- A warning holds a number too long to be written. -/
  | numeral (error : NumeralError)
  /-- The walk through the dump, which may go backwards where return addresses take a negative
  number of bytes, left the dump at its beginning. -/
  | outOfRange
  /-- The walk through the dump comes back to a position and so never ends. -/
  | endless
deriving DecidableEq, Repr

def TraceError.message : TraceError → String
  | dump error => error.message
  | numeral error => error.message
  | outOfRange => "index out of range"
  | endless => "the frames of the dump repeat without end"

/-- Something found while the warnings on the way to it were noted. -/
structure Noted (α : Type) where
  diagnostics : List Diagnostic
  result : α

namespace Dump

variable {n : Nat}

def warning (code message : String) : Diagnostic := { severity := .warning, code, message }

/-- The frame that returns to the address. -/
def frameAt (c : Catalogue n) (g : CallGraph n) (config : Config) (address : Int) :
    Noted (Except NumeralError TraceFrame) :=
  let place := Numeral.writeHexPadded 4 address
  match g.containing c address with
  | none =>
    ⟨[warning "unknown-frame" s!"return address 0x{place} precedes every known function"],
      .ok ⟨none, address, 0⟩⟩
  | some i =>
    let snapshot := analyzePart config (c.routine i) address
    let used := snapshot.routine.stackUsed
    let frame : TraceFrame := ⟨some snapshot.routine.name, address, used⟩
    if 0 ≤ used then ⟨snapshot.diagnostics, .ok frame⟩
    else
      match Numeral.write used with
      | .error e => ⟨snapshot.diagnostics, .error e⟩
      | .ok text =>
        ⟨snapshot.diagnostics ++
            [warning "negative-frame" s!"{(c.routine i).name} holds {text} bytes at 0x{place}"],
          .ok frame⟩

/-- The byte at a position, which counts from the end where it is negative. -/
def byteAt? (dump : Array UInt8) (position : Int) : Option Nat :=
  let k := if position < 0 then dump.size + position else position
  if k < 0 then none else dump[k.toNat]?.map (·.toNat)

/-- The return address at a position. The machine counts words, and there are two bytes to a
word. -/
def returnAddressAt? (dump : Array UInt8) (position : Int) : Option Int := do
  let high ← byteAt? dump position
  let low ← byteAt? dump (position + 1)
  some (((high * 256 + low) * 2 : Nat) : Int)

/-- The frames from a position on, if they come to an end within the given number of steps. -/
def framesFrom (c : Catalogue n) (g : CallGraph n) (config : Config) (dump : Array UInt8) :
    (steps : Nat) → (position : Int) → Noted (Except TraceError (List TraceFrame))
  | 0, _ => ⟨[], .error .endless⟩
  | steps + 1, position =>
    if dump.size < position + 2 then ⟨[], .ok []⟩
    else
      match returnAddressAt? dump position with
      | none => ⟨[], .error .outOfRange⟩
      | some address =>
        let found := frameAt c g config address
        match found.result with
        | .error e => ⟨found.diagnostics, .error (.numeral e)⟩
        | .ok frame =>
          let next := position + Trace.span config.returnAddressBytes frame
          let later := framesFrom c g config dump steps next
          ⟨found.diagnostics ++ later.diagnostics, later.result.map (frame :: ·)⟩

/-- The trace of a dump. Where a frame starts is all that decides what follows it, and a frame can
start at no more than twice as many positions as there are bytes; a walk that takes more steps
would repeat itself without end. -/
def trace (c : Catalogue n) (g : CallGraph n) (config : Config) (dump : List UInt8) :
    Noted (Except TraceError Trace) :=
  match dump with
  | low :: high :: _ =>
    let found := framesFrom c g config dump.toArray (2 * dump.length) 2
    ⟨found.diagnostics, found.result.map fun frames =>
      { stackPointer := (high.toNat * 256 + low.toNat : Nat)
        frames
        stackEnd := config.stackEnd
        returnAddressBytes := config.returnAddressBytes }⟩
  | _ => ⟨[], .error (.dump .tooShort)⟩

/-- The trace of a dump that is given as text. -/
def traceText (c : Catalogue n) (g : CallGraph n) (config : Config) (text : String) :
    Noted (Except TraceError Trace) :=
  match parse text with
  | .error e => ⟨[], .error (.dump e)⟩
  | .ok dump => trace c g config dump

end Dump
end StackDepth
