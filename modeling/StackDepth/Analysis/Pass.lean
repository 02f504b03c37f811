import StackDepth.Diagnostic
import StackDepth.Listing.StackPointer
import StackDepth.Routine.Basic

/-!
# Passes over a listing

A pass goes through lines in order and charges what each of them does to the routine whose label
came last. A full pass takes in the whole listing and lets the stack only grow, since a routine is
deepest before its epilogue. A bounded pass follows one routine up to an address and lets the
stack shrink as well, so that it ends with the bytes in use at that address.

A line whose effect cannot be told is reported and passed over; no line ends a pass.
-/
namespace StackDepth

open Text

/-- How a pass treats its lines. -/
inductive PassMode where
  /-- Through all lines, without releases. -/
  | full
  /-- Up to the first instruction at the address or beyond it, with releases. -/
  | bounded (stop : Int)
deriving DecidableEq, Repr

namespace PassMode

def follows : PassMode → Bool
  | full => false
  | bounded _ => true

/-- Whether the pass ends before the line. -/
def endsBefore (mode : PassMode) (line : String) : Bool :=
  match mode with
  | full => false
  | bounded stop => (Line.address? line).any fun address => stop ≤ address

end PassMode

/-- What a pass made of a line. -/
inductive Outcome where
  | matched
  | unmatched
  | faulted
deriving DecidableEq, Repr

/-- How many lines had each outcome. -/
structure Outcomes where
  matched : Nat := 0
  unmatched : Nat := 0
  faulted : Nat := 0
deriving DecidableEq, Repr

def Outcomes.count (o : Outcomes) : Outcome → Outcomes
  | .matched => { o with matched := o.matched + 1 }
  | .unmatched => { o with unmatched := o.unmatched + 1 }
  | .faulted => { o with faulted := o.faulted + 1 }

/-- Why the effect of a line cannot be told. Numbers are kept as they are written. -/
inductive LineFault where
  | duplicateRoutine (name : String) (address : Nat) (holder : String)
  | missingFrameLoad (routine : String)
  | doubleReservation (routine held : String)
  | numeral (error : NumeralError)
deriving DecidableEq, Repr

namespace LineFault

def code : LineFault → String
  | duplicateRoutine .. => "duplicate-function"
  | missingFrameLoad .. => "missing-frame-load"
  | doubleReservation .. => "double-reservation"
  | numeral .. => "line-fault"

def message : LineFault → String
  | duplicateRoutine name address holder =>
    s!"{name} starts at 0x{Numeral.writeHex address}, already taken by {holder}"
  | missingFrameLoad routine => s!"{routine}: register-save helper without r26/r27 frame size"
  | doubleReservation routine held => s!"{routine}: reserves again while {held} bytes are held"
  | numeral error => s!"ValueError: {error.message}"

end LineFault

/-- Something odd about a line whose effect was taken. -/
inductive LineWarning where
  | tailJumpOffset (routine target : String) (offset : Nat)
  | releaseMismatch (routine released held : String)
deriving DecidableEq, Repr

namespace LineWarning

def code : LineWarning → String
  | tailJumpOffset .. => "tail-jump-offset"
  | releaseMismatch .. => "release-mismatch"

def message : LineWarning → String
  | tailJumpOffset routine target offset =>
    s!"outside jump with offset: {routine} >> {target}+0x{Numeral.writeHexLower offset}"
  | releaseMismatch routine released held =>
    s!"{routine} released {released}, but reserved {held}"

end LineWarning

/-- What a line does to the state of a pass. -/
inductive Reaction where
  | ignored
  | faulted (fault : LineFault)
  /-- The line starts a routine, whose address may be taken. -/
  | opened (routine : Routine) (clash : Option LineFault)
  /-- The line changes the current routine. -/
  | changed (routine : Routine) (warning : Option LineWarning)
deriving DecidableEq, Repr

def Reaction.outcome : Reaction → Outcome
  | ignored => .unmatched
  | faulted _ => .faulted
  | opened _ clash => if clash.isSome then .faulted else .matched
  | changed _ _ => .matched

namespace Routine

/-- The frame size bytes that were loaded last, as far as they are known. -/
structure FrameLoads where
  low : Option Nat := none
  high : Option Nat := none
deriving DecidableEq, Repr

/-- Notes a load, unless a later one to the same register is known. -/
def FrameLoads.note (loads : FrameLoads) : FrameRegister → Nat → FrameLoads
  | .r26, amount => { loads with low := loads.low <|> some amount }
  | .r27, amount => { loads with high := loads.high <|> some amount }

/-- Looks for the last load to each register in lines that stand last first; lines before the
loads are not looked at. -/
def findLoads (config : Config) : FrameLoads → List String → Except NumeralError FrameLoads
  | loads, [] => .ok loads
  | loads, line :: earlier =>
    if loads.low.isSome && loads.high.isSome then .ok loads
    else
      match Line.classify config line with
      | .error e => .error e
      | .ok (.instruction _ (.frameLoad register amount)) =>
        findLoads config (loads.note register amount) earlier
      | .ok _ => findLoads config loads earlier

/-- Reserves a block of stack, unless one is held. -/
def reserve (r : Routine) (amount : Int) : Reaction :=
  if r.reserved = 0 then
    .changed { r with stackUsed := r.stackUsed + amount, reserved := amount } none
  else
    match Numeral.write r.reserved with
    | .ok held => .faulted (.doubleReservation r.name held)
    | .error e => .faulted (.numeral e)

/-- The bytes that the register-save helper takes: the frame size from the registers, and one for
each register that the entry point does not skip. -/
def savedBytes (config : Config) (low high : Nat) (offset : Option Nat) : Int :=
  low + high * 256 + (config.registerSaveBaseline - (offset.getD 0 / 2 : Nat))

def saveRegisters (config : Config) (r : Routine) (offset : Option Nat) : Reaction :=
  match findLoads config {} r.lines.toList.reverse with
  | .error e => .faulted (.numeral e)
  | .ok ⟨some low, some high⟩ => r.reserve (savedBytes config low high offset)
  | .ok _ => .faulted (.missingFrameLoad r.name)

def addTarget (r : Routine) (target : Nat) : Routine :=
  { r with callTargets := r.callTargets.insert target }

/-- A jump within the routine or to a helper is no call. -/
def jump (config : Config) (r : Routine) (target : Nat) (name : String) (offset : Option Nat) :
    Reaction :=
  if name = r.name || config.isHelper name then .ignored
  else
    let warning :=
      match offset with
      | none | some 0 => none
      | some offset => some (.tailJumpOffset r.name name offset)
    .changed (r.addTarget target) warning

/-- Releases the reserved block; the amount is given as a negative number of sixteen bits. -/
def release (config : Config) (r : Routine) (amount : Nat) : Reaction :=
  let released := config.releaseModulus - amount
  let after := { r with stackUsed := r.stackUsed - released, reserved := 0 }
  if released = r.reserved then .changed after none
  else
    match Numeral.write released, Numeral.write r.reserved with
    | .ok released, .ok held => .changed after (some (.releaseMismatch r.name released held))
    | .error e, _ | _, .error e => .faulted (.numeral e)

/-- What an operation does to the routine that it stands in. -/
def operate (config : Config) (mode : PassMode) (r : Routine) : Operation → Reaction
  | .push => .changed { r with stackUsed := r.stackUsed + 1 } none
  | .selfCall => .changed { r with stackUsed := r.stackUsed + config.returnAddressBytes } none
  | .registerSave offset => r.saveRegisters config offset
  | .call target => .changed (r.addTarget target) none
  | .stackDecrement amount =>
    if (amount : Int) < config.reserveThreshold then .ignored else r.reserve amount
  | .jump target name offset => r.jump config target name offset
  | .pop =>
    if mode.follows then .changed { r with stackUsed := r.stackUsed - 1 } none else .ignored
  | .stackIncrement amount => if mode.follows then r.release config amount else .ignored
  | .registerRestore _ =>
    if mode.follows then
      .changed { r with stackUsed := r.stackUsed - r.reserved, reserved := 0 } none
    else .ignored
  | .frameLoad .. | .stackLow _ | .other => .ignored

end Routine

/-- The state of a pass between two lines. -/
structure PassState where
  /-- The number of lines passed. -/
  index : Nat := 0
  /-- The routines whose labels were passed, the current one first. -/
  opened : List Routine := []
  outcomes : Outcomes := {}
  diagnostics : List Diagnostic := []
deriving DecidableEq, Repr

namespace PassState

/-- The first routine of the listing that starts at the address. -/
def holder? (s : PassState) (address : Int) : Option Routine :=
  s.opened.reverse.find? (·.start = address)

def openRoutine (s : PassState) (address : Nat) (name : String) : Reaction :=
  .opened { name, start := address, lineStart := s.index }
    ((s.holder? address).map fun first => .duplicateRoutine name address first.name)

/-- What the next line does, given the lines behind it. -/
def react (config : Config) (mode : PassMode) (s : PassState) (line : String)
    (following : List String) : Reaction :=
  match Line.classifyAt config line following with
  | .error e => .faulted (.numeral e)
  | .ok (.label address name) => s.openRoutine address name
  | .ok (.instruction _ operation) =>
    match s.opened with
    | [] => .ignored
    | current :: _ => current.operate config mode operation
  | .ok .text => .ignored

/-- The diagnostic about the next line, where its reaction gives rise to one. -/
def diagnose (s : PassState) (line : String) : Reaction → List Diagnostic
  | .ignored => []
  | .faulted fault | .opened _ (some fault) =>
    [{ severity := .error, code := fault.code, message := fault.message,
       lineIndex := some s.index, lineText := some line }]
  | .changed _ (some warning) =>
    [{ severity := .warning, code := warning.code, message := warning.message,
       lineIndex := some s.index, lineText := some line }]
  | .opened _ none | .changed _ none => []

/-- The routines after a reaction. -/
def routines (s : PassState) : Reaction → List Routine
  | .ignored | .faulted _ => s.opened
  | .opened routine _ => routine :: s.opened
  | .changed routine _ => routine :: s.opened.tail

/-- Adds a line to the current routine. -/
def ownLine (line : String) : List Routine → List Routine
  | [] => []
  | current :: earlier => { current with lines := current.lines.push line } :: earlier

/-- Passes one line. -/
def step (config : Config) (mode : PassMode) (s : PassState) (line : String)
    (following : List String) : PassState :=
  let reaction := s.react config mode line following
  { index := s.index + 1
    opened := ownLine line (s.routines reaction)
    outcomes := s.outcomes.count reaction.outcome
    diagnostics := s.diagnostics ++ s.diagnose line reaction }

/-- Passes lines until the mode ends the pass. -/
def run (config : Config) (mode : PassMode) : PassState → List String → PassState
  | s, [] => s
  | s, line :: rest =>
    if mode.endsBefore line then s else run config mode (s.step config mode line rest) rest

end PassState

/-- What a full pass finds. -/
structure Analysis where
  /-- The routines in the order of the listing; of those with one address, the first. -/
  routines : List Routine
  outcomes : Outcomes
  diagnostics : List Diagnostic
deriving DecidableEq, Repr

/-- The first routine of each start address. -/
def firstByStart : List Routine → List Routine
  | [] => []
  | r :: rest => r :: (firstByStart rest).filter (·.start ≠ r.start)

/-- A full pass over a listing. -/
def analyze (config : Config) (lines : List String) : Analysis :=
  let s := PassState.run config .full {} lines
  { routines := firstByStart s.opened.reverse
    outcomes := s.outcomes
    diagnostics := s.diagnostics }

/-- The state of a routine at a point within it. -/
structure Snapshot where
  routine : Routine
  diagnostics : List Diagnostic
deriving DecidableEq, Repr

/-- A bounded pass over the lines of a routine, with the stack in use before the address. -/
def analyzePart (config : Config) (r : Routine) (stop : Int) : Snapshot :=
  let s := PassState.run config (.bounded stop) {} r.lines.toList
  { routine := s.opened.head?.getD { name := r.name, start := r.start }
    diagnostics := s.diagnostics }

end StackDepth
