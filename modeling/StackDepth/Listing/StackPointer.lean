import StackDepth.Listing.Line

/-!
# Stack pointer updates

A large frame is reserved by subtracting its size from the frame pointer and writing the result
to the stack pointer. The low byte is subtracted first, then possibly the high byte or a mere
carry, and three instructions write the stack pointer while interrupts are off. The update is
recognised from its first instruction by looking at the instructions that follow.
-/
namespace StackDepth

open Text

namespace StackPointer

open Scan

/-- Whether a line is an instruction with one of its readings of the given form. -/
def hasForm (form : List Char → Bool) (line : String) : Bool :=
  match Scan.instruction line.toList with
  | none => false
  | some (_, texts) => texts.any form

/-- Two operands behind a mnemonic, the second of them a whole word. -/
def operands (mnemonic first second : List Char) (cs : List Char) : Bool :=
  Option.isSome do
    let rest ← blanks (← literal mnemonic cs)
    let rest ← blanks (← literal first rest)
    let rest ← literal second rest
    if wordEnd rest then some () else none

/-- Subtracts the carry from the high byte. -/
def isCarry : String → Bool :=
  hasForm (operands ['s', 'b', 'c'] ['r', '2', '9', ','] ['r', '1'])

/-- Reads the status register, which holds the interrupt flag. -/
def isStatusRead : String → Bool :=
  hasForm (operands ['i', 'n'] ['r', '0', ','] ['0', 'x', '3', 'f'])

/-- Turns interrupts off. -/
def isInterruptDisable : String → Bool :=
  hasForm fun cs => ((literal ['c', 'l', 'i'] cs).any wordEnd)

/-- Writes the high byte of the stack pointer. -/
def isPointerWrite : String → Bool :=
  hasForm (operands ['o', 'u', 't'] ['0', 'x', '3', 'e', ','] ['r', '2', '9'])

/-- The digits of the number that a text subtracts from the high byte. -/
def highNumber (text : List Char) : Option (List Char) := do
  let rest ← blanks (← literal ['s', 'b', 'c', 'i'] text)
  Shape.registerImmediate ['r', '2', '9', ','] rest

/-- The digits of the amount that the line subtracts from the high byte. -/
def highDigits (line : String) : Option (List Char) := do
  let (_, texts) ← Scan.instruction line.toList
  texts.findSome? highNumber

/-- The first instruction lines of a listing, at most the given number of them. -/
def nextInstructions : Nat → List String → List String
  | 0, _ => []
  | _, [] => []
  | n + 1, line :: rest =>
    if (Line.address? line).isSome then line :: nextInstructions n rest
    else nextInstructions (n + 1) rest

/-- Whether instructions begin with the write to the stack pointer. -/
def writesPointer : List String → Bool
  | a :: b :: c :: _ => isStatusRead a && isInterruptDisable b && isPointerWrite c
  | _ => false

/-- The amount by which an update that starts with the low byte `low` decrements the stack
pointer, given the instructions that follow. -/
def amount (low : Nat) (next : List String) : Except NumeralError (Option Nat) :=
  match next with
  | [] => .ok none
  | first :: rest =>
    if isCarry first then .ok (if writesPointer rest then some low else none)
    else
      match highDigits first with
      | none => .ok (if writesPointer next then some low else none)
      | some digits => do
        let high ← Numeral.decimal digits
        .ok (if writesPointer rest then some (low + high * 256) else none)

/-- From here on an amount stands for a negative number of sixteen bits. -/
def signBit : Nat := 0x8000

def ofAmount (amount : Nat) : Operation :=
  if signBit ≤ amount then .stackIncrement amount else .stackDecrement amount

end StackPointer

namespace Line

/-- Classifies a line in view of the lines that follow it, so that a stack pointer update shows
at its first instruction. -/
def classifyAt (config : Config) (line : String) (following : List String) :
    Except NumeralError Line := do
  match ← classify config line with
  | .instruction address (.stackLow low) =>
    let found ← StackPointer.amount low (StackPointer.nextInstructions 4 following)
    return .instruction address ((found.map StackPointer.ofAmount).getD .other)
  | other => return other

/-- Why a line at an index could not be classified. -/
inductive IndexedError where
  | outOfRange
  | numeral (error : NumeralError)
deriving DecidableEq, Repr

def IndexedError.message : IndexedError → String
  | outOfRange => "list index out of range"
  | numeral error => error.message

/-- The line at an index and the lines that a look ahead from it meets. A negative index counts
from the end, and the look ahead from there goes on at the beginning. -/
def lookAhead (lines : List String) (index : Int) : Option (String × List String) :=
  let start := if index < 0 then lines.length + index else index
  if start < 0 then none
  else
    match lines.drop start.toNat with
    | [] => none
    | line :: rest => some (line, if index < 0 then rest ++ lines else rest)

def classifyIndex (config : Config) (lines : List String) (index : Int) :
    Except IndexedError Line :=
  match lookAhead lines index with
  | none => .error .outOfRange
  | some (line, following) => (classifyAt config line following).mapError .numeral

end Line
end StackDepth
