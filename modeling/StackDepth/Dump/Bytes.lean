import StackDepth.Text.Blank
import StackDepth.Text.Numeral

/-!
# Stack dumps as text

A stack dump is written as pairs of hexadecimal digits; blanks count nowhere. It starts with the
two bytes of the stack pointer, so there are at least two bytes.
-/
namespace StackDepth

open Text

/-- Why a text is no stack dump. -/
inductive DumpError where
  | oddLength (digits : Nat)
  /-- From the given position on, the text without its blanks has no pair of digits. -/
  | notHex (position : Nat) (rest : String)
  | tooShort
deriving DecidableEq, Repr

def DumpError.message : DumpError → String
  | oddLength digits => s!"stack dump needs an even number of hex digits, got {digits}"
  | notHex position rest =>
    "stack dump is not hex text: Rule 'dump' matched in its entirety, but it didn't consume " ++
      "all the text. The non-matching portion of the text begins with '" ++
      String.ofList (rest.toList.take 20) ++ s!"' (line 1, column {position + 1})."
  | tooShort => "stack dump must start with the two stack pointer bytes"

namespace Dump

/-- The value of a hexadecimal digit of ASCII text. -/
def nibble? (c : Char) : Option Nat := (Numeral.asciiDigit c).filter (· < 16)

def byte? (high low : Char) : Option UInt8 := do
  some (16 * (← nibble? high) + (← nibble? low)).toUInt8

/-- Reads pairs of digits; `position` characters came before, with the bytes `read`, the last of
them first. -/
def readPairs (position : Nat) (read : List UInt8) : List Char → Except DumpError (List UInt8)
  | [] => .ok read.reverse
  | [c] => .error (.notHex position (String.singleton c))
  | high :: low :: rest =>
    match byte? high low with
    | some b => readPairs (position + 2) (b :: read) rest
    | none => .error (.notHex position (String.ofList (high :: low :: rest)))

/-- Reads a stack dump. -/
def parse (text : String) : Except DumpError (List UInt8) := do
  let digits := removeBlanks text.toList
  if digits.length % 2 ≠ 0 then throw (.oddLength digits.length)
  let bytes ← readPairs 0 [] digits
  if bytes.length < 2 then throw .tooShort
  return bytes

/-- Writes bytes as pairs of small hexadecimal digits. -/
def print (bytes : List UInt8) : String :=
  String.ofList (bytes.flatMap fun b => hexFixed 2 b.toNat)

end Dump
end StackDepth
