import StackDepth.AddressSet
import StackDepth.Routine.ShortName
import StackDepth.Text.Numeral

/-!
# Routines

A routine is what the analysis knows about one function of the listing: where it starts, how much
stack it takes, which addresses it calls, and the lines that belong to it.
-/
namespace StackDepth

structure Routine where
  name : String
  start : Int
  /-- The index of the label line. -/
  lineStart : Int := 0
  /-- The bytes of stack in use. -/
  stackUsed : Int := 0
  /-- The part of them that was reserved as a block and not pushed one by one. -/
  reserved : Int := 0
  /-- The destinations of its calls and of its jumps to other functions. -/
  callTargets : AddressSet := ∅
  /-- The lines of the routine, its label first. -/
  lines : Array String := #[]
deriving DecidableEq, Repr

namespace Routine

def displayName (r : Routine) (width : Int := 30) : String := shortName r.name width

/-- A one-line description. -/
def render (r : Routine) : Except Text.NumeralError String := do
  let used ← Text.Numeral.write r.stackUsed
  return s!"{r.name} (stack: {used} start: {Text.Numeral.writeHex r.start} " ++
    s!"length: {r.lines.size})"

end Routine
end StackDepth
