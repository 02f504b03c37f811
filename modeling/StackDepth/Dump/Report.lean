import StackDepth.Dump.Trace

/-!
# Trace reports

The live calls of a trace, and whether they explain all of the stack in use.
-/
namespace StackDepth

open Text (NumeralError)
open Text.Numeral (write writeHexPadded)

/-- Colours of a terminal. -/
inductive Color where
  | cyan
  | green
  | yellow
deriving DecidableEq, Repr

def Color.code : Color → String
  | cyan => "36"
  | green => "32"
  | yellow => "33"

/-- The text in a colour, where colours are on. -/
def Color.paint (on : Bool) (color : Color) (text : String) : String :=
  if on then s!"\x1b[{color.code}m{text}\x1b[0m" else text

namespace Trace

/-- How much of the stack the frames explain. -/
def accountLines (colors : Bool) (t : Trace) : Except NumeralError (List String) := do
  if t.fullyAccounted then
    return [Color.green.paint colors s!"All stack accounted for ({← write t.total})"]
  else
    return [s!"Stack accounted: {← write t.accounted}",
      s!"Total stack    : {← write t.total}",
      Color.yellow.paint colors s!"Unaccounted    : {← write t.unaccounted}"]

def frameLine (f : TraceFrame) : String :=
  s!"{f.name} : 0x{writeHexPadded 4 f.returnAddress}"

/-- The lines that describe a trace. -/
def report (colors : Bool) (t : Trace) : Except NumeralError (List String) := do
  let pointer := s!"SP: {writeHexPadded 4 t.stackPointer} ({← write t.stackPointer})"
  let account ← t.accountLines colors
  return ["", Color.cyan.paint colors " ================== Stack Trace =================", pointer, ""]
    ++ t.frames.map frameLine ++ [""] ++ account
    ++ ["", Color.cyan.paint colors " ================== =========== =================", ""]

end Trace
end StackDepth
