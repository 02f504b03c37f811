import StackDepth.StackPath.Survey

/-!
# Path reports

A report has an entry for each path: its total and the routines on it.
-/
namespace StackDepth

open Text (NumeralError)
open Text.Numeral (write)

variable {n : Nat}

/-- The short name of a routine on a path, with the bytes it takes and the bytes so far. -/
def PathNode.label (c : Catalogue n) (config : Config) (node : PathNode n) :
    Except NumeralError String := do
  let name := (c.routine node.routine).displayName config.shortNameLength
  let total ←
    if config.includeUsed && config.includeTotal then
      (write node.cumulative).map fun text => s!" = {text}"
    else pure ""
  let used ←
    if config.includeUsed then
      (write node.contribution).map fun text => s!" (+{text}{total})"
    else pure ""
  let mark := if node.recursion then " <RECURSION>" else ""
  return name ++ used ++ mark

namespace StackPath

def describe (c : Catalogue n) (config : Config) (p : StackPath n) :
    Except NumeralError String := do
  return config.pathSeparator.intercalate (← p.nodes.mapM (·.label c config))

/-- The entry of a report for a path. -/
def reportLine (c : Catalogue n) (config : Config) (p : StackPath n) :
    Except NumeralError String := do
  return s!"{← write p.total} : {← p.describe c config}"

/-- Entries for paths in the given order. -/
def reportLines (c : Catalogue n) (config : Config) (paths : List (StackPath n)) :
    Except NumeralError (List String) :=
  paths.mapM (·.reportLine c config)

/-- Entries for paths, the largest total first. -/
def report (c : Catalogue n) (config : Config) (paths : List (StackPath n)) :
    Except NumeralError (List String) :=
  reportLines c config (sortByTotal paths)

end StackPath
end StackDepth
