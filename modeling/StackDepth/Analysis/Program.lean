import StackDepth.Analysis.Pass
import StackDepth.CallGraph.Basic

/-!
# Analysed programs

A listing with its full pass and the call graph over the routines found.
-/
namespace StackDepth

structure Program where
  analysis : Analysis
  /-- The number of routines. -/
  size : Nat
  catalogue : Catalogue size
  graph : CallGraph size
  /-- The warnings about call targets that are no routines. -/
  missing : List Diagnostic

namespace Program

/-- All diagnostics so far. -/
def log (p : Program) : Log := p.analysis.diagnostics ++ p.missing

/-- Analyses a listing and builds its call graph. -/
def ofListing (config : Config) (lines : List String) : Except GraphError Program := do
  let analysis := analyze config lines
  let attempt := CallGraph.build (Catalogue.ofList analysis.routines) (List.finRange _)
  let graph ← attempt.result
  return { analysis, catalogue := attempt.catalogue, graph, missing := attempt.diagnostics, .. }

end Program
end StackDepth
