import StackDepth.CallGraph.Catalogue
import StackDepth.Config

/-!
# Stack paths

A stack path is a chain of calls with the stack that each routine on it takes. The last node of a
path may be a routine that is on the path already; the chain is cut there, and the node is marked.
-/
namespace StackDepth

structure PathNode (n : Nat) where
  routine : Fin n
  /-- The bytes that the routine takes, its return address included. -/
  contribution : Int
  /-- The bytes that the path takes up to and with this node. -/
  cumulative : Int
  /-- Whether the routine stands further up on the path as well. -/
  recursion : Bool := false
deriving DecidableEq, Repr

/-- A path with its nodes, of which there is at least one, and its total. -/
structure StackPath (n : Nat) where
  first : PathNode n
  rest : List (PathNode n) := []
  total : Int
deriving DecidableEq, Repr

namespace StackPath

variable {n : Nat}

def nodes (p : StackPath n) : List (PathNode n) := p.first :: p.rest

/-- The last node of the path. -/
def last (p : StackPath n) : PathNode n := p.rest.getLast?.getD p.first

def isRecursive (p : StackPath n) : Bool := p.last.recursion

/-- The path with a node put in front, whose contribution comes on top of the total. -/
def extend (node : PathNode n) (p : StackPath n) : StackPath n :=
  ⟨node, p.nodes, p.total + node.contribution⟩

/-- The path with the larger total; of equal ones, the first. -/
def larger (p q : StackPath n) : StackPath n := if p.total < q.total then q else p

/-- Paths with larger totals first; those with equal totals keep their order. -/
def sortByTotal (paths : List (StackPath n)) : List (StackPath n) :=
  paths.mergeSort fun p q => q.total ≤ p.total

end StackPath

/-- The bytes that a routine takes on a path: its own and its return address. -/
def Routine.contribution (config : Config) (r : Routine) : Int :=
  r.stackUsed + config.returnAddressBytes

/-- A list of paths, of which there is at least one. -/
structure PathList (n : Nat) where
  first : StackPath n
  others : List (StackPath n) := []
deriving DecidableEq, Repr

namespace PathList

variable {n : Nat}

def toList (paths : PathList n) : List (StackPath n) := paths.first :: paths.others

def append (paths more : PathList n) : PathList n :=
  ⟨paths.first, paths.others ++ more.toList⟩

/-- The paths with a node put in front of each. -/
def extend (node : PathNode n) (paths : PathList n) : PathList n :=
  ⟨paths.first.extend node, paths.others.map (·.extend node)⟩

/-- The first path of the largest total. -/
def largest (paths : PathList n) : StackPath n := paths.others.foldl StackPath.larger paths.first

end PathList
end StackDepth
