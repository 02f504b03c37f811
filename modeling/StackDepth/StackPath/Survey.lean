import StackDepth.StackPath.Walk

/-!
# Paths from the roots

All paths from a routine, its worst path, and both of them for several roots at once, with the
largest totals first.
-/
namespace StackDepth

variable {n : Nat}

/-- All paths from a routine, given the addresses that are on the path already. -/
def pathsWithin (c : Catalogue n) (config : Config) (root : Fin n) (visiting : AddressSet) :
    WalkResult n :=
  walk c config .all root visiting

/-- All paths from a routine. -/
def pathsFrom (c : Catalogue n) (config : Config) (root : Fin n) :
    Except GraphError (PathList n) :=
  (pathsWithin c config root ∅).outcome

/-- The first path of the largest total from a routine. Behind each routine on the way only the
worst path is kept. -/
def worstPath (c : Catalogue n) (config : Config) (root : Fin n) :
    Except GraphError (StackPath n) :=
  (walk c config .worst root ∅).outcome.map (·.first)

/-- The worst path from each root, the largest total first. -/
def worstPaths (c : Catalogue n) (config : Config) (roots : List (Fin n)) :
    Except GraphError (List (StackPath n)) := do
  return StackPath.sortByTotal (← roots.mapM (worstPath c config))

/-- All paths from all roots, the largest total first. -/
def allPaths (c : Catalogue n) (config : Config) (roots : List (Fin n)) :
    Except GraphError (List (StackPath n)) := do
  return StackPath.sortByTotal ((← roots.mapM (pathsFrom c config)).flatMap (·.toList))

/-- The worst paths and all paths, found together. -/
structure Survey (n : Nat) where
  worst : List (StackPath n)
  all : List (StackPath n)
deriving DecidableEq, Repr

def survey (c : Catalogue n) (config : Config) (roots : List (Fin n)) :
    Except GraphError (Survey n) := do
  let paths ← roots.mapM (pathsFrom c config)
  return {
    worst := StackPath.sortByTotal (paths.map (·.largest))
    all := StackPath.sortByTotal (paths.flatMap (·.toList)) }

end StackDepth
