import StackDepth.CallGraph.Catalogue
import StackDepth.Diagnostic

/-!
# Call graphs

A call graph is built over a table of routines, no two of which start at the same address. The
routines are taken in the order of their addresses. Each gets as callees the routines of the table
that start at its call targets; a target at which none starts is reported and left out. From the
callees the callers are found, and the roots, which nothing calls.
-/
namespace StackDepth

structure CallGraph (n : Nat) where
  /-- The routines of the graph in ascending order of their addresses. -/
  order : Array (Fin n)
  /-- The callers of each routine, in ascending order of their addresses. -/
  callerIndex : Vector (List (Fin n)) n
  /-- The routines without callers. -/
  roots : List (Fin n)
deriving DecidableEq, Repr

namespace CallGraph

variable {n : Nat}

/-- Notes one routine as the last caller so far of another. -/
def noteCaller (caller : Fin n) (index : Vector (List (Fin n)) n) (callee : Fin n) :
    Vector (List (Fin n)) n :=
  index.set callee (index.get callee ++ [caller]) callee.isLt

/-- Notes a routine as a caller of each of its callees. -/
def noteCallees (c : Catalogue n) (index : Vector (List (Fin n)) n) (caller : Fin n) :
    Vector (List (Fin n)) n :=
  ((c.callees? caller).getD []).foldl (noteCaller caller) index

/-- The call graph over routines whose callees are known, given in order. -/
def index (c : Catalogue n) (order : List (Fin n)) : CallGraph n :=
  let callers := order.foldl (noteCallees c) (Vector.replicate n [])
  { order := order.toArray
    callerIndex := callers
    roots := order.filter fun i => (callers.get i).isEmpty }

/-- Routines in ascending order of their addresses. -/
def sortByStart (c : Catalogue n) (table : List (Fin n)) : List (Fin n) :=
  table.mergeSort fun i j => c.start i ≤ c.start j

/-- The routines of a table that start at the call targets of a routine. -/
def targetsIn (c : Catalogue n) (table : List (Fin n)) (i : Fin n) : List (Fin n) :=
  (c.routine i).callTargets.toList.filterMap (c.byStart table)

def missingFunctionCode : String := "missing-function"

/-- One warning for each call target of a routine at which no routine of the table starts. -/
def missingTargets (c : Catalogue n) (table : List (Fin n)) (i : Fin n) : List Diagnostic :=
  ((c.routine i).callTargets.toList.filter fun a => (c.byStart table a).isNone).map fun address =>
    { severity := .warning
      code := missingFunctionCode
      message :=
        s!"Missing function {Text.Numeral.writeHex address} in {(c.routine i).name}" }

/-- What became of an attempt to resolve routines or to build a graph. -/
structure Attempt (n : Nat) (α : Type) where
  /-- The catalogue with the callees given so far, also where the attempt failed. -/
  catalogue : Catalogue n
  diagnostics : List Diagnostic
  result : Except GraphError α

/-- Gives routines their callees one after another, up to the first that has callees already. -/
def resolveAll (table : List (Fin n)) : Catalogue n → List (Fin n) → Attempt n Unit
  | c, [] => ⟨c, [], .ok ()⟩
  | c, i :: rest =>
    let warnings := missingTargets c table i
    match c.resolve i (targetsIn c table i) with
    | .error e => ⟨c, warnings, .error e⟩
    | .ok c =>
      let later := resolveAll table c rest
      { later with diagnostics := warnings ++ later.diagnostics }

/-- Builds the call graph over a table of routines. -/
def build (c : Catalogue n) (table : List (Fin n)) : Attempt n (CallGraph n) :=
  let order := sortByStart c table
  let attempt := resolveAll order c order
  { catalogue := attempt.catalogue
    diagnostics := attempt.diagnostics
    result := attempt.result.map fun _ => index attempt.catalogue order }

/-! ### Queries -/

def size (g : CallGraph n) : Nat := g.order.size

def byName (c : Catalogue n) (g : CallGraph n) (name : String) : Option (Fin n) :=
  c.byName g.order.toList name

/-- The routine that starts at the address. -/
def at? (c : Catalogue n) (g : CallGraph n) (address : Int) : Option (Fin n) :=
  c.byStart g.order.toList address

/-- The least position from `low` up to `high` at which `below` fails, for a property that holds
up to some position and fails from there on. -/
def bisect (below : Nat → Bool) (low high : Nat) : Nat :=
  if low < high then
    if below ((low + high) / 2) then bisect below ((low + high) / 2 + 1) high
    else bisect below low ((low + high) / 2)
  else low
termination_by high - low
decreasing_by all_goals omega

/-- The routine with the greatest start strictly below the address. -/
def containing (c : Catalogue n) (g : CallGraph n) (address : Int) : Option (Fin n) :=
  let count := bisect (fun k => g.order[k]?.any fun i => c.start i < address) 0 g.order.size
  if count = 0 then none else g.order[count - 1]?

def callers (g : CallGraph n) (i : Fin n) : List (Fin n) := g.callerIndex.get i

/-- The callers of the routine at the address; none, where no routine of the graph starts. -/
def callersAt (c : Catalogue n) (g : CallGraph n) (address : Int) : List (Fin n) :=
  ((g.at? c address).map g.callers).getD []

/-- The callees of a routine of the graph. -/
def calleesOf (c : Catalogue n) (i : Fin n) : List (Fin n) := (c.callees? i).getD []

/-- The routines without callees. -/
def leaves (c : Catalogue n) (g : CallGraph n) : List (Fin n) :=
  g.order.toList.filter fun i => (calleesOf c i).isEmpty

structure Statistics where
  functions : Nat
  edges : Nat
  missingTargets : Nat
  selfRecursive : Nat
  roots : Nat
  leaves : Nat
deriving DecidableEq, Repr

/-- Counts over the graph; missing targets are counted in the log of the whole analysis. -/
def statistics (c : Catalogue n) (g : CallGraph n) (log : Log) : Statistics where
  functions := g.size
  edges := (g.order.toList.flatMap (calleesOf c)).length
  missingTargets := (log.byCode missingFunctionCode).length
  selfRecursive := g.order.toList.countP fun i => (calleesOf c i).contains i
  roots := g.roots.length
  leaves := (g.leaves c).length

/-- The size of the graph and the number of its roots. -/
def render (g : CallGraph n) : String :=
  s!"CallGraph(functions={g.size}, roots={g.roots.length})"

/-- The names of routines in brackets. -/
def nameList (c : Catalogue n) (among : List (Fin n)) : String :=
  "[" ++ ", ".intercalate (among.map fun i => (c.routine i).name) ++ "]"

def summaryLine (c : Catalogue n) (g : CallGraph n) (i : Fin n) :
    Except Text.NumeralError String := do
  let used ← Text.Numeral.write (c.routine i).stackUsed
  return s!"  {(c.routine i).name} (+{used}): calls {nameList c (calleesOf c i)}, " ++
    s!"called by {nameList c (g.callers i)}"

/-- The statistics and all edges in readable form. -/
def summary (c : Catalogue n) (g : CallGraph n) (log : Log) : Except Text.NumeralError String := do
  let s := g.statistics c log
  let edges ← g.order.toList.mapM (g.summaryLine c)
  return "\n".intercalate
    (["Call Graph Summary",
      s!"  Functions:            {s.functions}",
      s!"  Edges:                {s.edges}",
      s!"  Missing targets:      {s.missingTargets}",
      s!"  Self-recursive funcs: {s.selfRecursive}",
      s!"  Root functions:       {s.roots}",
      s!"  Leaf functions:       {s.leaves}",
      "",
      "Functions:"] ++ edges)

end CallGraph
end StackDepth
