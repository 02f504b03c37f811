import StackDepth.Routine.Basic

/-!
# Catalogues of routines

A catalogue holds routines under numbers, and with each routine its callees, once they are known.
The callees of a routine are given once and stay as they are. Two routines of a catalogue may start
at the same address.
-/
namespace StackDepth

/-- A misuse of callees. -/
inductive GraphError where
  /-- The callees of the routine are not known yet. -/
  | unresolved (name : String)
  /-- The callees of the routine were given before. -/
  | resolvedTwice (name : String)
deriving DecidableEq, Repr

def GraphError.message : GraphError → String
  | unresolved name => s!"callees of {name} requested before the call graph was built"
  | resolvedTwice name => s!"callees of {name} already resolved"

structure Catalogue (n : Nat) where
  routines : Vector Routine n
  /-- The callees of the routines for which they are known. -/
  resolved : Vector (Option (List (Fin n))) n
deriving DecidableEq, Repr

namespace Catalogue

/-- A catalogue of routines none of which has callees yet. -/
def ofList (routines : List Routine) : Catalogue routines.length where
  routines := ⟨routines.toArray, by simp⟩
  resolved := Vector.replicate routines.length none

variable {n : Nat}

def routine (c : Catalogue n) (i : Fin n) : Routine := c.routines[i]

def start (c : Catalogue n) (i : Fin n) : Int := (c.routine i).start

def callees? (c : Catalogue n) (i : Fin n) : Option (List (Fin n)) := c.resolved[i]

def isResolved (c : Catalogue n) (i : Fin n) : Bool := (c.callees? i).isSome

def callees (c : Catalogue n) (i : Fin n) : Except GraphError (List (Fin n)) :=
  match c.callees? i with
  | some callees => .ok callees
  | none => .error (.unresolved (c.routine i).name)

/-- Gives a routine its callees. -/
def resolve (c : Catalogue n) (i : Fin n) (callees : List (Fin n)) :
    Except GraphError (Catalogue n) :=
  match c.callees? i with
  | some _ => .error (.resolvedTwice (c.routine i).name)
  | none => .ok { c with resolved := c.resolved.set i (some callees) }

/-- The first routine with the name, among some routines of the catalogue. -/
def byName (c : Catalogue n) (among : List (Fin n)) (name : String) : Option (Fin n) :=
  among.find? fun i => (c.routine i).name = name

/-- The first routine that starts at the address, among some routines of the catalogue. -/
def byStart (c : Catalogue n) (among : List (Fin n)) (address : Int) : Option (Fin n) :=
  among.find? fun i => c.start i = address

/-- Each of some routines starts at an address of its own. -/
def Keyed (c : Catalogue n) (table : List (Fin n)) : Prop := (table.map c.start).Nodup

end Catalogue
end StackDepth
