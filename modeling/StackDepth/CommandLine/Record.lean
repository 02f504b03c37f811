import StackDepth.Diagnostic

/-!
# Log records

What a run says about its progress, besides its output. Each record has a level and the name of
the part of the program that it comes from.
-/
namespace StackDepth

inductive Level where
  | debug
  | info
  | warning
  | error
deriving DecidableEq, Repr

namespace Level

def rank : Level → Nat
  | debug => 0
  | info => 1
  | warning => 2
  | error => 3

/-- The level in five characters. -/
def tag : Level → String
  | debug => "DEBUG"
  | info => "INFO "
  | warning => "WARNI"
  | error => "ERROR"

/-- The least level that is shown, by how often more was asked for. -/
def ofVerbosity : Nat → Level
  | 0 => warning
  | 1 => info
  | _ => debug

end Level

def Severity.level : Severity → Level
  | info => .info
  | warning => .warning
  | error => .error

structure Record where
  level : Level
  source : String
  message : String
deriving DecidableEq, Repr

namespace Record

/-- A record of the program itself. -/
def program (level : Level) (message : String) : Record := ⟨level, "avrstack", message⟩

/-- The record of a diagnostic; there is none of one that cannot be written. -/
def ofDiagnostic? (d : Diagnostic) : Option Record :=
  d.render.toOption.map fun text => ⟨d.severity.level, "avrstack.errors", text⟩

def render (r : Record) : String := s!"[{r.level.tag}] {r.source}: {r.message}\n"

/-- Whether the record is shown. -/
def isShown (verbosity : Nat) (r : Record) : Bool :=
  (Level.ofVerbosity verbosity).rank ≤ r.level.rank

end Record
end StackDepth
