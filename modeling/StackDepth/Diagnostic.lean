import StackDepth.Text.Numeral

/-!
# Diagnostics

Findings of an analysis that do not stop it, each possibly tied to a line of the listing.
-/
namespace StackDepth

inductive Severity where
  | info
  | warning
  | error
deriving DecidableEq, Repr

def Severity.label : Severity → String
  | info => "info"
  | warning => "warning"
  | error => "error"

structure Diagnostic where
  severity : Severity
  /-- A stable word for the kind of finding. -/
  code : String
  message : String
  /-- The position of the line in the text that was read, counted from zero. -/
  lineIndex : Option Int := none
  lineText : Option String := none
deriving DecidableEq, Repr

/-- The line as people count it, where there is one. -/
def Diagnostic.place (d : Diagnostic) : Except Text.NumeralError String :=
  let text := String.ofList (Text.strip (d.lineText.getD "").toList)
  match d.lineIndex with
  | none => .ok ""
  | some i => (Text.Numeral.write (i + 1)).map fun number => s!" (line {number}: {text})"

/-- Severity, code and message, and the line. -/
def Diagnostic.render (d : Diagnostic) : Except Text.NumeralError String :=
  d.place.map fun place => s!"{d.severity.label}: [{d.code}] {d.message}{place}"

/-- Diagnostics in the order in which they were found. -/
abbrev Log := List Diagnostic

namespace Log

def byCode (log : Log) (code : String) : Log := log.filter (·.code == code)

theorem byCode_append (log more : Log) (code : String) :
    byCode (log ++ more) code = log.byCode code ++ more.byCode code :=
  List.filter_append ..

def hasErrors (log : Log) : Bool := log.any (·.severity == .error)

end Log
end StackDepth
