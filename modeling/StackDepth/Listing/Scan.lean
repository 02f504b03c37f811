import StackDepth.Text.Blank
import StackDepth.Text.Numeral
import StackDepth.Text.WordChar

/-!
# Reading along a line

Small recognisers on the characters of a line. Each takes what it recognises from the front and
returns what is left, or nothing where the line does not go on that way.
-/
namespace StackDepth.Scan

open Text

/-- What follows the given characters. -/
def literal : List Char → List Char → Option (List Char)
  | [], cs => some cs
  | _ :: _, [] => none
  | w :: word, c :: cs => if w = c then literal word cs else none

/-- The longest run of characters of a class, which must not be empty, and what follows it. -/
def run (inClass : Char → Bool) (cs : List Char) : Option (List Char × List Char) :=
  match cs.takeWhile inClass with
  | [] => none
  | taken => some (taken, cs.dropWhile inClass)

/-- What follows any number of blanks. -/
def skipBlanks (cs : List Char) : List Char := cs.dropWhile isBlank

/-- What follows one or more blanks. -/
def blanks (cs : List Char) : Option (List Char) := (run isBlank cs).map (·.2)

/-- Whether a word may end here. -/
def wordEnd : List Char → Bool
  | [] => true
  | c :: _ => !isWordChar c

/-- A blank stretch and two digits of base sixteen: one byte of machine code. -/
def codeByte (cs : List Char) : Option (List Char) := do
  match ← blanks cs with
  | high :: low :: rest => if isHexDigit high && isHexDigit low then some rest else none
  | _ => none

/-- What follows the given number of machine code bytes. -/
def codeBytes : Nat → List Char → Option (List Char)
  | 0, cs => some cs
  | n + 1, cs => (codeByte cs).bind (codeBytes n)

/-- The address in front of an instruction, and what follows its colon. -/
def address (cs : List Char) : Option (Nat × List Char) := do
  let (digits, rest) ← run isHexDigit (skipBlanks cs)
  let rest ← literal [':'] rest
  some (Numeral.hex digits, rest)

/-- The texts that can be the operation of an instruction. Between two and four bytes of machine
code come before it, and the readings with more bytes stand first. -/
def operations (cs : List Char) : List (List Char) :=
  [4, 3, 2].filterMap fun count => (codeBytes count cs).bind blanks

/-- The address and the possible operation texts of an instruction line. -/
def instruction (cs : List Char) : Option (Nat × List (List Char)) := do
  let (n, rest) ← address cs
  match operations rest with
  | [] => none
  | texts => some (n, texts)

/-- A jump or call operand: an absolute address, or a signed distance. -/
def operand (cs : List Char) : Option (List Char) :=
  match cs with
  | '0' :: 'x' :: rest => (run isHexDigit rest).map (·.2)
  | '.' :: sign :: rest =>
    if sign = '+' || sign = '-' then (run isDigit rest).map (·.2) else none
  | _ => none

/-- The beginning of the disassembler's comment. -/
def comment (cs : List Char) : Option (List Char) :=
  (literal [';'] (skipBlanks cs)).map skipBlanks

/-- The digits of a base sixteen number behind its marker. -/
def hexNumber (cs : List Char) : Option (List Char × List Char) := do
  run isHexDigit (← literal ['0', 'x'] cs)

/-- A jump or call operand with the address that the comment gives for it. -/
def target (cs : List Char) : Option (Nat × List Char) := do
  let rest ← operand cs
  let rest ← comment rest
  let (digits, rest) ← hexNumber rest
  some (Numeral.hex digits, rest)

/-- An immediate operand, with the base ten digits that the comment gives for it. -/
def immediate (cs : List Char) : Option (List Char) := do
  let (_, rest) ← hexNumber cs
  let rest ← comment rest
  let (digits, _) ← run isDigit rest
  some digits

/-- The end of a bracketed symbol: a distance from its start, if there is one, and the bracket. -/
def symbolEnd (cs : List Char) : Option (Option Nat) :=
  match cs with
  | '>' :: _ => some none
  | '+' :: rest => do
    let (digits, rest) ← hexNumber rest
    let _ ← literal ['>'] rest
    some (some (Numeral.hex digits))
  | _ => none

def isSymbolChar (c : Char) : Bool := isWordChar c || c = '.'

end StackDepth.Scan
