import StackDepth.Text.Blank
import StackDepth.Text.DecimalDigit
import StackDepth.Text.Quoted

/-!
# Numerals

Base ten numerals are read and written with at most `maxDigits` digits; base sixteen has no such
limit. `Numeral.literal` reads what a user types for an integer: blanks around it, a sign, a base
marker, and single underscores between the digits.
-/
namespace StackDepth.Text

/-- Why a numeral could not be read or written. -/
inductive NumeralError where
  /-- A base ten numeral with more digits than can be read. -/
  | readLimit (digits : Nat)
  /-- A number whose base ten numeral is too long to be written. -/
  | writeLimit
  /-- Not an integer literal of the given base, where base zero stands for any marked base. -/
  | malformed (base : Nat) (text : String)
deriving DecidableEq, Repr

namespace Numeral

/-- The most digits that a base ten numeral may have. -/
def maxDigits : Nat := 4300

end Numeral

def NumeralError.message : NumeralError → String
  | readLimit digits =>
    s!"Exceeds the limit ({Numeral.maxDigits} digits) for integer string conversion: " ++
      s!"value has {digits} digits; use sys.set_int_max_str_digits() to increase the limit"
  | writeLimit =>
    s!"Exceeds the limit ({Numeral.maxDigits} digits) for integer string conversion; " ++
      "use sys.set_int_max_str_digits() to increase the limit"
  | malformed base text =>
    s!"invalid literal for int() with base {base}: " ++
      String.ofList ((quote text).toList.take 200)

namespace Numeral

/-- The number that digits of the given base denote, most significant first. -/
def ofDigits (base : Nat) (value : Char → Nat) (cs : List Char) : Nat :=
  cs.foldl (fun n c => base * n + value c) 0

def hex (cs : List Char) : Nat := ofDigits 16 hexDigitValue cs

/-- Reads base ten digits, unless there are too many of them. -/
def decimal (cs : List Char) : Except NumeralError Nat :=
  if cs.length > maxDigits then .error (.readLimit cs.length) else .ok (ofDigits 10 digitValue cs)

/-- The base ten numeral of a number, unless it would be too long. -/
def write (n : Int) : Except NumeralError String :=
  let digits := Nat.toDigits 10 n.natAbs
  if digits.length > maxDigits then .error .writeLimit
  else .ok (String.ofList (if n < 0 then '-' :: digits else digits))

/-- The digits of a natural number in base sixteen with capital letters. -/
def hexDigits (n : Nat) : List Char := (Nat.toDigits 16 n).map Char.toUpper

/-- Base sixteen with capital letters, the sign in front. -/
def writeHex (n : Int) : String :=
  String.ofList (if n < 0 then '-' :: hexDigits n.natAbs else hexDigits n.natAbs)

/-- Base sixteen filled up with zeros after the sign to a width that counts the sign. -/
def writeHexPadded (width : Nat) (n : Int) : String :=
  let digits := hexDigits n.natAbs
  let sign := if n < 0 then ['-'] else []
  String.ofList
    (sign ++ List.replicate (width - sign.length - digits.length) '0' ++ digits)

/-- Base sixteen with small letters. -/
def writeHexLower (n : Nat) : String := String.ofList (Nat.toDigits 16 n)

/-! ### Integer literals -/

/-- The blanks that may stand around a literal: those of ASCII text without the separators. -/
def isLiteralSpace (c : Char) : Bool := c == ' ' || ('\t' ≤ c && c ≤ '\r')

/-- Digits and blanks of any script count as their ASCII counterparts in a literal. -/
def plainChar (c : Char) : Char :=
  if c.toNat < 127 then c
  else if isBlank c then ' '
  else if isDigit c then Char.ofNat ('0'.toNat + digitValue c)
  else c

/-- The value of an ASCII digit or letter as a digit of a base up to thirty-six. -/
def asciiDigit (c : Char) : Option Nat :=
  if '0' ≤ c && c ≤ '9' then some (c.toNat - '0'.toNat)
  else if 'a' ≤ c && c ≤ 'z' then some (c.toNat - 'a'.toNat + 10)
  else if 'A' ≤ c && c ≤ 'Z' then some (c.toNat - 'A'.toNat + 10)
  else none

def isDigitOf (base : Nat) (c : Char) : Bool := (asciiDigit c).any (· < base)

/-- What stands behind the sign of a literal. -/
structure Magnitude where
  base : Nat
  /-- A numeral that starts with a zero may only denote zero. -/
  zeroOnly : Bool := false
  body : List Char

/-- One underscore may stand between a base marker and the digits. -/
def afterMarker (base : Nat) (cs : List Char) : Magnitude :=
  match cs with
  | '_' :: rest => ⟨base, false, rest⟩
  | _ => ⟨base, false, cs⟩

/-- The base that a literal declares for itself. -/
def declaredBase (cs : List Char) : Magnitude :=
  match cs with
  | '0' :: 'x' :: rest => afterMarker 16 rest
  | '0' :: 'X' :: rest => afterMarker 16 rest
  | '0' :: 'o' :: rest => afterMarker 8 rest
  | '0' :: 'O' :: rest => afterMarker 8 rest
  | '0' :: 'b' :: rest => afterMarker 2 rest
  | '0' :: 'B' :: rest => afterMarker 2 rest
  | '0' :: _ => ⟨10, true, cs⟩
  | _ => ⟨10, false, cs⟩

/-- Underscores stand singly, and only between digits. -/
def underscoresBetween : List Char → Bool
  | [] => true
  | ['_'] => false
  | '_' :: '_' :: _ => false
  | _ :: rest => underscoresBetween rest

/-- Reads an integer literal of base ten, or with base zero of the base that it declares. -/
def literal (base : Nat) (text : String) : Except NumeralError Int :=
  let bad : Except NumeralError Int := .error (.malformed base text)
  let cs := (text.toList.map plainChar).dropWhile isLiteralSpace
  let negative := cs.head? == some '-'
  let cs := if cs.head? == some '-' || cs.head? == some '+' then cs.tail else cs
  let m := if base == 0 then declaredBase cs else ⟨base, false, cs⟩
  let run := m.body.takeWhile fun c => isDigitOf m.base c || c == '_'
  let rest := m.body.dropWhile fun c => isDigitOf m.base c || c == '_'
  let digits := run.filter (· != '_')
  if run.head? == some '_' || !underscoresBetween run then bad
  else if m.base == 10 && digits.length > maxDigits then .error (.readLimit digits.length)
  else
    let value := ofDigits m.base (fun c => (asciiDigit c).getD 0) digits
    if digits.isEmpty || (m.zeroOnly && value != 0) then bad
    else if !rest.all isLiteralSpace then bad
    else .ok (if negative then -value else value)

end Numeral
end StackDepth.Text
