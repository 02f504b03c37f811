import StackDepth.Text.DecimalDigit

/-!
# Short names

Compilers put counted components in front of a name: a length and that many characters, over and
over. A long name is shown through a window that starts behind its first two counted components,
or as far to the right as keeps the window inside the name.
-/
namespace StackDepth

open Text (isDigit)

/-- What follows a run of other characters and a run of digits, if there are digits. -/
def afterCount (cs : List Char) : Option (List Char) :=
  match cs.dropWhile (!isDigit ·) with
  | [] => none
  | digits => some (digits.dropWhile isDigit)

/-- Where the first two counted components end. Digits that come in one run only count as two
components if there are two of them. -/
def countedEnd (cs : List Char) : Nat :=
  match afterCount cs with
  | none => 0
  | some rest =>
    match afterCount rest with
    | some rest => cs.length - rest.length
    | none =>
      if 2 ≤ ((cs.dropWhile (!isDigit ·)).takeWhile isDigit).length then cs.length - rest.length
      else 0

/-- The part of a list from `start` up to `stop`, where a negative `stop` counts from the end. -/
def segment {α : Type} (xs : List α) (start : Nat) (stop : Int) : List α :=
  let stop := if stop < 0 then (xs.length + stop).toNat else stop.toNat
  (xs.take stop).drop start

def shortNameChars (name : List Char) (width : Int) : List Char :=
  if name.length < width then name
  else
    let start := countedEnd name
    let start := if start + width > name.length then (name.length - width).toNat else start
    segment name start (start + width)

/-- The window of the given width onto a name. -/
def shortName (name : String) (width : Int) : String :=
  String.ofList (shortNameChars name.toList width)

end StackDepth
