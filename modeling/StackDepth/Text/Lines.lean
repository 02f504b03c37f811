/-!
# Lines of text

A text is cut into lines after its line ends have been made uniform: a carriage return, alone or
before a line feed, counts as a line feed. Besides the line feed, the vertical tab, the form feed,
three of the information separators, and the next-line, line-separator and paragraph-separator
characters end a line.
-/
namespace StackDepth.Text

/-- The text with uniform line ends, behind `done`, whose last character stands first. -/
def uniformNewlinesAfter (done : List Char) : List Char → List Char
  | [] => done.reverse
  | '\r' :: '\n' :: rest => uniformNewlinesAfter ('\n' :: done) rest
  | c :: rest => uniformNewlinesAfter ((if c = '\r' then '\n' else c) :: done) rest

/-- Turns each carriage return, with the line feed that may follow it, into a line feed. -/
def uniformNewlines (cs : List Char) : List Char := uniformNewlinesAfter [] cs

def isLineEnd (c : Char) : Bool :=
  ('\n' ≤ c && c ≤ '\r') || ('\x1c' ≤ c && c ≤ '\x1e') || c == '\x85' ||
    c == '\u2028' || c == '\u2029'

/-- Puts a character in front of the lines of a text. -/
def consLine (c : Char) (lines : List (List Char)) : List (List Char) :=
  if isLineEnd c then [] :: lines
  else
    match lines with
    | [] => [[c]]
    | line :: later => (c :: line) :: later

/-- The lines of a text without their line ends; a line end at the very end starts no line. -/
def splitLines (cs : List Char) : List (List Char) := cs.foldr consLine []

end StackDepth.Text
