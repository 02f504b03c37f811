import StackDepth.Text.CodeRange

/-!
# Blank characters

Blanks separate the fields of a listing line and are ignored in a stack dump. They are the
characters of the Unicode White_Space property together with the four information separators.
-/
namespace StackDepth.Text

def blankRanges : CodeRanges :=
  [(0x9, 0xd), (0x1c, 0x20), (0x85, 0x85), (0xa0, 0xa0), (0x1680, 0x1680), (0x2000, 0x200a),
   (0x2028, 0x2029), (0x202f, 0x202f), (0x205f, 0x205f), (0x3000, 0x3000)]

def isBlank (c : Char) : Bool := blankRanges.covers c.toNat

/-- Text without its leading and trailing blanks. -/
def strip (cs : List Char) : List Char :=
  ((cs.dropWhile isBlank).reverse.dropWhile isBlank).reverse

/-- Text without any of its blanks. -/
def removeBlanks (cs : List Char) : List Char := cs.filter (!isBlank ·)

end StackDepth.Text
