import StackDepth.Text.Lines
import StackDepth.Text.Utf8

/-!
# Reading a listing

The lines of a listing as they come from a file.
-/
namespace StackDepth

/-- The lines that the bytes of a listing hold. Ill-formed parts read as replacement characters,
so that a damaged listing is still analysed. -/
def readListing (bytes : List UInt8) : List String :=
  (Text.splitLines (Text.uniformNewlines (Text.Utf8.decodeLenient bytes))).map String.ofList

end StackDepth
