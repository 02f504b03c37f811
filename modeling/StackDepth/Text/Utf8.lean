/-!
# UTF-8

`Utf8.pieces` cuts bytes into encoded characters and maximal ill-formed parts: a part ends where
the bytes read so far stop being the beginning of an encoded character. Reading leniently puts the
replacement character in the place of each part; reading strictly reports the first one.
-/
namespace StackDepth.Text.Utf8

/-- Why a part of the input encodes no character. -/
inductive Fault where
  | startByte
  | continuationByte
  | endOfData
deriving DecidableEq, Repr

def Fault.message : Fault → String
  | startByte => "invalid start byte"
  | continuationByte => "invalid continuation byte"
  | endOfData => "unexpected end of data"

/-- An encoded character, or the bytes of an ill-formed part. -/
inductive Piece where
  | char (c : Char) (size : Nat)
  | bad (first : UInt8) (size : Nat) (fault : Fault)
deriving DecidableEq, Repr

/-- What a lead byte announces: the number of bytes to follow, the bounds of the first of them,
and the bits that the lead byte itself carries. -/
structure Lead where
  count : Nat
  low : Nat
  high : Nat
  bits : Nat

def lead? (b : Nat) : Option Lead :=
  if b < 0x80 then some ⟨0, 0x80, 0xBF, b⟩
  else if b < 0xC2 then none
  else if b < 0xE0 then some ⟨1, 0x80, 0xBF, b - 0xC0⟩
  else if b = 0xE0 then some ⟨2, 0xA0, 0xBF, 0⟩
  else if b = 0xED then some ⟨2, 0x80, 0x9F, 0xD⟩
  else if b < 0xF0 then some ⟨2, 0x80, 0xBF, b - 0xE0⟩
  else if b = 0xF0 then some ⟨3, 0x90, 0xBF, 0⟩
  else if b = 0xF4 then some ⟨3, 0x80, 0x8F, 4⟩
  else if b < 0xF4 then some ⟨3, 0x80, 0xBF, b - 0xF0⟩
  else none

/-- Reads `count` continuation bytes, the first of them between `low` and `high`; `size` bytes
with the value `bits` came before. -/
def continuation (first : UInt8) :
    (count low high bits size : Nat) → List UInt8 → Piece × List UInt8
  | 0, _, _, bits, size, rest => (.char (Char.ofNat bits) size, rest)
  | _ + 1, _, _, _, size, [] => (.bad first size .endOfData, [])
  | count + 1, low, high, bits, size, b :: rest =>
    if low ≤ b.toNat && b.toNat ≤ high then
      continuation first count 0x80 0xBF (bits * 64 + (b.toNat - 0x80)) (size + 1) rest
    else (.bad first size .continuationByte, b :: rest)

/-- The piece that starts with the byte `b`, and the bytes behind it. -/
def piece (b : UInt8) (rest : List UInt8) : Piece × List UInt8 :=
  match lead? b.toNat with
  | none => (.bad b 1 .startByte, rest)
  | some l => continuation b l.count l.low l.high l.bits 1 rest

theorem length_continuation_le (first : UInt8) (count low high bits size : Nat)
    (rest : List UInt8) :
    (continuation first count low high bits size rest).2.length ≤ rest.length := by
  fun_induction continuation first count low high bits size rest with
  | case1 => simp
  | case2 => simp
  | case3 count low high bits size b rest _ ih => simp only [List.length_cons]; omega
  | case4 => simp

theorem length_piece_le (b : UInt8) (rest : List UInt8) :
    (piece b rest).2.length ≤ rest.length := by
  unfold piece
  split
  · simp
  · exact length_continuation_le ..

/-- The pieces of the bytes, behind those already cut, which stand last first. -/
def piecesAfter (cut : List Piece) : List UInt8 → List Piece
  | [] => cut.reverse
  | b :: rest => piecesAfter ((piece b rest).1 :: cut) (piece b rest).2
termination_by bytes => bytes.length
decreasing_by
  have := length_piece_le b rest
  simp only [List.length_cons]
  omega

/-- Cuts bytes into encoded characters and maximal ill-formed parts. -/
def pieces (bytes : List UInt8) : List Piece := piecesAfter [] bytes

theorem piecesAfter_eq (cut : List Piece) (bytes : List UInt8) :
    piecesAfter cut bytes = cut.reverse ++ pieces bytes := by
  induction hn : bytes.length using Nat.strongRecOn generalizing cut bytes with
  | ind n ih =>
    cases bytes with
    | nil => simp [pieces, piecesAfter]
    | cons b rest =>
      have hlt : (piece b rest).2.length < n := by
        have := length_piece_le b rest
        simp only [List.length_cons] at hn
        omega
      rw [pieces, piecesAfter, piecesAfter, ih _ hlt _ _ rfl, ih _ hlt [_] _ rfl]
      simp

@[simp] theorem pieces_nil : pieces [] = [] := by simp [pieces, piecesAfter]

theorem pieces_cons (b : UInt8) (rest : List UInt8) :
    pieces (b :: rest) = (piece b rest).1 :: pieces (piece b rest).2 := by
  rw [pieces, piecesAfter, piecesAfter_eq]
  simp

/-- The characters that the bytes encode, with the replacement character for ill-formed parts. -/
def decodeLenient (bytes : List UInt8) : List Char :=
  (pieces bytes).map fun
    | .char c _ => c
    | .bad .. => '�'

/-- Where and why bytes are not the encoding of a text. -/
structure DecodeError where
  position : Nat
  first : UInt8
  size : Nat
  fault : Fault
deriving DecidableEq, Repr

private def hexByte (b : UInt8) : String :=
  let digits := Nat.toDigits 16 b.toNat
  String.ofList (List.replicate (2 - digits.length) '0' ++ digits)

def DecodeError.message (e : DecodeError) : String :=
  if e.size = 1 then
    "'utf-8' codec can't decode byte 0x" ++ hexByte e.first ++
      s!" in position {e.position}: {e.fault.message}"
  else
    "'utf-8' codec can't decode bytes in position " ++
      s!"{e.position}-{e.position + e.size - 1}: {e.fault.message}"

/-- The characters of well-formed pieces, or the first ill-formed one. In front of the pieces
stand `position` bytes with the characters `read`, the last of them first. -/
def characters (position : Nat) (read : List Char) :
    List Piece → Except DecodeError (List Char)
  | [] => .ok read.reverse
  | .char c size :: rest => characters (position + size) (c :: read) rest
  | .bad first size fault :: _ => .error ⟨position, first, size, fault⟩

/-- The characters that the bytes encode, unless a part of them is ill-formed. -/
def decode (bytes : List UInt8) : Except DecodeError (List Char) :=
  characters 0 [] (pieces bytes)

/-- The bytes that encode a text. -/
def encode (cs : List Char) : List UInt8 := cs.flatMap String.utf8EncodeChar

end StackDepth.Text.Utf8
