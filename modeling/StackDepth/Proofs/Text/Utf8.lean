import Mathlib
import StackDepth.Text.Utf8

/-!
# ASCII bytes in UTF-8

No encoded character of several bytes holds an ASCII byte, and none stands for an ASCII character.
So an ASCII byte ends whatever came before it, complete or not, and putting other ASCII bytes in its
place changes nothing else (`decodeLenient_replace`). Encoded text reads back as it was
(`decodeLenient_encode`).
-/
namespace StackDepth.Text.Utf8

/-- The character that a piece reads as. -/
def Piece.text : Piece → Char
  | .char c _ => c
  | .bad .. => '�'

theorem decodeLenient_nil : decodeLenient [] = [] := by
  rw [decodeLenient, pieces_nil, List.map_nil]

theorem decodeLenient_cons (b : UInt8) (rest : List UInt8) :
    decodeLenient (b :: rest) = (piece b rest).1.text :: decodeLenient (piece b rest).2 := by
  rw [decodeLenient, pieces_cons]
  rfl

/-! ### Lead bytes -/

theorem lead?_ascii {b : Nat} (h : b < 0x80) : lead? b = some ⟨0, 0x80, 0xBF, b⟩ := by
  rw [lead?, if_pos h]

theorem lead?_two {b : Nat} (hlow : 0xC2 ≤ b) (hhigh : b < 0xE0) :
    lead? b = some ⟨1, 0x80, 0xBF, b - 0xC0⟩ := by
  rw [lead?, if_neg (by omega), if_neg (by omega), if_pos hhigh]

theorem lead?_three {b : Nat} (hlow : 0xE0 ≤ b) (hhigh : b < 0xF0) :
    lead? b = some ⟨2, if b = 0xE0 then 0xA0 else 0x80, if b = 0xED then 0x9F else 0xBF,
      b - 0xE0⟩ := by
  rw [lead?, if_neg (by omega), if_neg (by omega), if_neg (by omega)]
  by_cases hE0 : b = 0xE0
  · simp [hE0]
  · by_cases hED : b = 0xED
    · simp [hED]
    · simp [hE0, hED, hhigh]

theorem lead?_four {b : Nat} (hlow : 0xF0 ≤ b) (hhigh : b ≤ 0xF4) :
    lead? b = some ⟨3, if b = 0xF0 then 0x90 else 0x80, if b = 0xF4 then 0x8F else 0xBF,
      b - 0xF0⟩ := by
  rw [lead?, if_neg (by omega), if_neg (by omega), if_neg (by omega), if_neg (by omega),
    if_neg (by omega), if_neg (by omega)]
  by_cases hF0 : b = 0xF0
  · simp [hF0]
  · by_cases hF4 : b = 0xF4
    · simp [hF4]
    · simp [hF0, hF4, show b < 0xF4 by omega]

/-- A lead byte is an ASCII byte, or it announces bytes that are none, and with the first of them
enough of the value is known to tell that the character is none either. -/
theorem lead?_cases {b : Nat} {l : Lead} (h : lead? b = some l) :
    0x80 ≤ l.low ∧ ((b < 0x80 ∧ l.count = 0 ∧ l.bits = b) ∨
      ∃ count, l.count = count + 1 ∧ 0x80 ≤ (l.bits * 64 + (l.low - 0x80)) * 64 ^ count) := by
  unfold lead? at h
  split_ifs at h with h₁ h₂ h₃ h₄ h₅ h₆ h₇ h₈ h₉ <;> cases h
  · exact ⟨by simp, .inl ⟨h₁, rfl, rfl⟩⟩
  all_goals exact ⟨by simp, .inr ⟨_, rfl, by simp only; omega⟩⟩

/-! ### ASCII characters -/

theorem le_toNat_replacement : 0x80 ≤ '�'.toNat := by decide

theorem text_continuation_of_le (first : UInt8) {count low high bits size : Nat}
    (rest : List UInt8) (hbits : 0x80 ≤ bits * 64 ^ count) :
    let c := (continuation first count low high bits size rest).1.text
    0x80 ≤ c.toNat ∨ c.toNat = 0 := by
  intro c
  fun_induction continuation first count low high bits size rest with
  | case1 low high bits size rest =>
    have hc : c = Char.ofNat bits := rfl
    rw [pow_zero, Nat.mul_one] at hbits
    rw [hc, Char.toNat_ofNat]
    split
    · exact .inl hbits
    · exact .inr rfl
  | case2 => exact .inl le_toNat_replacement
  | case3 count low high bits size b rest hb ih =>
    refine ih ?_
    calc 0x80 ≤ bits * 64 ^ (count + 1) := hbits
      _ = bits * 64 * 64 ^ count := by ring
      _ ≤ (bits * 64 + (b.toNat - 0x80)) * 64 ^ count := Nat.mul_le_mul_right _ (by omega)
  | case4 => exact .inl le_toNat_replacement

/-- A piece that reads as an ASCII character is that character's byte. -/
theorem text_piece_of_ne {b : UInt8} {c : Char} (hpos : 0 < c.toNat) (hc : c.toNat < 0x80)
    (hb : b.toNat ≠ c.toNat) (rest : List UInt8) : (piece b rest).1.text ≠ c := by
  have hwide : ∀ p : Piece, 0x80 ≤ p.text.toNat ∨ p.text.toNat = 0 → p.text ≠ c := by
    rintro p hp rfl
    omega
  unfold piece
  cases hlead : lead? b.toNat with
  | none => exact hwide _ (.inl le_toNat_replacement)
  | some l =>
    simp only
    rcases (lead?_cases hlead).2 with ⟨hascii, hcount, hbits⟩ | ⟨count, hcount, hbits⟩
    · rw [hcount, hbits, continuation]
      rintro rfl
      apply hb
      rw [Piece.text, Char.toNat_ofNat, if_pos (.inl (by omega))]
    · rw [hcount]
      apply hwide
      cases rest with
      | nil => exact .inl le_toNat_replacement
      | cons d rest =>
        rw [continuation]
        split
        · rename_i hd
          rw [Bool.and_eq_true, decide_eq_true_eq, decide_eq_true_eq] at hd
          refine text_continuation_of_le b rest (hbits.trans ?_)
          exact Nat.mul_le_mul_right _ (by omega)
        · exact .inl le_toNat_replacement

theorem suffix_continuation (first : UInt8) (count low high bits size : Nat) (rest : List UInt8) :
    (continuation first count low high bits size rest).2 <:+ rest := by
  fun_induction continuation first count low high bits size rest with
  | case1 | case2 | case4 => exact List.suffix_rfl
  | case3 count low high bits size b rest hb ih => exact ih.trans (List.suffix_cons b rest)

theorem suffix_piece (b : UInt8) (rest : List UInt8) : (piece b rest).2 <:+ rest := by
  unfold piece
  split
  · exact List.suffix_rfl
  · exact suffix_continuation ..

theorem pieces_induction {motive : List UInt8 → Prop} (nil : motive [])
    (cons : ∀ b rest, motive (piece b rest).2 → motive (b :: rest)) (bytes : List UInt8) :
    motive bytes := by
  induction hn : bytes.length using Nat.strongRecOn generalizing bytes with
  | ind n ih =>
    cases bytes with
    | nil => exact nil
    | cons b rest =>
      have hle := length_piece_le b rest
      rw [List.length_cons] at hn
      exact cons b rest (ih _ (by omega) _ rfl)

theorem not_mem_decodeLenient {c : Char} (hpos : 0 < c.toNat) (hc : c.toNat < 0x80)
    {bytes : List UInt8} (h : ∀ b ∈ bytes, b.toNat ≠ c.toNat) : c ∉ decodeLenient bytes := by
  induction bytes using pieces_induction with
  | nil => simp [decodeLenient_nil]
  | cons b rest ih =>
    rw [decodeLenient_cons, List.mem_cons, not_or]
    constructor
    · exact (text_piece_of_ne hpos hc (h b List.mem_cons_self) rest).symm
    · exact ih fun d hd => h d (List.mem_cons_of_mem _ ((suffix_piece b rest).subset hd))

/-! ### Other bytes for line feeds -/

/-- The bytes with others in the place of each line feed. -/
def replaceLineFeeds (mark : List UInt8) (bytes : List UInt8) : List UInt8 :=
  bytes.flatMap fun b => if b = 0x0A then mark else [b]

theorem replaceLineFeeds_lineFeed (mark rest : List UInt8) :
    replaceLineFeeds mark (0x0A :: rest) = mark ++ replaceLineFeeds mark rest := rfl

theorem replaceLineFeeds_other (mark : List UInt8) {b : UInt8} (hb : b ≠ 0x0A)
    (rest : List UInt8) : replaceLineFeeds mark (b :: rest) = b :: replaceLineFeeds mark rest := by
  rw [replaceLineFeeds, List.flatMap_cons, if_neg hb]
  rfl

section Mark

variable {mark : List UInt8} (hne : mark ≠ []) (hascii : ∀ b ∈ mark, b.toNat < 0x80)

include hne hascii

/-- A character that is cut off by a line feed is cut off by any other ASCII byte. -/
theorem continuation_replace (first : UInt8) {count low high bits size : Nat} (hlow : 0x80 ≤ low)
    (rest : List UInt8) :
    (continuation first count low high bits size (replaceLineFeeds mark rest)).1.text =
        (continuation first count low high bits size rest).1.text ∧
      (continuation first count low high bits size (replaceLineFeeds mark rest)).2 =
        replaceLineFeeds mark (continuation first count low high bits size rest).2 := by
  fun_induction continuation first count low high bits size rest with
  | case1 => exact ⟨rfl, rfl⟩
  | case2 => exact ⟨rfl, rfl⟩
  | case3 count low high bits size b rest hb ih =>
    have hother : b ≠ 0x0A := by
      rintro rfl
      rw [Bool.and_eq_true, decide_eq_true_eq] at hb
      exact absurd (hlow.trans hb.1) (by decide)
    rw [replaceLineFeeds_other mark hother, continuation, if_pos hb]
    exact ih (Nat.le_refl _)
  | case4 count low high bits size b rest hb =>
    by_cases hfeed : b = 0x0A
    · subst hfeed
      rw [replaceLineFeeds_lineFeed]
      cases mark with
      | nil => exact absurd rfl hne
      | cons m tail =>
        have hm : m.toNat < 0x80 := hascii m List.mem_cons_self
        have hout : ¬ (decide (low ≤ m.toNat) && decide (m.toNat ≤ high)) = true := by
          rw [Bool.and_eq_true, decide_eq_true_eq]
          omega
        rw [List.cons_append, continuation, if_neg hout]
        exact ⟨rfl, rfl⟩
    · rw [replaceLineFeeds_other mark hfeed, continuation, if_neg hb]
      exact ⟨rfl, rfl⟩

theorem piece_replace (b : UInt8) (rest : List UInt8) :
    (piece b (replaceLineFeeds mark rest)).1.text = (piece b rest).1.text ∧
      (piece b (replaceLineFeeds mark rest)).2 = replaceLineFeeds mark (piece b rest).2 := by
  unfold piece
  cases hlead : lead? b.toNat with
  | none => exact ⟨rfl, rfl⟩
  | some l => exact continuation_replace hne hascii b (lead?_cases hlead).1 rest

end Mark

theorem decodeLenient_ascii {b : UInt8} (hb : b.toNat < 0x80) (rest : List UInt8) :
    decodeLenient (b :: rest) = Char.ofNat b.toNat :: decodeLenient rest := by
  rw [decodeLenient_cons, piece, lead?_ascii hb]
  rfl

theorem decodeLenient_ascii_append {mark : List UInt8} (h : ∀ b ∈ mark, b.toNat < 0x80)
    (rest : List UInt8) :
    decodeLenient (mark ++ rest) = mark.map (Char.ofNat ·.toNat) ++ decodeLenient rest := by
  induction mark with
  | nil => rfl
  | cons b mark ih =>
    rw [List.cons_append, decodeLenient_ascii (h b List.mem_cons_self),
      ih fun d hd => h d (List.mem_cons_of_mem _ hd)]
    rfl

/-- ASCII bytes in the place of line feeds read as their characters in the place of these, whatever
stands around them. -/
theorem decodeLenient_replace {mark : List UInt8} (hne : mark ≠ [])
    (hascii : ∀ b ∈ mark, b.toNat < 0x80) (bytes : List UInt8) :
    decodeLenient (replaceLineFeeds mark bytes) = (decodeLenient bytes).flatMap fun c =>
      if c = '\n' then mark.map (Char.ofNat ·.toNat) else [c] := by
  induction bytes using pieces_induction with
  | nil => rw [decodeLenient_nil, List.flatMap_nil, ← decodeLenient_nil]; rfl
  | cons b rest ih =>
    by_cases hfeed : b = 0x0A
    · subst hfeed
      have hpiece : (piece 0x0A rest).2 = rest := rfl
      rw [hpiece] at ih
      rw [replaceLineFeeds_lineFeed, decodeLenient_ascii_append hascii, ih,
        decodeLenient_ascii (by decide), List.flatMap_cons, if_pos (by decide)]
    · obtain ⟨htext, hrest⟩ := piece_replace hne hascii b rest
      have hother : (piece b rest).1.text ≠ '\n' :=
        text_piece_of_ne (by decide) (by decide) (fun h => hfeed (UInt8.toNat_inj.1 h)) rest
      rw [replaceLineFeeds_other mark hfeed, decodeLenient_cons, htext, hrest, ih,
        decodeLenient_cons, List.flatMap_cons, if_neg hother]
      rfl

/-! ### Encoded text -/

theorem toNat_byte {b : Nat} (hb : b < 256) : (UInt8.ofNat b).toNat = b := by
  rw [UInt8.toNat_ofNat', Nat.mod_eq_of_lt hb]

theorem piece_of_lead {b count low high bits : Nat} (hb : b < 256)
    (h : lead? b = some ⟨count, low, high, bits⟩) (rest : List UInt8) :
    piece (UInt8.ofNat b) rest = continuation (UInt8.ofNat b) count low high bits 1 rest := by
  rw [piece, toNat_byte hb, h]

theorem continuation_byte (first : UInt8) {count low high bits size b : Nat} (hb : b < 256)
    (hlow : low ≤ b) (hhigh : b ≤ high) (rest : List UInt8) :
    continuation first (count + 1) low high bits size (UInt8.ofNat b :: rest) =
      continuation first count 0x80 0xBF (bits * 64 + (b - 0x80)) (size + 1) rest := by
  rw [continuation, toNat_byte hb, if_pos (by simp [hlow, hhigh])]

/-- The bytes of a character are one piece, which reads as the character. No surrogate and nothing
past the last code point is written, so the second byte is within the bounds of its lead byte. -/
theorem decodeLenient_encodeChar (c : Char) (rest : List UInt8) :
    decodeLenient (String.utf8EncodeChar c ++ rest) = c :: decodeLenient rest := by
  have hvalid : c.toNat < 0xD800 ∨ 0xDFFF < c.toNat ∧ c.toNat < 0x110000 := c.valid
  have hread : ∀ {n : Nat}, n = c.toNat → Char.ofNat n = c := by
    rintro n rfl
    exact Char.ofNat_toNat c
  have hval : c.val.toNat = c.toNat := rfl
  unfold String.utf8EncodeChar
  simp only [hval]
  generalize c.toNat = v at *
  split_ifs with h₁ h₂ h₃
  · rw [List.singleton_append, decodeLenient_cons,
      piece_of_lead (by omega) (lead?_ascii (by omega)), continuation]
    simp only [Piece.text]
    rw [hread rfl]
  · simp only [List.cons_append, List.nil_append]
    rw [decodeLenient_cons, piece_of_lead (by omega) (lead?_two (by omega) (by omega)),
      continuation_byte _ (by omega) (by omega) (by omega), continuation]
    simp only [Piece.text]
    rw [hread (by omega)]
  · simp only [List.cons_append, List.nil_append]
    rw [decodeLenient_cons, piece_of_lead (by omega) (lead?_three (by omega) (by omega)),
      continuation_byte _ (by omega) (by split <;> omega) (by split <;> omega),
      continuation_byte _ (by omega) (by omega) (by omega), continuation]
    simp only [Piece.text]
    rw [hread (by omega)]
  · simp only [List.cons_append, List.nil_append]
    rw [decodeLenient_cons, piece_of_lead (by omega) (lead?_four (by omega) (by omega)),
      continuation_byte _ (by omega) (by split <;> omega) (by split <;> omega),
      continuation_byte _ (by omega) (by omega) (by omega),
      continuation_byte _ (by omega) (by omega) (by omega), continuation]
    simp only [Piece.text]
    rw [hread (by omega)]

theorem decodeLenient_encode (cs : List Char) : decodeLenient (encode cs) = cs := by
  induction cs with
  | nil => exact decodeLenient_nil
  | cons c cs ih =>
    rw [encode, List.flatMap_cons, decodeLenient_encodeChar]
    exact congrArg (c :: ·) ih

end StackDepth.Text.Utf8
