import Mathlib
import StackDepth.Dump.Bytes

/-!
# The texts that are stack dumps

Without its blanks, the text of a stack dump is an even number of hexadecimal digits of ASCII text,
at least four of them, and no other text is read (`parse_language`). What is read are the bytes
whose small hexadecimal digits are those of the text, so blanks and capital letters may be put into
printed bytes at will.

Three checks are made in a fixed order, and the first that fails names the error. The second one
looks at pairs of characters: it fails at the first pair with a character that is no digit, and the
error tells where that pair begins, even if the character is the second of the two.
-/
namespace StackDepth

open Text

namespace Dump

variable {c d : Char} {cs ds : List Char} {b : UInt8} {bytes : List UInt8} {v : Nat}

/-! ### Digits -/

/-- The hexadecimal digits of ASCII text. -/
def IsAsciiHexDigit (c : Char) : Prop :=
  ('0' ≤ c ∧ c ≤ '9') ∨ ('a' ≤ c ∧ c ≤ 'f') ∨ ('A' ≤ c ∧ c ≤ 'F')

instance : DecidablePred IsAsciiHexDigit := fun _ => inferInstanceAs (Decidable (_ ∨ _ ∨ _))

namespace IsAsciiHexDigit

/-- What holds of the digits among the first 128 characters holds of all digits. -/
theorem forall_of_forall_lt {P : Char → Prop}
    (h : ∀ k < 128, IsAsciiHexDigit (Char.ofNat k) → P (Char.ofNat k)) (hc : IsAsciiHexDigit c) :
    P c := by
  have hlt : c.toNat < 128 := by
    rcases hc with ⟨-, hle⟩ | ⟨-, hle⟩ | ⟨-, hle⟩
    · exact Nat.lt_of_le_of_lt hle (by decide)
    · exact Nat.lt_of_le_of_lt hle (by decide)
    · exact Nat.lt_of_le_of_lt hle (by decide)
  rw [← Char.ofNat_toNat c] at hc ⊢
  exact h c.toNat hlt hc

theorem isBlank_eq_false (h : IsAsciiHexDigit c) : isBlank c = false :=
  forall_of_forall_lt (P := fun c => isBlank c = false) (by decide) h

theorem exists_nibble? (h : IsAsciiHexDigit c) :
    ∃ v < 16, nibble? c = some v ∧ c.toLower = hexDigitLower v :=
  forall_of_forall_lt (P := fun c => ∃ v < 16, nibble? c = some v ∧ c.toLower = hexDigitLower v)
    (by decide) h

end IsAsciiHexDigit

theorem isAsciiHexDigit_of_nibble? (h : nibble? c = some v) : IsAsciiHexDigit c := by
  obtain ⟨hdigit, hlt⟩ := Option.filter_eq_some_iff.1 h
  rw [decide_eq_true_eq] at hlt
  unfold Numeral.asciiDigit at hdigit
  split at hdigit
  · rename_i hc
    exact .inl (by simpa using hc)
  · split at hdigit
    · rename_i hc
      simp only [Bool.and_eq_true, decide_eq_true_eq] at hc
      cases hdigit
      have hle : c.toNat ≤ 102 := by
        have : 'a'.toNat = 97 := rfl
        omega
      exact .inr (.inl ⟨hc.1, hle⟩)
    · split at hdigit
      · rename_i hc
        simp only [Bool.and_eq_true, decide_eq_true_eq] at hc
        cases hdigit
        have hle : c.toNat ≤ 70 := by
          have : 'A'.toNat = 65 := rfl
          omega
        exact .inr (.inr ⟨hc.1, hle⟩)
      · cases hdigit

theorem nibble?_of_not_isAsciiHexDigit (h : ¬ IsAsciiHexDigit c) : nibble? c = none := by
  cases hc : nibble? c with
  | none => rfl
  | some v => exact absurd (isAsciiHexDigit_of_nibble? hc) h

/-- A printed digit in either case is a digit, and a small letter makes it the printed one. -/
theorem isAsciiHexDigit_of_eq_hexDigitLower (hv : v < 16)
    (h : c = hexDigitLower v ∨ c = (hexDigitLower v).toUpper) :
    IsAsciiHexDigit c ∧ c.toLower = hexDigitLower v := by
  have hsmall : ∀ v < 16, IsAsciiHexDigit (hexDigitLower v) ∧
      (hexDigitLower v).toLower = hexDigitLower v := by decide
  have hcapital : ∀ v < 16, IsAsciiHexDigit (hexDigitLower v).toUpper ∧
      (hexDigitLower v).toUpper.toLower = hexDigitLower v := by decide
  rcases h with rfl | rfl
  · exact hsmall v hv
  · exact hcapital v hv

theorem eq_of_hexDigitLower_eq {v w : Nat} (hv : v < 16) (hw : w < 16)
    (h : hexDigitLower v = hexDigitLower w) : v = w := by
  have hinjective : ∀ v < 16, ∀ w < 16, hexDigitLower v = hexDigitLower w → v = w := by decide
  exact hinjective v hv w hw h

/-! ### Pairs -/

/-- The two digits of a byte as it is printed. -/
def printByte (b : UInt8) : List Char :=
  [hexDigitLower (b.toNat / 16), hexDigitLower (b.toNat % 16)]

theorem toList_print (bytes : List UInt8) : (print bytes).toList = bytes.flatMap printByte := by
  have hbyte : ∀ b : UInt8, hexFixed 2 b.toNat = printByte b := fun b => by
    have := b.toNat_lt
    simp only [hexFixed, List.nil_append, List.singleton_append, printByte]
    rw [Nat.mod_eq_of_lt (by omega : b.toNat / 16 < 16)]
  rw [print, String.toList_ofList]
  exact List.flatMap_congr fun b _ => hbyte b

theorem byte?_of_isAsciiHexDigit (hc : IsAsciiHexDigit c) (hd : IsAsciiHexDigit d) :
    ∃ b, byte? c d = some b ∧ printByte b = [c.toLower, d.toLower] := by
  obtain ⟨high, hhigh, hcvalue, hclower⟩ := hc.exists_nibble?
  obtain ⟨low, hlow, hdvalue, hdlower⟩ := hd.exists_nibble?
  refine ⟨(16 * high + low).toUInt8, by rw [byte?, hcvalue, hdvalue]; rfl, ?_⟩
  have hvalue : (16 * high + low).toUInt8.toNat = 16 * high + low :=
    UInt8.toNat_ofNat_of_lt' (by simp only [UInt8.size]; omega)
  rw [printByte, hvalue, hclower, hdlower, show (16 * high + low) / 16 = high by omega,
    show (16 * high + low) % 16 = low by omega]

theorem byte?_eq_none (h : ¬ IsAsciiHexDigit c ∨ ¬ IsAsciiHexDigit d) : byte? c d = none := by
  rcases h with h | h
  · rw [byte?, nibble?_of_not_isAsciiHexDigit h]
    rfl
  · rw [byte?, nibble?_of_not_isAsciiHexDigit h]
    cases nibble? c <;> rfl

theorem length_print (bytes : List UInt8) : (print bytes).toList.length = 2 * bytes.length := by
  rw [toList_print]
  induction bytes with
  | nil => rfl
  | cons b bytes ih =>
    rw [List.flatMap_cons, List.length_append, ih, List.length_cons, printByte]
    simp only [List.length_cons, List.length_nil]
    omega

theorem print_injective {bytes bytes' : List UInt8}
    (h : (print bytes).toList = (print bytes').toList) : bytes = bytes' := by
  rw [toList_print, toList_print] at h
  induction bytes generalizing bytes' with
  | nil =>
    cases bytes' with
    | nil => rfl
    | cons b' bytes' => cases h
  | cons b bytes ih =>
    cases bytes' with
    | nil => cases h
    | cons b' bytes' =>
      simp only [List.flatMap_cons, printByte, List.cons_append, List.nil_append,
        List.cons.injEq] at h
      obtain ⟨hhigh, hlow, hrest⟩ := h
      have hb := b.toNat_lt
      have hb' := b'.toNat_lt
      have hhigh := eq_of_hexDigitLower_eq (by omega) (by omega) hhigh
      have hlow := eq_of_hexDigitLower_eq (by omega) (by omega) hlow
      have hbyte : b = b' := UInt8.toNat_inj.1 (by omega)
      rw [hbyte, ih hrest]

/-! ### Reading pairs -/

/-- The pair with the given number is the first that is not two digits. -/
structure FirstBadPair (cs : List Char) (k : Nat) : Prop where
  before : ∀ c ∈ cs.take (2 * k), IsAsciiHexDigit c
  bad : ∃ c ∈ (cs.drop (2 * k)).take 2, ¬ IsAsciiHexDigit c

theorem firstBadPair_zero :
    FirstBadPair (c :: d :: cs) 0 ↔ ¬ IsAsciiHexDigit c ∨ ¬ IsAsciiHexDigit d := by
  constructor
  · intro h
    simpa using h.bad
  · intro h
    exact ⟨by simp, by simpa using h⟩

theorem firstBadPair_succ {k : Nat} :
    FirstBadPair (c :: d :: cs) (k + 1) ↔
      IsAsciiHexDigit c ∧ IsAsciiHexDigit d ∧ FirstBadPair cs k := by
  constructor
  · rintro ⟨hbefore, hbad⟩
    rw [Nat.mul_succ, List.take_succ_cons, List.take_succ_cons, List.forall_mem_cons,
      List.forall_mem_cons] at hbefore
    exact ⟨hbefore.1, hbefore.2.1, hbefore.2.2, hbad⟩
  · rintro ⟨hc, hd, hbefore, hbad⟩
    refine ⟨?_, hbad⟩
    rw [Nat.mul_succ, List.take_succ_cons, List.take_succ_cons, List.forall_mem_cons,
      List.forall_mem_cons]
    exact ⟨hc, hd, hbefore⟩

theorem exists_firstBadPair (h : ∃ c ∈ cs, ¬ IsAsciiHexDigit c) : ∃ k, FirstBadPair cs k := by
  induction cs using List.twoStepInduction with
  | nil => simp at h
  | singleton c => exact ⟨0, by simp, by simpa using h⟩
  | cons_cons c d cs ih _ =>
    by_cases hpair : IsAsciiHexDigit c ∧ IsAsciiHexDigit d
    · obtain ⟨k, hk⟩ := ih (by simpa [hpair] using h)
      exact ⟨k + 1, firstBadPair_succ.2 ⟨hpair.1, hpair.2, hk⟩⟩
    · exact ⟨0, firstBadPair_zero.2 (Decidable.not_and_iff_not_or_not.1 hpair)⟩

theorem readPairs_of_forall (heven : cs.length % 2 = 0) (h : ∀ c ∈ cs, IsAsciiHexDigit c)
    (position : Nat) (read : List UInt8) :
    ∃ bytes, readPairs position read cs = .ok (read.reverse ++ bytes) ∧
      (print bytes).toList = cs.map Char.toLower := by
  induction cs using List.twoStepInduction generalizing position read with
  | nil => exact ⟨[], by rw [readPairs, List.append_nil], rfl⟩
  | singleton c => cases heven
  | cons_cons c d cs ih _ =>
    simp only [List.forall_mem_cons] at h
    obtain ⟨hc, hd, hrest⟩ := h
    obtain ⟨b, hbyte, hprint⟩ := byte?_of_isAsciiHexDigit hc hd
    have heven' : cs.length % 2 = 0 := by
      simp only [List.length_cons] at heven
      omega
    obtain ⟨bytes, hread, hbytes⟩ := ih heven' hrest (position + 2) (b :: read)
    refine ⟨b :: bytes, ?_, ?_⟩
    · rw [readPairs, hbyte]
      simpa using hread
    · rw [toList_print] at hbytes ⊢
      rw [List.flatMap_cons, hprint, hbytes]
      rfl

theorem readPairs_of_firstBadPair {k : Nat} (h : FirstBadPair cs k) (position : Nat)
    (read : List UInt8) :
    readPairs position read cs =
      .error (.notHex (position + 2 * k) (String.ofList (cs.drop (2 * k)))) := by
  induction k generalizing cs position read with
  | zero =>
    match cs with
    | [] => simpa using h.bad
    | [c] => rfl
    | c :: d :: cs =>
      rw [readPairs, byte?_eq_none (firstBadPair_zero.1 h)]
      rfl
  | succ k ih =>
    match cs with
    | [] => simpa using h.bad
    | [c] => simpa [Nat.mul_succ] using h.bad
    | c :: d :: cs =>
      obtain ⟨hc, hd, hrest⟩ := firstBadPair_succ.1 h
      obtain ⟨b, hbyte, -⟩ := byte?_of_isAsciiHexDigit hc hd
      have hread := ih hrest (position + 2) (b :: read)
      rw [Nat.add_assoc, Nat.add_comm 2, ← Nat.mul_succ] at hread
      rw [readPairs, hbyte]
      exact hread

/-! ### Reading texts -/

theorem parse_eq (text : String) :
    parse text =
      if (removeBlanks text.toList).length % 2 ≠ 0 then
        .error (.oddLength (removeBlanks text.toList).length)
      else
        (readPairs 0 [] (removeBlanks text.toList)).bind fun bytes =>
          if bytes.length < 2 then .error .tooShort else .ok bytes := by
  by_cases hodd : (removeBlanks text.toList).length % 2 ≠ 0
  · rw [parse, if_pos hodd, if_pos hodd]
    rfl
  · rw [parse, if_neg hodd, if_neg hodd]
    refine congrArg (Except.bind _) (funext fun bytes => ?_)
    by_cases hshort : bytes.length < 2
    · rw [if_pos hshort, if_pos hshort]
      rfl
    · rw [if_neg hshort, if_neg hshort]
      rfl

/-- The digits of a stack dump. -/
structure Accepted (digits : List Char) : Prop where
  even : digits.length % 2 = 0
  four_le : 4 ≤ digits.length
  digits : ∀ c ∈ digits, IsAsciiHexDigit c

/-- What is wrong with a text, given without its blanks. -/
inductive Rejected (digits : List Char) : DumpError → Prop
  | oddLength : digits.length % 2 = 1 → Rejected digits (.oddLength digits.length)
  | notHex {k : Nat} : digits.length % 2 = 0 → FirstBadPair digits k →
      Rejected digits (.notHex (2 * k) (String.ofList (digits.drop (2 * k))))
  | tooShort : digits.length % 2 = 0 → (∀ c ∈ digits, IsAsciiHexDigit c) → digits.length < 4 →
      Rejected digits .tooShort

theorem accepted_or_rejected (digits : List Char) :
    Accepted digits ∨ ∃ e, Rejected digits e := by
  rcases Nat.mod_two_eq_zero_or_one digits.length with heven | hodd
  · by_cases hdigits : ∀ c ∈ digits, IsAsciiHexDigit c
    · by_cases hlength : 4 ≤ digits.length
      · exact .inl ⟨heven, hlength, hdigits⟩
      · exact .inr ⟨_, .tooShort heven hdigits (Nat.lt_of_not_le hlength)⟩
    · obtain ⟨k, hk⟩ := exists_firstBadPair (by simpa using hdigits)
      exact .inr ⟨_, .notHex heven hk⟩
  · exact .inr ⟨_, .oddLength hodd⟩

/-- The digits of the bytes that are read are those of the text. -/
theorem parse_of_forall {text : String} {digits : List Char}
    (htext : removeBlanks text.toList = digits) (heven : digits.length % 2 = 0)
    (hdigits : ∀ c ∈ digits, IsAsciiHexDigit c) :
    ∃ bytes, 2 * bytes.length = digits.length ∧ (print bytes).toList = digits.map Char.toLower ∧
      parse text = if bytes.length < 2 then .error .tooShort else .ok bytes := by
  obtain ⟨bytes, hread, hprint⟩ := readPairs_of_forall heven hdigits 0 []
  refine ⟨bytes, by rw [← length_print, hprint, List.length_map], hprint, ?_⟩
  rw [parse_eq, htext, if_neg (not_not_intro heven), hread]
  rfl

theorem parse_of_accepted {text : String} (h : Accepted (removeBlanks text.toList)) :
    ∃ bytes, parse text = .ok bytes ∧
      (print bytes).toList = (removeBlanks text.toList).map Char.toLower := by
  obtain ⟨bytes, hlength, hprint, hparse⟩ := parse_of_forall rfl h.even h.digits
  have hfour := h.four_le
  rw [if_neg (by omega)] at hparse
  exact ⟨bytes, hparse, hprint⟩

theorem parse_of_rejected {text : String} {e : DumpError}
    (h : Rejected (removeBlanks text.toList) e) : parse text = .error e := by
  cases h with
  | oddLength hodd => rw [parse_eq, if_pos (by omega)]
  | notHex heven hbad =>
    rw [parse_eq, if_neg (not_not_intro heven), readPairs_of_firstBadPair hbad, Nat.zero_add]
    rfl
  | tooShort heven hdigits hlength =>
    obtain ⟨bytes, hbytes, -, hparse⟩ := parse_of_forall rfl heven hdigits
    rw [hparse, if_pos (by omega)]

/-! ### Printed bytes with blanks and capitals -/

/-- Digits written out with blanks anywhere, each digit in either case. -/
inductive Written : List Char → List Char → Prop
  | nil : Written [] []
  | blank {c : Char} {digits cs : List Char} : isBlank c = true → Written digits cs →
      Written digits (c :: cs)
  | digit {c d : Char} {digits cs : List Char} : c = d ∨ c = d.toUpper → Written digits cs →
      Written (d :: digits) (c :: cs)

theorem exists_of_mem_print (h : d ∈ (print bytes).toList) : ∃ v < 16, d = hexDigitLower v := by
  rw [toList_print] at h
  obtain ⟨b, -, hd⟩ := List.mem_flatMap.1 h
  have hb := b.toNat_lt
  rcases List.mem_pair.1 hd with rfl | rfl
  · exact ⟨b.toNat / 16, by omega, rfl⟩
  · exact ⟨b.toNat % 16, by omega, rfl⟩

theorem Written.removeBlanks (h : Written ds cs)
    (hdigits : ∀ d ∈ ds, ∃ v < 16, d = hexDigitLower v) :
    (∀ c ∈ removeBlanks cs, IsAsciiHexDigit c) ∧ (removeBlanks cs).map Char.toLower = ds := by
  induction h with
  | nil => exact ⟨by simp [Text.removeBlanks], rfl⟩
  | @blank c digits cs hblank _ ih =>
    have hdrop : Text.removeBlanks (c :: cs) = Text.removeBlanks cs := by
      rw [Text.removeBlanks, List.filter_cons_of_neg (by simp [hblank])]
      rfl
    rw [hdrop]
    exact ih hdigits
  | @digit c d digits cs hcase _ ih =>
    rw [List.forall_mem_cons] at hdigits
    obtain ⟨⟨v, hv, rfl⟩, hrest⟩ := hdigits
    obtain ⟨hc, hlower⟩ := isAsciiHexDigit_of_eq_hexDigitLower hv hcase
    have hkeep : Text.removeBlanks (c :: cs) = c :: Text.removeBlanks cs := by
      rw [Text.removeBlanks, List.filter_cons_of_pos (by simp [hc.isBlank_eq_false])]
      rfl
    obtain ⟨hcs, hmap⟩ := ih hrest
    rw [hkeep, List.forall_mem_cons, List.map_cons, hmap, hlower]
    exact ⟨⟨hc, hcs⟩, rfl⟩

theorem parse_of_written {text : String} (hbytes : 2 ≤ bytes.length)
    (h : Written (print bytes).toList text.toList) : parse text = .ok bytes := by
  obtain ⟨hdigits, hlower⟩ := h.removeBlanks fun d => exists_of_mem_print
  have hlength : (removeBlanks text.toList).length = 2 * bytes.length := by
    rw [← length_print, ← hlower, List.length_map]
  obtain ⟨bytes', hparse, hprint⟩ := parse_of_accepted ⟨by omega, by omega, hdigits⟩
  rw [hparse, print_injective (hprint.trans hlower)]

/-- A text is a stack dump exactly if, without its blanks, it is an even number of digits and at
least four, and then the digits of the bytes are those of the text with small letters. Any other
text has the error that belongs to the first check it fails. So printed bytes, two of them or more,
are read back with any blanks in them and any letters as capitals. -/
theorem parse_language (text : String) :
    ((∃ bytes, parse text = .ok bytes) ↔ Accepted (removeBlanks text.toList)) ∧
      (∀ bytes, parse text = .ok bytes →
        (print bytes).toList = (removeBlanks text.toList).map Char.toLower) ∧
      (∀ e, parse text = .error e ↔ Rejected (removeBlanks text.toList) e) ∧
      ∀ bytes, 2 ≤ bytes.length → Written (print bytes).toList text.toList →
        parse text = .ok bytes := by
  refine ⟨⟨?_, ?_⟩, ?_, fun e => ⟨?_, parse_of_rejected⟩, fun _ => parse_of_written⟩
  · rintro ⟨bytes, hok⟩
    rcases accepted_or_rejected (removeBlanks text.toList) with h | ⟨e, h⟩
    · exact h
    · cases hok.symm.trans (parse_of_rejected h)
  · intro h
    obtain ⟨bytes, hok, -⟩ := parse_of_accepted h
    exact ⟨bytes, hok⟩
  · intro bytes hok
    rcases accepted_or_rejected (removeBlanks text.toList) with h | ⟨e, h⟩
    · obtain ⟨bytes', hok', hprint⟩ := parse_of_accepted h
      cases hok.symm.trans hok'
      exact hprint
    · cases hok.symm.trans (parse_of_rejected h)
  · intro herror
    rcases accepted_or_rejected (removeBlanks text.toList) with h | ⟨e', h⟩
    · obtain ⟨bytes, hok, -⟩ := parse_of_accepted h
      cases herror.symm.trans hok
    · cases herror.symm.trans (parse_of_rejected h)
      exact h

/-- Blanks may part the digits of a byte. An Arabic three is no digit here, and the error is placed
at the ASCII zero before it. -/
theorem parse_language_splitPair :
    Written (print [0x1a, 0xff]).toList " 1\tA fF".toList ∧
      parse " 1\tA fF" = .ok [0x1a, 0xff] ∧
      parse "00 0\u0663" = .error (.notHex 2 "0\u0663") := by
  have hwritten : Written (print [0x1a, 0xff]).toList " 1\tA fF".toList :=
    .blank (by decide) (.digit (.inl rfl) (.blank (by decide) (.digit (.inr (by decide))
      (.blank (by decide) (.digit (.inl rfl) (.digit (.inr (by decide)) .nil))))))
  have htext : removeBlanks "00 0٣".toList = ['0', '0', '0', '٣'] := by
    rw [show "00 0٣".toList = ['0', '0', ' ', '0', '٣'] by simp]
    decide
  have hrejected : Rejected (removeBlanks "00 0٣".toList) (.notHex 2 "0٣") := by
    rw [htext]
    have hpair : ¬ IsAsciiHexDigit '٣' := by decide
    exact .notHex rfl (firstBadPair_succ.2 ⟨by decide, by decide, firstBadPair_zero.2 (.inr hpair)⟩)
  exact ⟨hwritten, (parse_language _).2.2.2 _ (by decide) hwritten,
    ((parse_language _).2.2.1 _).2 hrejected⟩

end Dump
end StackDepth
