import Mathlib
import StackDepth.Proofs.Listing.Mnemonics

/-!
# The text of an instruction line

The disassembler writes an address, a colon and two to four bytes of machine code in front of an
instruction, with blanks between them. Here these parts are described for themselves, apart from
the scanners that read them, and the scanners are shown to find exactly such parts: each of them
takes what it recognises as far as it goes, so a text splits in one way.
-/
namespace StackDepth

namespace Text

variable {c : Char}

theorem isHexDigit_of_isDigit (h : isDigit c = true) : isHexDigit c = true := by
  simp [isHexDigit, h]

theorem isBlank_of_isDigit (h : isDigit c = true) : isBlank c = false :=
  isBlank_of_isHexDigit (isHexDigit_of_isDigit h)

theorem isHexDigit_of_isBlank (h : isBlank c = true) : isHexDigit c = false := by
  by_contra hhex
  rw [isBlank_of_isHexDigit (by simpa using hhex)] at h
  cases h

theorem isDigit_of_isBlank (h : isBlank c = true) : isDigit c = false := by
  by_contra hdigit
  rw [isBlank_of_isDigit (by simpa using hdigit)] at h
  cases h

end Text

open Text

namespace Scan

/-! ### Stretches of characters -/

/-- The text does not begin with a character of the class. -/
def Clear (inClass : Char → Bool) (text : List Char) : Prop := text.head?.any inClass = false

/-- One or more characters of a class. -/
structure Stretch (inClass : Char → Bool) where
  chars : List Char
  ne_nil : chars ≠ []
  all : ∀ c ∈ chars, inClass c = true

/-- Blanks, perhaps none. -/
structure Blanks where
  chars : List Char
  all : ∀ c ∈ chars, isBlank c = true

abbrev Gap := Stretch isBlank
abbrev HexDigits := Stretch isHexDigit
abbrev Digits := Stretch isDigit
abbrev Symbol := Stretch isSymbolChar

namespace HexDigits

def value (digits : HexDigits) : Nat := Numeral.hex digits.chars

end HexDigits

namespace Digits

def value (digits : Digits) : Nat := Numeral.ofDigits 10 digitValue digits.chars

end Digits

namespace Symbol

def name (symbol : Symbol) : String := String.ofList symbol.chars

end Symbol

variable {inClass other : Char → Bool} {rest : List Char}

theorem clear_nil : Clear inClass [] := rfl

theorem clear_cons {c : Char} (h : inClass c = false) (rest : List Char) :
    Clear inClass (c :: rest) := h

theorem clear_mono (h : ∀ c, other c = true → inClass c = true) (hclear : Clear inClass rest) :
    Clear other rest := by
  cases rest with
  | nil => rfl
  | cons c rest =>
    by_contra hother
    have hc : other c = true := by simpa [Clear] using hother
    have hnot : inClass c = false := hclear
    rw [h c hc] at hnot
    cases hnot

theorem clear_dropWhile (cs : List Char) : Clear inClass (cs.dropWhile inClass) := by
  induction cs with
  | nil => rfl
  | cons c cs ih =>
    by_cases hc : inClass c = true
    · rwa [List.dropWhile_cons_of_pos hc]
    · rw [List.dropWhile_cons_of_neg hc]
      exact clear_cons (by simpa using hc) cs

theorem takeWhile_of_clear (h : Clear inClass rest) : rest.takeWhile inClass = [] := by
  cases rest with
  | nil => rfl
  | cons c rest => exact List.takeWhile_cons_of_neg (by simpa [Clear] using h)

theorem dropWhile_of_clear (h : Clear inClass rest) : rest.dropWhile inClass = rest := by
  cases rest with
  | nil => rfl
  | cons c rest => exact List.dropWhile_cons_of_neg (by simpa [Clear] using h)

namespace Stretch

theorem exists_cons (w : Stretch inClass) :
    ∃ c cs, w.chars = c :: cs ∧ inClass c = true := by
  obtain ⟨c, cs, hcons⟩ := List.exists_cons_of_ne_nil w.ne_nil
  exact ⟨c, cs, hcons, w.all c (hcons ▸ List.mem_cons_self)⟩

/-- A stretch of one class ends a stretch of another. -/
theorem clear (w : Stretch other) (h : ∀ c, other c = true → inClass c = false)
    (rest : List Char) : Clear inClass (w.chars ++ rest) := by
  obtain ⟨c, cs, hcons, hc⟩ := w.exists_cons
  rw [hcons]
  exact clear_cons (h c hc) _

end Stretch

theorem Blanks.clear (b : Blanks) (h : ∀ c, isBlank c = true → inClass c = false)
    (hrest : Clear inClass rest) : Clear inClass (b.chars ++ rest) := by
  obtain ⟨chars, hall⟩ := b
  cases chars with
  | nil => exact hrest
  | cons c cs => exact clear_cons (h c (hall c List.mem_cons_self)) _

/-! ### Scanners and stretches -/

theorem run_append (w : Stretch inClass) (h : Clear inClass rest) :
    Scan.run inClass (w.chars ++ rest) = some (w.chars, rest) := by
  have htake : (w.chars ++ rest).takeWhile inClass = w.chars := by
    rw [List.takeWhile_append_of_pos w.all, takeWhile_of_clear h, List.append_nil]
  have hdrop : (w.chars ++ rest).dropWhile inClass = rest := by
    rw [List.dropWhile_append_of_pos w.all, dropWhile_of_clear h]
  obtain ⟨c, cs, hcons, -⟩ := w.exists_cons
  rw [Scan.run, htake, hdrop, hcons]

theorem exists_stretch_of_run {cs taken : List Char}
    (h : Scan.run inClass cs = some (taken, rest)) :
    ∃ w : Stretch inClass, w.chars = taken ∧ cs = w.chars ++ rest ∧ Clear inClass rest := by
  have hall : ∀ c ∈ cs.takeWhile inClass, inClass c = true := fun c => List.mem_takeWhile_imp
  unfold Scan.run at h
  split at h
  · cases h
  · rename_i taken' hne
    cases h
    exact ⟨⟨_, hne, hall⟩, rfl, List.takeWhile_append_dropWhile.symm, clear_dropWhile cs⟩

theorem blanks_append (gap : Gap) (h : Clear isBlank rest) :
    blanks (gap.chars ++ rest) = some rest := by
  rw [blanks, run_append gap h, Option.map_some]

theorem exists_gap_of_blanks {cs : List Char} (h : blanks cs = some rest) :
    ∃ gap : Gap, cs = gap.chars ++ rest ∧ Clear isBlank rest := by
  obtain ⟨⟨taken, left⟩, hrun, rfl⟩ := Option.map_eq_some_iff.1 h
  obtain ⟨gap, -, hsplit⟩ := exists_stretch_of_run hrun
  exact ⟨gap, hsplit⟩

theorem skipBlanks_append (b : Blanks) (h : Clear isBlank rest) :
    skipBlanks (b.chars ++ rest) = rest := by
  rw [skipBlanks, List.dropWhile_append_of_pos b.all, dropWhile_of_clear h]

theorem exists_blanks (cs : List Char) :
    ∃ b : Blanks, cs = b.chars ++ skipBlanks cs ∧ Clear isBlank (skipBlanks cs) :=
  ⟨⟨cs.takeWhile isBlank, fun _ => List.mem_takeWhile_imp⟩,
    List.takeWhile_append_dropWhile.symm, clear_dropWhile cs⟩

theorem literal_append (word rest : List Char) : literal word (word ++ rest) = some rest := by
  induction word with
  | nil => rfl
  | cons c word ih => rw [List.cons_append, literal, if_pos rfl, ih]

theorem literal_of_clear {w : Char} (hw : inClass w = true) (h : Clear inClass rest)
    (word : List Char) : literal (w :: word) rest = none := by
  cases rest with
  | nil => rfl
  | cons c rest =>
    have hne : w ≠ c := by
      rintro rfl
      have hnot : inClass w = false := h
      rw [hw] at hnot
      cases hnot
    rw [literal, if_neg hne]

/-! ### Machine code -/

/-- A byte of machine code with the blanks in front of it. -/
structure CodeByte where
  gap : Gap
  high : Char
  low : Char
  high_hex : isHexDigit high = true
  low_hex : isHexDigit low = true

namespace CodeByte

def print (byte : CodeByte) : List Char := byte.gap.chars ++ [byte.high, byte.low]

end CodeByte

theorem codeByte_append (byte : CodeByte) (rest : List Char) :
    codeByte (byte.print ++ rest) = some rest := by
  have hblanks : blanks (byte.print ++ rest) = some (byte.high :: byte.low :: rest) := by
    rw [CodeByte.print, List.append_assoc]
    exact blanks_append byte.gap (clear_cons (isBlank_of_isHexDigit byte.high_hex) _)
  rw [codeByte_of_blanks hblanks, byte.high_hex, byte.low_hex]
  rfl

theorem exists_byte_of_codeByte {cs : List Char} (h : codeByte cs = some rest) :
    ∃ byte : CodeByte, cs = byte.print ++ rest := by
  obtain ⟨text, hblanks, -⟩ := Option.bind_eq_some_iff.1 h
  obtain ⟨gap, rfl, -⟩ := exists_gap_of_blanks hblanks
  match text with
  | [] | [_] =>
    rw [codeByte, hblanks] at h
    cases h
  | high :: low :: left =>
    rw [codeByte_of_blanks hblanks] at h
    split at h
    · rename_i hhex
      cases h
      obtain ⟨hhigh, hlow⟩ := Bool.and_eq_true_iff.1 hhex
      exact ⟨⟨gap, high, low, hhigh, hlow⟩, by simp [CodeByte.print]⟩
    · cases h

theorem codeBytes_append (bytes : List CodeByte) (rest : List Char) :
    codeBytes bytes.length (bytes.flatMap CodeByte.print ++ rest) = some rest := by
  induction bytes with
  | nil => rfl
  | cons byte bytes ih =>
    rw [List.length_cons, codeBytes, List.flatMap_cons, List.append_assoc, codeByte_append,
      Option.bind_some, ih]

theorem exists_bytes_of_codeBytes {count : Nat} {cs : List Char}
    (h : codeBytes count cs = some rest) :
    ∃ bytes : List CodeByte, bytes.length = count ∧ cs = bytes.flatMap CodeByte.print ++ rest := by
  induction count generalizing cs with
  | zero => exact ⟨[], rfl, Option.some.inj h⟩
  | succ count ih =>
    obtain ⟨left, hbyte, hleft⟩ := Option.bind_eq_some_iff.1 h
    obtain ⟨byte, rfl⟩ := exists_byte_of_codeByte hbyte
    obtain ⟨bytes, rfl, rfl⟩ := ih hleft
    exact ⟨byte :: bytes, rfl, by rw [List.flatMap_cons, List.append_assoc]⟩

/-! ### What stands in front of an instruction -/

/-- An address and two to four bytes of machine code, with the blanks up to the instruction. -/
structure Front where
  indent : Blanks
  address : HexDigits
  code : List CodeByte
  two_le : 2 ≤ code.length
  le_four : code.length ≤ 4
  gap : Gap

namespace Front

variable (front : Front)

def codeText (text : List Char) : List Char :=
  front.code.flatMap CodeByte.print ++ (front.gap.chars ++ text)

/-- The whole line, given the text of the instruction. -/
def line (text : List Char) : List Char :=
  front.indent.chars ++ (front.address.chars ++ (':' :: front.codeText text))

theorem address_line (text : List Char) :
    Scan.address (front.line text) = some (front.address.value, front.codeText text) := by
  have hclear : Clear isBlank (front.address.chars ++ (':' :: front.codeText text)) :=
    front.address.clear (fun _ => isBlank_of_isHexDigit) _
  have hcolon : Clear isHexDigit (':' :: front.codeText text) := clear_cons (by decide) _
  simp only [Scan.address, line, skipBlanks_append front.indent hclear,
    run_append front.address hcolon, Option.bind_eq_bind, Option.bind_some]
  rfl

theorem mem_operations {text : List Char} (h : Clear isBlank text) :
    text ∈ operations (front.codeText text) := by
  apply List.mem_filterMap.2
  refine ⟨front.code.length, ?_, ?_⟩
  · have htwo := front.two_le
    have hfour := front.le_four
    simp only [List.mem_cons, List.not_mem_nil, or_false]
    omega
  · rw [codeText, codeBytes_append, Option.bind_some, blanks_append front.gap h]

/-- The line reads as an instruction at the address, and the text is one of its readings. -/
theorem instruction_line {text : List Char} (h : Clear isBlank text) :
    Scan.instruction (front.line text) =
      some (front.address.value, operations (front.codeText text)) := by
  simp only [Scan.instruction, address_line, Option.bind_eq_bind, Option.bind_some]
  split
  · rename_i hnone
    have hmem := front.mem_operations h
    rw [hnone] at hmem
    cases hmem
  · rfl

end Front

/-- Every reading of an instruction line stands behind a front. -/
theorem exists_front_of_instruction {cs : List Char} {address : Nat} {texts : List (List Char)}
    (h : Scan.instruction cs = some (address, texts)) {text : List Char} (htext : text ∈ texts) :
    ∃ front : Front, cs = front.line text ∧ front.address.value = address ∧
      texts = operations (front.codeText text) ∧ Clear isBlank text := by
  obtain ⟨⟨n, left⟩, haddress, h⟩ := Option.bind_eq_some_iff.1 h
  obtain ⟨⟨digits, behind⟩, hdigits, hcolon⟩ := Option.bind_eq_some_iff.1 haddress
  obtain ⟨after, hliteral, hvalue⟩ := Option.bind_eq_some_iff.1 hcolon
  cases hvalue
  obtain ⟨indent, hindent, -⟩ := exists_blanks cs
  obtain ⟨w, rfl, hskip, -⟩ := exists_stretch_of_run hdigits
  have hbehind : behind = [':'] ++ left := literal_some hliteral
  simp only at h
  split at h
  · cases h
  · cases h
    obtain ⟨count, hcount, hmem⟩ := List.mem_filterMap.1 htext
    obtain ⟨more, hmore, hblanks⟩ := Option.bind_eq_some_iff.1 hmem
    obtain ⟨bytes, rfl, rfl⟩ := exists_bytes_of_codeBytes hmore
    obtain ⟨gap, rfl, hclear⟩ := exists_gap_of_blanks hblanks
    simp only [List.mem_cons, List.not_mem_nil, or_false] at hcount
    refine ⟨⟨indent, w, bytes, by omega, by omega, gap⟩, ?_, rfl, rfl, hclear⟩
    rw [hindent, hskip, hbehind]
    rfl

/-! ### Comments -/

/-- The semicolon in front of a comment, with the blanks around it. -/
structure Semicolon where
  before : Blanks
  after : Blanks

namespace Semicolon

def print (s : Semicolon) : List Char := s.before.chars ++ ';' :: s.after.chars

theorem clear (s : Semicolon) (hblank : ∀ c, isBlank c = true → inClass c = false)
    (hsemicolon : inClass ';' = false) (rest : List Char) : Clear inClass (s.print ++ rest) := by
  rw [print, List.append_assoc]
  exact s.before.clear hblank (clear_cons hsemicolon _)

end Semicolon

theorem comment_append (s : Semicolon) (h : Clear isBlank rest) :
    comment (s.print ++ rest) = some rest := by
  have hsemicolon : Clear isBlank (';' :: (s.after.chars ++ rest)) := clear_cons (by decide) _
  rw [comment, Semicolon.print, List.append_assoc, List.cons_append,
    skipBlanks_append s.before hsemicolon]
  exact congrArg some (skipBlanks_append s.after h)

theorem exists_semicolon_of_comment {cs : List Char} (h : comment cs = some rest) :
    ∃ s : Semicolon, cs = s.print ++ rest ∧ Clear isBlank rest := by
  obtain ⟨left, hliteral, rfl⟩ := Option.map_eq_some_iff.1 h
  obtain ⟨before, hbefore, -⟩ := exists_blanks cs
  obtain ⟨after, hafter, hclear⟩ := exists_blanks left
  refine ⟨⟨before, after⟩, ?_, hclear⟩
  calc cs = before.chars ++ skipBlanks cs := hbefore
    _ = before.chars ++ (';' :: left) := by rw [literal_some hliteral]; rfl
    _ = before.chars ++ (';' :: (after.chars ++ skipBlanks left)) := by rw [← hafter]
    _ = Semicolon.print ⟨before, after⟩ ++ skipBlanks left := by
      rw [Semicolon.print, List.append_assoc, List.cons_append]

theorem hexNumber_append (digits : HexDigits) (h : Clear isHexDigit rest) :
    hexNumber (['0', 'x'] ++ (digits.chars ++ rest)) = some (digits.chars, rest) := by
  rw [hexNumber, literal_append]
  exact run_append digits h

theorem exists_digits_of_hexNumber {cs taken : List Char} (h : hexNumber cs = some (taken, rest)) :
    ∃ digits : HexDigits, digits.chars = taken ∧ cs = ['0', 'x'] ++ (digits.chars ++ rest) := by
  obtain ⟨left, hliteral, hrun⟩ := Option.bind_eq_some_iff.1 h
  obtain ⟨digits, hchars, rfl, -⟩ := exists_stretch_of_run hrun
  exact ⟨digits, hchars, literal_some hliteral⟩

theorem decimal_digits {digits : Digits} (h : digits.chars.length ≤ Numeral.maxDigits) :
    Numeral.decimal digits.chars = .ok digits.value :=
  if_neg (Nat.not_lt.2 h)

/-- An immediate operand, the number that the comment gives for it, and what comes behind. -/
structure Immediate where
  operand : HexDigits
  semicolon : Semicolon
  amount : Digits
  tail : List Char
  clear_tail : Clear isDigit tail

namespace Immediate

def print (i : Immediate) : List Char :=
  ['0', 'x'] ++ (i.operand.chars ++ (i.semicolon.print ++ (i.amount.chars ++ i.tail)))

end Immediate

theorem immediate_print (i : Immediate) : immediate i.print = some i.amount.chars := by
  have hcomment : Clear isHexDigit (i.semicolon.print ++ (i.amount.chars ++ i.tail)) :=
    i.semicolon.clear (fun _ => isHexDigit_of_isBlank) (by decide) _
  have hamount : Clear isBlank (i.amount.chars ++ i.tail) :=
    i.amount.clear (fun _ => isBlank_of_isDigit) _
  simp only [immediate, Immediate.print, hexNumber_append i.operand hcomment,
    comment_append i.semicolon hamount, run_append i.amount i.clear_tail, Option.bind_eq_bind,
    Option.bind_some]

theorem exists_immediate {cs digits : List Char} (h : immediate cs = some digits) :
    ∃ i : Immediate, cs = i.print ∧ i.amount.chars = digits := by
  obtain ⟨⟨_, left⟩, hnumber, h⟩ := Option.bind_eq_some_iff.1 h
  obtain ⟨more, hcomment, h⟩ := Option.bind_eq_some_iff.1 h
  obtain ⟨⟨taken, tail⟩, hrun, h⟩ := Option.bind_eq_some_iff.1 h
  cases h
  obtain ⟨operand, -, rfl⟩ := exists_digits_of_hexNumber hnumber
  obtain ⟨semicolon, rfl, -⟩ := exists_semicolon_of_comment hcomment
  obtain ⟨amount, rfl, rfl, hclear⟩ := exists_stretch_of_run hrun
  exact ⟨⟨operand, semicolon, amount, tail, hclear⟩, rfl, rfl⟩

theorem registerImmediate_print (register : List Char) (gap : Gap) (i : Immediate) :
    Shape.registerImmediate register (register ++ (gap.chars ++ i.print)) =
      some i.amount.chars := by
  have hclear : Clear isBlank i.print := clear_cons (by decide) _
  rw [Shape.registerImmediate, literal_append]
  simp only [blanks_append gap hclear, immediate_print, Option.bind_eq_bind, Option.bind_some]

theorem exists_of_registerImmediate {register cs digits : List Char}
    (h : Shape.registerImmediate register cs = some digits) :
    ∃ (gap : Gap) (i : Immediate), cs = register ++ (gap.chars ++ i.print) ∧
      i.amount.chars = digits := by
  obtain ⟨rest, hregister, h⟩ := Option.bind_eq_some_iff.1 h
  obtain ⟨left, hgap, himmediate⟩ := Option.bind_eq_some_iff.1 h
  obtain ⟨gap, rfl, -⟩ := exists_gap_of_blanks hgap
  obtain ⟨i, rfl, hdigits⟩ := exists_immediate himmediate
  exact ⟨gap, i, literal_some hregister, hdigits⟩

end Scan
end StackDepth
