import Mathlib
import StackDepth.Proofs.Listing.Disassembly

/-!
# Printed lines read back

The lines that matter to the analysis as the disassembler prints them: labels, pushes and pops,
calls, jumps, loads of frame sizes and subtractions from the frame pointer. Blanks between their
parts may be of any kind and number, and numbers and names of any length. Every line that is
printed this way reads as the instruction that it was printed from, with the same numbers and
names. A jump counts as a register save or restore exactly if it goes to the name of that helper,
and not to a name that merely begins with it.
-/
namespace StackDepth

open Text

namespace Scan

/-! ### Numbers in their usual form -/

theorem all_toDigits {base : Nat} (hbase : 1 < base) {inClass : Char → Bool}
    (h : ∀ d < base, inClass d.digitChar = true) (n : Nat) :
    ∀ c ∈ Nat.toDigits base n, inClass c = true := by
  induction n using Nat.strongRecOn with
  | _ n ih =>
    intro c hc
    by_cases hn : n < base
    · rw [Nat.toDigits_of_lt_base hn, List.mem_singleton] at hc
      rw [hc]
      exact h n hn
    · have hdiv : n / base < n := Nat.div_lt_self (by omega) hbase
      rw [Nat.toDigits_of_base_le hbase (by omega), List.mem_append, List.mem_singleton] at hc
      rcases hc with hc | rfl
      · exact ih (n / base) hdiv c hc
      · exact h _ (Nat.mod_lt n (by omega))

theorem ofDigits_toDigits {base : Nat} (hbase : 1 < base) {value : Char → Nat}
    (h : ∀ d < base, value d.digitChar = d) (n : Nat) :
    Numeral.ofDigits base value (Nat.toDigits base n) = n := by
  induction n using Nat.strongRecOn with
  | _ n ih =>
    by_cases hn : n < base
    · rw [Nat.toDigits_of_lt_base hn]
      simp [Numeral.ofDigits, h n hn]
    · have hdiv : n / base < n := Nat.div_lt_self (by omega) hbase
      rw [Nat.toDigits_of_base_le hbase (by omega), Numeral.ofDigits, List.foldl_append]
      change base * Numeral.ofDigits base value (Nat.toDigits base (n / base)) +
        value (n % base).digitChar = n
      rw [ih (n / base) hdiv, h _ (Nat.mod_lt n (by omega)), Nat.div_add_mod]

/-- The digits of a number in base sixteen. -/
def HexDigits.ofNat (n : Nat) : HexDigits where
  chars := Nat.toDigits 16 n
  ne_nil := Nat.toDigits_ne_nil
  all := all_toDigits (by decide) (by decide) n

theorem HexDigits.value_ofNat (n : Nat) : (HexDigits.ofNat n).value = n :=
  ofDigits_toDigits (by decide) (by decide) n

/-- The digits of a number in base ten. -/
def Digits.ofNat (n : Nat) : Digits where
  chars := Nat.toDigits 10 n
  ne_nil := Nat.toDigits_ne_nil
  all := all_toDigits (by decide) (by decide) n

theorem Digits.value_ofNat (n : Nat) : (Digits.ofNat n).value = n :=
  ofDigits_toDigits (by decide) (by decide) n

end Scan

open Scan

namespace Printed

/-! ### What is printed -/

/-- The operand of a jump or a call. -/
inductive Operand where
  | absolute (address : HexDigits)
  | forward (distance : Digits)
  | backward (distance : Digits)

namespace Operand

def print : Operand → List Char
  | absolute address => ['0', 'x'] ++ address.chars
  | forward distance => ['.', '+'] ++ distance.chars
  | backward distance => ['.', '-'] ++ distance.chars

/-- Whether the operand is `.+0`, the next instruction. -/
def isNext : Operand → Bool
  | forward distance => distance.chars == ['0']
  | _ => false

end Operand

/-- The operand of a jump or a call with the address that the comment gives for it. -/
structure Target where
  operand : Operand
  semicolon : Semicolon
  address : HexDigits

def Target.print (t : Target) : List Char :=
  t.operand.print ++ (t.semicolon.print ++ (['0', 'x'] ++ t.address.chars))

/-- A place in the program: a symbol, or a distance from it. -/
structure Place where
  symbol : Symbol
  offset : Option HexDigits

namespace Place

/-- What stands behind the name, up to the closing bracket. -/
def ending (p : Place) : List Char :=
  match p.offset with
  | none => ['>']
  | some offset => ['+', '0', 'x'] ++ (offset.chars ++ ['>'])

def print (p : Place) : List Char := ['<'] ++ (p.symbol.chars ++ p.ending)

def offsetValue (p : Place) : Option Nat := p.offset.map HexDigits.value

/-- What a jump to the place does, if its address is the given one. -/
def jump (config : Config) (p : Place) (address : Nat) : Operation :=
  if p.symbol.name = config.prologueHelper then .registerSave p.offsetValue
  else if p.symbol.name = config.epilogueHelper then .registerRestore p.offsetValue
  else .jump address p.symbol.name p.offsetValue

end Place

def callWord : Bool → List Char
  | true => ['r', 'c', 'a', 'l', 'l']
  | false => ['c', 'a', 'l', 'l']

def jumpWord : Bool → List Char
  | true => ['r', 'j', 'm', 'p']
  | false => ['j', 'm', 'p']

def subtractWord : Bool → List Char
  | true => ['s', 'b', 'i', 'w']
  | false => ['s', 'u', 'b', 'i']

def frameRegister : FrameRegister → List Char
  | .r26 => ['r', '2', '6', ',']
  | .r27 => ['r', '2', '7', ',']

/-- An instruction with the blanks between its parts. Calls and jumps have a relative form, and a
subtraction takes a byte or a word. -/
inductive Instruction where
  | push (gap : Gap) (register : Digits) (trail : Blanks)
  | pop (gap : Gap) (register : Digits) (trail : Blanks)
  | callNext (gap : Gap) (tail : List Char) (clear : Clear isDigit tail)
  | call (relative : Bool) (gap : Gap) (target : Target) (tail : List Char)
      (clear : Clear isHexDigit tail) (notNext : (relative && target.operand.isNext) = false)
  | jump (relative : Bool) (gap : Gap) (target : Target) (gap' : Gap) (place : Place)
      (tail : List Char)
  | load (gap : Gap) (register : FrameRegister) (gap' : Gap) (immediate : Immediate)
      (short : immediate.amount.chars.length ≤ Numeral.maxDigits)
  | subtract (word : Bool) (gap gap' : Gap) (immediate : Immediate)
      (short : immediate.amount.chars.length ≤ Numeral.maxDigits)

namespace Instruction

def print : Instruction → List Char
  | push gap register trail =>
    ['p', 'u', 's', 'h'] ++ (gap.chars ++ (['r'] ++ (register.chars ++ trail.chars)))
  | pop gap register trail =>
    ['p', 'o', 'p'] ++ (gap.chars ++ (['r'] ++ (register.chars ++ trail.chars)))
  | callNext gap tail _ => ['r', 'c', 'a', 'l', 'l'] ++ (gap.chars ++ (['.', '+', '0'] ++ tail))
  | call relative gap target tail _ _ =>
    callWord relative ++ (gap.chars ++ (target.print ++ tail))
  | jump relative gap target gap' place tail =>
    jumpWord relative ++ (gap.chars ++ (target.print ++ (gap'.chars ++ (place.print ++ tail))))
  | load gap register gap' immediate _ =>
    ['l', 'd', 'i'] ++ (gap.chars ++ (frameRegister register ++ (gap'.chars ++ immediate.print)))
  | subtract word gap gap' immediate _ =>
    subtractWord word ++
      (gap.chars ++ (['r', '2', '8', ','] ++ (gap'.chars ++ immediate.print)))

/-- What the instruction does to the stack. -/
def operation (config : Config) : Instruction → Operation
  | push .. => .push
  | pop .. => .pop
  | callNext .. => .selfCall
  | call _ _ target .. => .call target.address.value
  | jump _ _ target _ place _ => place.jump config target.address.value
  | load _ register _ immediate _ => .frameLoad register immediate.amount.value
  | subtract _ _ _ immediate _ => .stackLow immediate.amount.value

/-- A shape with the mnemonic of the instruction. -/
def shape : Instruction → Shape
  | push .. => .push
  | pop .. => .pop
  | callNext .. | call .. => .call
  | jump .. => .jump
  | load .. => .frameLoad
  | subtract .. => .stackLow

end Instruction

/-- A line of the listing: a label or an instruction. -/
inductive Entry where
  | label (address : HexDigits) (symbol : Symbol) (trail : Blanks)
  | instruction (front : Front) (instruction : Instruction)

namespace Entry

def print : Entry → List Char
  | label address symbol trail =>
    address.chars ++ ([' ', '<'] ++ (symbol.chars ++ (['>', ':'] ++ trail.chars)))
  | instruction front i => front.line i.print

def text (e : Entry) : String := String.ofList e.print

def reading (config : Config) : Entry → Line
  | label address symbol _ => .label address.value symbol.name
  | instruction front i => .instruction front.address.value (i.operation config)

end Entry

/-! ### Reading the parts -/

variable {rest : List Char}

theorem operand_print (o : Operand) (h : Clear isHexDigit rest) :
    Scan.operand (o.print ++ rest) = some rest := by
  have hdigit : Clear isDigit rest := clear_mono (fun _ => isHexDigit_of_isDigit) h
  cases o with
  | absolute address =>
    have hrun : (Scan.run isHexDigit (address.chars ++ rest)).map (·.2) = some rest := by
      rw [run_append address h, Option.map_some]
    simpa [Operand.print, Scan.operand] using hrun
  | forward distance | backward distance =>
    have hrun : (Scan.run isDigit (distance.chars ++ rest)).map (·.2) = some rest := by
      rw [run_append distance hdigit, Option.map_some]
    simpa [Operand.print, Scan.operand] using hrun

theorem target_print (t : Target) (h : Clear isHexDigit rest) :
    Scan.target (t.print ++ rest) = some (t.address.value, rest) := by
  have hcomment : Clear isHexDigit
      (t.semicolon.print ++ (['0', 'x'] ++ (t.address.chars ++ rest))) :=
    t.semicolon.clear (fun _ => isHexDigit_of_isBlank) (by decide) _
  have hmarker : Clear isBlank (['0', 'x'] ++ (t.address.chars ++ rest)) :=
    clear_cons (by decide) _
  simp only [Scan.target, Target.print, List.append_assoc, operand_print t.operand hcomment,
    comment_append t.semicolon hmarker, hexNumber_append t.address h, Option.bind_eq_bind,
    Option.bind_some]
  rfl

theorem symbolEnd_ending (p : Place) (tail : List Char) :
    symbolEnd (p.ending ++ tail) = some p.offsetValue := by
  unfold Place.ending Place.offsetValue
  cases p.offset with
  | none => rfl
  | some offset =>
    have hbracket : Clear isHexDigit ('>' :: tail) := clear_cons (by decide) _
    have hnumber := hexNumber_append offset hbracket
    simp only [List.cons_append, List.nil_append, List.append_assoc] at hnumber ⊢
    simp only [symbolEnd, hnumber, Option.bind_eq_bind, Option.bind_some, Option.map_some]
    rfl

theorem clear_ending (p : Place) (tail : List Char) : Clear isSymbolChar (p.ending ++ tail) := by
  unfold Place.ending
  cases p.offset with
  | none => exact clear_cons (by decide +kernel) _
  | some offset => exact clear_cons (by decide +kernel) _

theorem Operand.clear (o : Operand) {inClass : Char → Bool} (hzero : inClass '0' = false)
    (hpoint : inClass '.' = false) (rest : List Char) : Clear inClass (o.print ++ rest) := by
  cases o with
  | absolute address => exact clear_cons hzero _
  | forward distance | backward distance => exact clear_cons hpoint _

theorem Target.clear (t : Target) (rest : List Char) : Clear isBlank (t.print ++ rest) := by
  rw [Target.print, List.append_assoc]
  exact t.operand.clear (by decide) (by decide) _

theorem afterJump_print (relative : Bool) (gap : Gap) (h : Clear isBlank rest) :
    Shape.afterJump (jumpWord relative ++ (gap.chars ++ rest)) = some rest := by
  cases relative <;> exact blanks_append gap h

theorem afterCall_print (relative : Bool) (gap : Gap) (h : Clear isBlank rest) :
    Shape.afterCall (callWord relative ++ (gap.chars ++ rest)) = some rest := by
  cases relative <;> exact blanks_append gap h

theorem afterSubtract_print (word : Bool) (gap : Gap) (h : Clear isBlank rest) :
    Shape.afterSubtract (subtractWord word ++ (gap.chars ++ rest)) = some rest := by
  cases word with
  | true => exact blanks_append gap h
  | false =>
    have hgap : Clear (fun c => !isBlank c) (gap.chars ++ rest) :=
      gap.clear (by simp) rest
    have hnone : Scan.literal ['w'] (gap.chars ++ rest) = none :=
      literal_of_clear (by decide) hgap []
    change blanks ((Scan.literal ['w'] (gap.chars ++ rest)).getD (gap.chars ++ rest)) = some rest
    rw [hnone, Option.getD_none, blanks_append gap h]

/-! ### Jumps to helpers -/

theorem clear_of_symbolEnd (h : symbolEnd rest ≠ none) : Clear isSymbolChar rest := by
  unfold symbolEnd at h
  split at h
  · exact clear_cons (by decide +kernel) _
  · exact clear_cons (by decide +kernel) _
  · exact absurd rfl h

/-- Where a name ends, neither a shorter nor a longer name can be read. -/
theorem eq_of_literal_symbol {word left : List Char} (hword : ∀ c ∈ word, isSymbolChar c = true)
    (symbol : Symbol) (h : Clear isSymbolChar rest)
    (hliteral : Scan.literal word (symbol.chars ++ rest) = some left)
    (hend : symbolEnd left ≠ none) : symbol.chars = word := by
  have hsplit : symbol.chars ++ rest = word ++ left := literal_some hliteral
  calc symbol.chars = (symbol.chars ++ rest).takeWhile isSymbolChar := by
        rw [List.takeWhile_append_of_pos symbol.all, takeWhile_of_clear h, List.append_nil]
    _ = (word ++ left).takeWhile isSymbolChar := by rw [hsplit]
    _ = word := by
        rw [List.takeWhile_append_of_pos hword, takeWhile_of_clear (clear_of_symbolEnd hend),
          List.append_nil]

theorem symbolEnd_behind_helper {helper : String}
    (hhelper : ∀ c ∈ helper.toList, isSymbolChar c = true) (p : Place) (tail : List Char) :
    (Scan.literal ('<' :: helper.toList) (p.print ++ tail)).bind symbolEnd =
      if p.symbol.name = helper then some p.offsetValue else none := by
  have hprint : Scan.literal ('<' :: helper.toList) (p.print ++ tail) =
      Scan.literal helper.toList (p.symbol.chars ++ (p.ending ++ tail)) := by
    rw [Place.print, List.append_assoc, List.append_assoc]
    rfl
  rw [hprint]
  by_cases hname : p.symbol.name = helper
  · have hchars : helper.toList = p.symbol.chars := by
      rw [← hname, Symbol.name, String.toList_ofList]
    rw [if_pos hname, hchars, literal_append, Option.bind_some, symbolEnd_ending]
  · rw [if_neg hname]
    cases hliteral : Scan.literal helper.toList (p.symbol.chars ++ (p.ending ++ tail)) with
    | none => rfl
    | some left =>
      by_contra hend
      have hchars : p.symbol.chars = helper.toList :=
        eq_of_literal_symbol hhelper p.symbol (clear_ending p tail) hliteral hend
      exact hname (by rw [Symbol.name, hchars, String.ofList_toList])

/-! ### Reading instructions -/

section Jump

variable (relative : Bool) (gap : Gap) (target : Target) (gap' : Gap) (place : Place)
  (tail : List Char)

theorem afterJump_jump :
    Shape.afterJump (Instruction.jump relative gap target gap' place tail).print =
      some (target.print ++ (gap'.chars ++ (place.print ++ tail))) :=
  afterJump_print relative gap (target.clear _)

theorem target_jump :
    Scan.target (target.print ++ (gap'.chars ++ (place.print ++ tail))) =
      some (target.address.value, gap'.chars ++ (place.print ++ tail)) :=
  target_print target (gap'.clear (fun _ => isHexDigit_of_isBlank) _)

theorem helperJump_print {helper : String}
    (hhelper : ∀ c ∈ helper.toList, isSymbolChar c = true) :
    Shape.helperJump helper (Instruction.jump relative gap target gap' place tail).print =
      if place.symbol.name = helper then some place.offsetValue else none := by
  have hplace : Clear isBlank (place.print ++ tail) := clear_cons (by decide) _
  rw [← symbolEnd_behind_helper hhelper place tail]
  simp only [Shape.helperJump, afterJump_jump, target_jump, blanks_append gap' hplace,
    Option.bind_eq_bind, Option.bind_some]

theorem read_jump (config : Config) :
    Shape.jump.read config (Instruction.jump relative gap target gap' place tail).print =
      some (.ok (.jump target.address.value place.symbol.name place.offsetValue)) := by
  have hskip : skipBlanks (gap'.chars ++ (place.print ++ tail)) = place.print ++ tail :=
    skipBlanks_append ⟨gap'.chars, gap'.all⟩ (clear_cons (by decide) _)
  have hbracket : Scan.literal ['<'] (place.print ++ tail) =
      some (place.symbol.chars ++ (place.ending ++ tail)) := by
    rw [Place.print, List.append_assoc, List.append_assoc, literal_append]
  simp only [Shape.read, afterJump_jump, target_jump, hskip, hbracket,
    run_append place.symbol (clear_ending place tail), symbolEnd_ending, Option.bind_eq_bind,
    Option.bind_some]
  rfl

end Jump

/-- The names of both helpers can stand in a listing. -/
structure HelperNames (config : Config) : Prop where
  prologue : ∀ c ∈ config.prologueHelper.toList, isSymbolChar c = true
  epilogue : ∀ c ∈ config.epilogueHelper.toList, isSymbolChar c = true

theorem registerOnly_print (gap : Gap) (register : Digits) (trail : Blanks) :
    Shape.registerOnly (gap.chars ++ (['r'] ++ (register.chars ++ trail.chars))) = some () := by
  have hregister : Clear isBlank (['r'] ++ (register.chars ++ trail.chars)) :=
    clear_cons (by decide) _
  have htrail : Clear isDigit (trail.chars ++ []) :=
    trail.clear (fun _ => isDigit_of_isBlank) clear_nil
  rw [List.append_nil] at htrail
  have hall : trail.chars.all isBlank = true := List.all_eq_true.2 trail.all
  simp only [Shape.registerOnly, blanks_append gap hregister, literal_append,
    run_append register htrail, hall, Option.bind_eq_bind, Option.bind_some, if_true]

theorem read_push (config : Config) (gap : Gap) (register : Digits) (trail : Blanks) :
    Shape.push.read config (Instruction.push gap register trail).print = some (.ok .push) := by
  simp only [Shape.read, Instruction.print, literal_append, registerOnly_print,
    Option.bind_eq_bind, Option.bind_some]

theorem read_pop (config : Config) (gap : Gap) (register : Digits) (trail : Blanks) :
    Shape.pop.read config (Instruction.pop gap register trail).print = some (.ok .pop) := by
  simp only [Shape.read, Instruction.print, literal_append, registerOnly_print,
    Option.bind_eq_bind, Option.bind_some]

theorem read_selfCall_callNext (config : Config) (gap : Gap) {tail : List Char}
    (h : Clear isDigit tail) :
    Shape.selfCall.read config (Instruction.callNext gap tail h).print = some (.ok .selfCall) := by
  have hoperand : Clear isBlank (['.', '+', '0'] ++ tail) := clear_cons (by decide) _
  have htail : tail.head?.any isDigit = false := h
  simp only [Shape.read, Instruction.print, literal_append, blanks_append gap hoperand, htail,
    Option.bind_eq_bind, Option.bind_some]
  rfl

/-- An operand other than `.+0` that begins like it goes on with a digit. -/
theorem digit_behind_zero {o : Operand} (h : o.isNext = false) {left : List Char}
    (hliteral : Scan.literal ['.', '+', '0'] (o.print ++ rest) = some left) :
    left.head?.any isDigit = true := by
  cases o with
  | absolute address => cases hliteral
  | backward distance => cases hliteral
  | forward distance =>
    obtain ⟨chars, hne, hall⟩ := distance
    have hsplit : '.' :: '+' :: (chars ++ rest) = '.' :: '+' :: '0' :: left :=
      literal_some hliteral
    have hchars : chars ++ rest = '0' :: left := by simpa using hsplit
    match chars with
    | [] => exact absurd rfl hne
    | [c] =>
      obtain ⟨rfl, -⟩ := List.cons.inj hchars
      cases h
    | c :: d :: more =>
      have hleft : d :: (more ++ rest) = left := (List.cons.inj hchars).2
      rw [← hleft]
      exact hall d (by simp)

/-- Only a call to the next instruction reads as one. -/
theorem read_selfCall_call (config : Config) {relative : Bool} (gap : Gap) {target : Target}
    {tail : List Char} (hclear : Clear isHexDigit tail)
    (h : (relative && target.operand.isNext) = false) :
    Shape.selfCall.read config (Instruction.call relative gap target tail hclear h).print =
      none := by
  cases relative with
  | false => rfl
  | true =>
    simp only [Shape.read, Instruction.print, callWord, literal_append,
      blanks_append gap (target.clear tail), Option.bind_eq_bind, Option.bind_some]
    rw [Target.print, List.append_assoc]
    cases hliteral : Scan.literal ['.', '+', '0'] (target.operand.print ++
        ((target.semicolon.print ++ (['0', 'x'] ++ target.address.chars)) ++ tail)) with
    | none => rfl
    | some left => rw [Option.bind_some, digit_behind_zero h hliteral, if_pos rfl]

theorem read_call (config : Config) {relative : Bool} (gap : Gap) {target : Target}
    {tail : List Char} (hclear : Clear isHexDigit tail)
    (h : (relative && target.operand.isNext) = false) :
    Shape.call.read config (Instruction.call relative gap target tail hclear h).print =
      some (.ok (.call target.address.value)) := by
  simp only [Shape.read, Instruction.print, afterCall_print relative gap (target.clear tail),
    target_print target hclear, Option.bind_eq_bind, Option.bind_some]

theorem read_frameLoad_load (config : Config) (gap : Gap) (register : FrameRegister) (gap' : Gap)
    {immediate : Immediate} (h : immediate.amount.chars.length ≤ Numeral.maxDigits) :
    Shape.frameLoad.read config (Instruction.load gap register gap' immediate h).print =
      some (.ok (.frameLoad register immediate.amount.value)) := by
  have hclear : Clear isBlank (frameRegister register ++ (gap'.chars ++ immediate.print)) := by
    cases register <;> exact clear_cons (by decide) _
  have hregister : Shape.frameRegister (frameRegister register ++ (gap'.chars ++ immediate.print))
      = some (register, [','] ++ (gap'.chars ++ immediate.print)) := by
    cases register <;> rfl
  simp only [Shape.read, Instruction.print, literal_append, blanks_append gap hclear, hregister,
    registerImmediate_print, decimal_digits h, Option.bind_eq_bind, Option.bind_some]
  rfl

theorem read_stackLow_subtract (config : Config) (word : Bool) (gap gap' : Gap)
    {immediate : Immediate} (h : immediate.amount.chars.length ≤ Numeral.maxDigits) :
    Shape.stackLow.read config (Instruction.subtract word gap gap' immediate h).print =
      some (.ok (.stackLow immediate.amount.value)) := by
  have hclear : Clear isBlank (['r', '2', '8', ','] ++ (gap'.chars ++ immediate.print)) :=
    clear_cons (by decide) _
  simp only [Shape.read, Instruction.print, afterSubtract_print word gap hclear,
    registerImmediate_print, decimal_digits h, Option.bind_eq_bind, Option.bind_some]
  rfl

theorem callWord_mem (relative : Bool) : callWord relative ∈ Shape.call.mnemonics := by
  cases relative <;> decide

theorem jumpWord_mem (relative : Bool) : jumpWord relative ∈ Shape.jump.mnemonics := by
  cases relative <;> decide

theorem beginsWith_subtractWord (word : Bool) (rest : List Char) :
    Shape.BeginsWith Shape.stackLow.mnemonics (subtractWord word ++ rest) := by
  cases word with
  | true => exact ⟨['s', 'b', 'i'], by decide, ['w'] ++ rest, rfl⟩
  | false => exact ⟨['s', 'u', 'b', 'i'], by decide, rest, rfl⟩

namespace Instruction

theorem beginsWith_print (i : Instruction) : Shape.BeginsWith i.shape.mnemonics i.print := by
  cases i with
  | push | pop | callNext | load => exact ⟨_, List.mem_cons_self, List.prefix_append _ _⟩
  | call relative => exact ⟨_, callWord_mem relative, List.prefix_append _ _⟩
  | jump relative => exact ⟨_, jumpWord_mem relative, List.prefix_append _ _⟩
  | subtract word => exact beginsWith_subtractWord word _

/-- Of the shapes with its mnemonic, the first that an instruction has is its own. -/
theorem findSome?_read {config : Config} (hconfig : HelperNames config) (i : Instruction) :
    i.shape.group.findSome? (·.read config i.print) = some (.ok (i.operation config)) := by
  cases i with
  | push gap register trail =>
    change [Shape.push].findSome? _ = _
    rw [List.findSome?_cons, read_push]
    rfl
  | pop gap register trail =>
    change [Shape.pop].findSome? _ = _
    rw [List.findSome?_cons, read_pop]
    rfl
  | callNext gap tail hclear =>
    change [Shape.selfCall, .call].findSome? _ = _
    rw [List.findSome?_cons, read_selfCall_callNext config gap hclear]
    rfl
  | call relative gap target tail hclear hnext =>
    change [Shape.selfCall, .call].findSome? _ = _
    rw [List.findSome?_cons, List.findSome?_cons, read_selfCall_call config gap hclear hnext,
      read_call config gap hclear hnext]
    rfl
  | jump relative gap target gap' place tail =>
    have hsave := helperJump_print relative gap target gap' place tail hconfig.prologue
    have hrestore := helperJump_print relative gap target gap' place tail hconfig.epilogue
    have hjump := read_jump relative gap target gap' place tail config
    change [Shape.registerSave, .registerRestore, .jump].findSome? _ = _
    simp only [List.findSome?_cons, hjump]
    simp only [Shape.read, hsave, hrestore, operation, Place.jump]
    split_ifs <;> rfl
  | load gap register gap' immediate hshort =>
    change [Shape.frameLoad].findSome? _ = _
    rw [List.findSome?_cons, read_frameLoad_load config gap register gap' hshort]
    rfl
  | subtract word gap gap' immediate hshort =>
    change [Shape.stackLow].findSome? _ = _
    rw [List.findSome?_cons, read_stackLow_subtract config word gap gap' hshort]
    rfl

end Instruction

end Printed

/-! ### Reading lines -/

theorem Shape.clear_of_beginsWith {shape : Shape} {text : List Char}
    (h : Shape.BeginsWith shape.mnemonics text) : Clear isBlank text := by
  obtain ⟨word, hword, rest, rfl⟩ := h
  cases shape <;> simp only [Shape.mnemonics, List.mem_cons, List.not_mem_nil, or_false] at hword
  all_goals rcases hword with rfl | rfl <;> exact clear_cons (by decide) _

namespace Line

/-- An instruction behind a front is classified by the shapes with its mnemonic alone. -/
theorem classify_front {config : Config} (front : Front) {shape : Shape} {text : List Char}
    (hbegins : Shape.BeginsWith shape.mnemonics text) {operation : Operation}
    (h : shape.group.findSome? (·.read config text) = some (.ok operation)) :
    classify config (String.ofList (front.line text)) =
      .ok (.instruction front.address.value operation) := by
  have hclear : Clear isBlank text := Shape.clear_of_beginsWith hbegins
  have hinstruction := front.instruction_line hclear
  have hlabel : label? (front.line text) = none := by
    by_contra hlabel
    obtain ⟨label, hlabel⟩ := Option.ne_none_iff_exists'.1 hlabel
    rw [instruction_of_label hlabel] at hinstruction
    cases hinstruction
  have hread : ∀ other : Shape, other.find config (operations (front.codeText text)) =
      other.read config text :=
    fun other => Shape.find_eq_read (front.mem_operations hclear) hbegins
  have hgroup : ∀ other : Shape, other.read config text ≠ none → other ∈ shape.group := by
    intro other hother
    exact Shape.mem_group.2
      (Shape.mnemonics_eq_of_beginsWith (Shape.beginsWith_of_read hother) hbegins)
  have hfind : Shape.table.findSome?
      (Shape.find config (operations (front.codeText text))) = some (.ok operation) := by
    rw [funext hread, Shape.reordering_table.findSome?_eq shape.group_mem_groups hgroup, h]
  simp only [classify, classifyBy, String.toList_ofList, hlabel, hinstruction, hfind]
  rfl

theorem label?_print (address : HexDigits) (symbol : Symbol) (trail : Blanks) :
    label? (Printed.Entry.label address symbol trail).print =
      some (address.value, symbol.name) := by
  have hopen : Clear isHexDigit
      ([' ', '<'] ++ (symbol.chars ++ (['>', ':'] ++ trail.chars))) := clear_cons (by decide) _
  have hclose : Clear isSymbolChar (['>', ':'] ++ trail.chars) :=
    clear_cons (by decide +kernel) _
  have hall : trail.chars.all isBlank = true := List.all_eq_true.2 trail.all
  simp only [label?, Printed.Entry.print, run_append address hopen, literal_append,
    run_append symbol hclose, hall, Option.bind_eq_bind, Option.bind_some, if_true]
  rfl

/-- Every printed line reads as the label or the instruction that it was printed from. -/
theorem classify_print {config : Config} (hconfig : Printed.HelperNames config)
    (entry : Printed.Entry) : classify config entry.text = .ok (entry.reading config) := by
  cases entry with
  | label address symbol trail =>
    simp only [classify, classifyBy, Printed.Entry.text, String.toList_ofList, label?_print]
    rfl
  | instruction front i => exact classify_front front i.beginsWith_print (i.findSome?_read hconfig)

end Line

namespace Printed

def tab : Gap := ⟨['\t'], by decide, List.all_eq_true.1 (by decide)⟩

def space : Gap := ⟨[' '], by decide, List.all_eq_true.1 (by decide)⟩

def front (address : Nat) : Front :=
  ⟨⟨[' ', ' '], List.all_eq_true.1 (by decide)⟩, .ofNat address,
    [⟨tab, '5', 'c', by decide, by decide⟩, ⟨space, 'c', '1', by decide, by decide⟩],
    by decide, by decide, tab⟩

def semicolon : Semicolon := ⟨⟨tab.chars, tab.all⟩, ⟨space.chars, space.all⟩⟩

def loadSize : Entry :=
  .instruction (front 0x2c2)
    (.load tab .r26 space ⟨.ofNat 0x10, semicolon, .ofNat 16, [], rfl⟩ (by decide))

theorem reading_loadSize (config : Config) :
    loadSize.reading config = .instruction 0x2c2 (.frameLoad .r26 16) := by
  simp only [loadSize, front, Entry.reading, Instruction.operation, HexDigits.value_ofNat,
    Digits.value_ofNat]

/-- A jump to a place somewhat behind the given symbol. -/
def jumpPast (symbol : Symbol) : Entry :=
  .instruction (front 0x2c4)
    (.jump true tab ⟨.forward (.ofNat 696), semicolon, .ofNat 0x57e⟩ space
      ⟨symbol, some (.ofNat 0x1c)⟩ [])

theorem reading_jumpPast (config : Config) (symbol : Symbol) :
    (jumpPast symbol).reading config =
      .instruction 0x2c4 (Place.jump config ⟨symbol, some (.ofNat 0x1c)⟩ 0x57e) := by
  simp only [jumpPast, front, Entry.reading, Instruction.operation, HexDigits.value_ofNat]

def saveHelper : Symbol :=
  ⟨"__prologue_saves__".toList, by decide, List.all_eq_true.1 (by decide +kernel)⟩

/-- A function whose name goes on where that of the helper ends. -/
def saveNamesake : Symbol :=
  ⟨"__prologue_saves__.2".toList, by decide, List.all_eq_true.1 (by decide +kernel)⟩

end Printed

namespace Line

open Printed in
/-- A frame size is loaded, a jump into the helper saves registers, and a jump to its namesake does
not. -/
theorem classify_print_jumpPast :
    HelperNames {} ∧
      classify {} loadSize.text = .ok (.instruction 0x2c2 (.frameLoad .r26 16)) ∧
      (jumpPast saveHelper).text =
        "  2c4:\t5c c1\trjmp\t.+696\t; 0x57e <__prologue_saves__+0x1c>" ∧
      classify {} (jumpPast saveHelper).text =
        .ok (.instruction 0x2c4 (.registerSave (some 0x1c))) ∧
      classify {} (jumpPast saveNamesake).text =
        .ok (.instruction 0x2c4 (.jump 0x57e "__prologue_saves__.2" (some 0x1c))) := by
  have hnames : HelperNames {} :=
    ⟨List.all_eq_true.1 (by decide +kernel), List.all_eq_true.1 (by decide +kernel)⟩
  refine ⟨hnames, ?_, by decide +kernel, ?_, ?_⟩
  · rw [classify_print hnames, reading_loadSize]
  · rw [classify_print hnames, reading_jumpPast]
    decide +kernel
  · rw [classify_print hnames, reading_jumpPast]
    decide +kernel

end Line
end StackDepth
