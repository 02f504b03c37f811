import Mathlib
import StackDepth.Proofs.Listing.Disassembly

/-!
# Which lines are stack pointer updates

What the instructions of an update look like is said here for itself, apart from the functions
that look for them. A subtraction from the low byte of the frame pointer begins an update exactly
if the instructions behind it are those that write the stack pointer, with at most one subtraction
from the high byte in front of them. Labels and source text do not count. The amount is then put
together from both bytes, and any other subtraction from the low byte is without effect.
-/
namespace StackDepth

open Text Scan

namespace Line

/-- The line shows the text as an instruction, behind an address and machine code. -/
def Shows (line : String) (text : List Char) : Prop :=
  Clear isBlank text ∧ ∃ front : Front, line.toList = front.line text

variable {line : String} {text text' : List Char}

theorem shows_iff : Shows line text ↔
    ∃ address texts, Scan.instruction line.toList = some (address, texts) ∧ text ∈ texts := by
  constructor
  · rintro ⟨hclear, front, hline⟩
    rw [hline, front.instruction_line hclear]
    exact ⟨_, _, rfl, front.mem_operations hclear⟩
  · rintro ⟨address, texts, htexts, htext⟩
    obtain ⟨front, hline, -, -, hclear⟩ := exists_front_of_instruction htexts htext
    exact ⟨hclear, front, hline⟩

/-- A line shows one text at most that does not begin with machine code. -/
theorem Shows.eq (h : Shows line text) (hcode : startsWithCode text = false)
    (h' : Shows line text') (hcode' : startsWithCode text' = false) : text' = text := by
  obtain ⟨address, texts, htexts, htext⟩ := shows_iff.1 h
  obtain ⟨address', texts', htexts', htext'⟩ := shows_iff.1 h'
  rw [htexts, Option.some.injEq, Prod.mk.injEq] at htexts'
  obtain ⟨-, rfl⟩ := htexts'
  obtain ⟨rest, rfl⟩ := exists_operations_of_instruction htexts
  apply (eq_or_startsWithCode htext hcode htext').resolve_right
  rw [hcode']
  simp

end Line

namespace StackPointer

open Line

/-! ### The instructions of an update -/

/-- A mnemonic with two operands, the second of them a whole word. -/
def TakesOperands (mnemonic first second text : List Char) : Prop :=
  ∃ (gap gap' : Gap) (tail : List Char), wordEnd tail = true ∧
    text = mnemonic ++ (gap.chars ++ (first ++ (gap'.chars ++ (second ++ tail))))

/-- The carry is subtracted from the high byte of the frame pointer. -/
def SubtractsCarry (line : String) : Prop :=
  ∃ text, Shows line text ∧ TakesOperands ['s', 'b', 'c'] ['r', '2', '9', ','] ['r', '1'] text

/-- A number is subtracted from the high byte of the frame pointer. -/
def SubtractsHigh (line : String) (number : Immediate) : Prop :=
  ∃ gap gap' : Gap, Shows line
    (['s', 'b', 'c', 'i'] ++ (gap.chars ++ (['r', '2', '9', ','] ++ (gap'.chars ++ number.print))))

/-- The status register is read. -/
def ReadsStatus (line : String) : Prop :=
  ∃ text, Shows line text ∧ TakesOperands ['i', 'n'] ['r', '0', ','] ['0', 'x', '3', 'f'] text

/-- Interrupts are turned off. -/
def DisablesInterrupts (line : String) : Prop :=
  ∃ tail, wordEnd tail = true ∧ Shows line (['c', 'l', 'i'] ++ tail)

/-- The high byte of the stack pointer is written. -/
def WritesHighByte (line : String) : Prop :=
  ∃ text, Shows line text ∧
    TakesOperands ['o', 'u', 't'] ['0', 'x', '3', 'e', ','] ['r', '2', '9'] text

/-- The lines begin with the three instructions that write the stack pointer. -/
def WritesPointer : List String → Prop
  | status :: disable :: write :: _ =>
    ReadsStatus status ∧ DisablesInterrupts disable ∧ WritesHighByte write
  | _ => False

/-- The instructions complete an update whose low byte has been subtracted, and its high byte is
the given one. -/
inductive Completes : List String → Nat → Prop
  | low {next : List String} : WritesPointer next → Completes next 0
  | carry {line : String} {next : List String} :
      SubtractsCarry line → WritesPointer next → Completes (line :: next) 0
  | high {line : String} {next : List String} {number : Immediate} :
      SubtractsHigh line number → WritesPointer next → Completes (line :: next) number.amount.value

/-! ### Finding them -/

variable {line : String} {text : List Char}

theorem hasForm_iff {form : List Char → Bool} :
    hasForm form line = true ↔ ∃ text, Shows line text ∧ form text = true := by
  constructor
  · intro h
    obtain ⟨address, texts, htexts, text, htext, hform⟩ := exists_text_of_hasForm h
    exact ⟨text, shows_iff.2 ⟨address, texts, htexts, htext⟩, hform⟩
  · rintro ⟨text, hshows, hform⟩
    obtain ⟨address, texts, htexts, htext⟩ := shows_iff.1 hshows
    simp only [hasForm, htexts]
    exact List.any_eq_true.2 ⟨text, htext, hform⟩

theorem operands_iff {mnemonic first second : List Char}
    (hfirst : ∀ rest, Clear isBlank (first ++ rest))
    (hsecond : ∀ rest, Clear isBlank (second ++ rest)) :
    operands mnemonic first second text = true ↔ TakesOperands mnemonic first second text := by
  constructor
  · intro h
    obtain ⟨_, h⟩ := Option.isSome_iff_exists.1 h
    obtain ⟨rest, hmnemonic, h⟩ := Option.bind_eq_some_iff.1 h
    obtain ⟨left, hgap, h⟩ := Option.bind_eq_some_iff.1 h
    obtain ⟨rest', hfirst, h⟩ := Option.bind_eq_some_iff.1 h
    obtain ⟨left', hgap', h⟩ := Option.bind_eq_some_iff.1 h
    obtain ⟨tail, hsecond, hend⟩ := Option.bind_eq_some_iff.1 h
    obtain ⟨gap, rfl, -⟩ := exists_gap_of_blanks hgap
    obtain ⟨gap', rfl, -⟩ := exists_gap_of_blanks hgap'
    refine ⟨gap, gap', tail, ?_, ?_⟩
    · by_contra hword
      rw [if_neg hword] at hend
      cases hend
    · rw [literal_some hmnemonic, literal_some hfirst, literal_some hsecond]
  · rintro ⟨gap, gap', tail, hend, rfl⟩
    simp only [operands, literal_append, blanks_append gap (hfirst _),
      blanks_append gap' (hsecond tail), hend, Option.bind_eq_bind, Option.bind_some, if_true,
      Option.isSome_some]

theorem hasForm_operands_iff {mnemonic first second : List Char} {c d : Char}
    (hc : isBlank c = false) (hd : isBlank d = false) :
    hasForm (operands mnemonic (c :: first) (d :: second)) line = true ↔
      ∃ text, Shows line text ∧ TakesOperands mnemonic (c :: first) (d :: second) text := by
  rw [hasForm_iff]
  refine exists_congr fun text => and_congr_right fun _ => ?_
  exact operands_iff (fun _ => clear_cons hc _) (fun _ => clear_cons hd _)

theorem isCarry_iff : isCarry line = true ↔ SubtractsCarry line :=
  hasForm_operands_iff (by decide) (by decide)

theorem isStatusRead_iff : isStatusRead line = true ↔ ReadsStatus line :=
  hasForm_operands_iff (by decide) (by decide)

theorem isPointerWrite_iff : isPointerWrite line = true ↔ WritesHighByte line :=
  hasForm_operands_iff (by decide) (by decide)

theorem isInterruptDisable_iff : isInterruptDisable line = true ↔ DisablesInterrupts line := by
  rw [isInterruptDisable, hasForm_iff]
  constructor
  · rintro ⟨text, hshows, hform⟩
    obtain ⟨tail, hliteral, hend⟩ := (Option.any_eq_true _ _).1 hform
    rw [literal_some hliteral] at hshows
    exact ⟨tail, hend, hshows⟩
  · rintro ⟨tail, hend, hshows⟩
    exact ⟨_, hshows, by rw [literal_append, Option.any_some, hend]⟩

theorem writesPointer_iff {next : List String} :
    writesPointer next = true ↔ WritesPointer next := by
  match next with
  | [] | [_] | [_, _] => simp [writesPointer, WritesPointer]
  | status :: disable :: write :: rest =>
    simp only [writesPointer, WritesPointer, Bool.and_eq_true, isStatusRead_iff,
      isInterruptDisable_iff, isPointerWrite_iff, and_assoc]

theorem highNumber_eq_some_iff {digits : List Char} : highNumber text = some digits ↔
    ∃ (gap gap' : Gap) (number : Immediate), number.amount.chars = digits ∧
      text = ['s', 'b', 'c', 'i'] ++
        (gap.chars ++ (['r', '2', '9', ','] ++ (gap'.chars ++ number.print))) := by
  constructor
  · intro h
    obtain ⟨rest, hmnemonic, h⟩ := Option.bind_eq_some_iff.1 h
    obtain ⟨left, hgap, hnumber⟩ := Option.bind_eq_some_iff.1 h
    obtain ⟨gap, rfl, -⟩ := exists_gap_of_blanks hgap
    obtain ⟨gap', number, rfl, hdigits⟩ := exists_of_registerImmediate hnumber
    exact ⟨gap, gap', number, hdigits, literal_some hmnemonic⟩
  · rintro ⟨gap, gap', number, rfl, rfl⟩
    have hregister : Clear isBlank (['r', '2', '9', ','] ++ (gap'.chars ++ number.print)) :=
      clear_cons (by decide) _
    simp only [highNumber, literal_append, blanks_append gap hregister, Option.bind_eq_bind,
      Option.bind_some, registerImmediate_print]

theorem not_code_of_highNumber (h : highNumber text ≠ none) : startsWithCode text = false := by
  obtain ⟨digits, h⟩ := Option.ne_none_iff_exists'.1 h
  obtain ⟨gap, gap', number, -, rfl⟩ := highNumber_eq_some_iff.1 h
  rfl

theorem highDigits_eq_some_iff {digits : List Char} : highDigits line = some digits ↔
    ∃ number, SubtractsHigh line number ∧ number.amount.chars = digits := by
  constructor
  · intro h
    obtain ⟨⟨address, texts⟩, htexts, h⟩ := Option.bind_eq_some_iff.1 h
    obtain ⟨text, htext, h⟩ := List.exists_of_findSome?_eq_some h
    obtain ⟨gap, gap', number, hdigits, rfl⟩ := highNumber_eq_some_iff.1 h
    exact ⟨number, ⟨gap, gap', shows_iff.2 ⟨address, texts, htexts, htext⟩⟩, hdigits⟩
  · rintro ⟨number, ⟨gap, gap', hshows⟩, hdigits⟩
    have hnumber := highNumber_eq_some_iff.2 ⟨gap, gap', number, hdigits, rfl⟩
    obtain ⟨address, texts, htexts, htext⟩ := shows_iff.1 hshows
    have hfind : texts.findSome? highNumber = some digits := by
      rw [← hnumber]
      apply Shape.findSome?_of_unique htext
      intro text' htext' hfound
      exact hshows.eq rfl (shows_iff.2 ⟨address, texts, htexts, htext'⟩)
        (not_code_of_highNumber hfound)
    rw [highDigits, htexts]
    exact hfind

theorem not_code_of_head {c : Char} (h : isHexDigit c = false) (rest : List Char) :
    startsWithCode (c :: rest) = false := by
  match rest with
  | [] | [_] => rfl
  | low :: next :: _ => rw [startsWithCode, h, Bool.false_and, Bool.false_and]

/-- An instruction that subtracts a number from the high byte does not subtract a mere carry. -/
theorem isCarry_of_subtractsHigh {number : Immediate} (h : SubtractsHigh line number) :
    isCarry line = false := by
  by_contra hcarry
  obtain ⟨text, hshows, hform⟩ := hasForm_iff.1 (Bool.not_eq_false _ ▸ hcarry)
  obtain ⟨rest, rfl⟩ := literal_of_operands hform
  obtain ⟨gap, gap', hshows'⟩ := h
  rw [hshows'.eq rfl hshows rfl] at hform
  cases hform

/-- Reading the status register does not change the high byte. -/
theorem not_high_of_readsStatus (h : ReadsStatus line) :
    isCarry line = false ∧ highDigits line = none := by
  obtain ⟨text, hshows, gap, gap', tail, -, rfl⟩ := h
  have hcode := not_code_of_head (c := 'i') (by decide)
  constructor
  · by_contra hcarry
    rw [Bool.not_eq_false, isCarry_iff] at hcarry
    obtain ⟨text, hshows', gap, gap', tail, -, rfl⟩ := hcarry
    cases hshows.eq (hcode _) hshows' rfl
  · by_contra hhigh
    obtain ⟨digits, hhigh⟩ := Option.ne_none_iff_exists'.1 hhigh
    obtain ⟨number, ⟨gap, gap', hshows'⟩, -⟩ := highDigits_eq_some_iff.1 hhigh
    cases hshows.eq (hcode _) hshows' rfl

/-! ### Putting the amount together -/

/-- Numbers that are subtracted from a high byte can be read. -/
def ReadableHighs (lines : List String) : Prop :=
  ∀ line ∈ lines, ∀ number, SubtractsHigh line number →
    number.amount.chars.length ≤ Numeral.maxDigits

theorem readableHighs_iff {lines : List String} : ReadableHighs lines ↔
    ∀ line ∈ lines, ∀ digits ∈ highDigits line, digits.length ≤ Numeral.maxDigits := by
  refine forall₂_congr fun line _ => ⟨fun h digits hdigits => ?_, fun h number hnumber => ?_⟩
  · obtain ⟨number, hnumber, rfl⟩ := highDigits_eq_some_iff.1 hdigits
    exact h number hnumber
  · exact h _ (highDigits_eq_some_iff.2 ⟨number, hnumber, rfl⟩)

theorem writesPointer_eq_false {next : List String} (h : ¬ WritesPointer next) :
    writesPointer next = false := by
  rwa [← Bool.not_eq_true, writesPointer_iff]

theorem decimal_of_subtractsHigh {next : List String} (hreadable : ReadableHighs next)
    (hline : line ∈ next) {number : Immediate} (h : SubtractsHigh line number) :
    Numeral.decimal number.amount.chars = .ok number.amount.value :=
  decimal_digits (hreadable line hline number h)

theorem amount_of_completes (low : Nat) {next : List String} {high : Nat}
    (h : Completes next high) (hreadable : ReadableHighs next) :
    amount low next = .ok (some (low + 256 * high)) := by
  cases h with
  | low hwrites =>
    match next with
    | status :: disable :: write :: rest =>
      obtain ⟨hcarry, hhigh⟩ := not_high_of_readsStatus hwrites.1
      simp only [amount, hcarry, hhigh, writesPointer_iff.2 hwrites, Bool.false_eq_true, if_false,
        if_true, Nat.mul_zero, Nat.add_zero]
  | carry hcarry hwrites =>
    simp only [amount, isCarry_iff.2 hcarry, writesPointer_iff.2 hwrites, if_true, Nat.mul_zero,
      Nat.add_zero]
  | @high line next number hnumber hwrites =>
    have hdigits := highDigits_eq_some_iff.2 ⟨number, hnumber, rfl⟩
    simp only [amount, isCarry_of_subtractsHigh hnumber, hdigits,
      decimal_of_subtractsHigh hreadable List.mem_cons_self hnumber, writesPointer_iff.2 hwrites,
      Bool.false_eq_true, if_false, if_true, bind, Except.bind, Nat.mul_comm]

theorem amount_of_not_completes (low : Nat) {next : List String}
    (h : ∀ high, ¬ Completes next high) (hreadable : ReadableHighs next) :
    amount low next = .ok none := by
  cases next with
  | nil => rfl
  | cons line next =>
    rw [amount]
    cases hcarry : isCarry line with
    | true =>
      have hwrites : ¬ WritesPointer next := fun hwrites =>
        h 0 (.carry (isCarry_iff.1 hcarry) hwrites)
      simp [writesPointer_eq_false hwrites]
    | false =>
      cases hhigh : highDigits line with
      | none =>
        have hwrites : ¬ WritesPointer (line :: next) := fun hwrites => h 0 (.low hwrites)
        simp [writesPointer_eq_false hwrites]
      | some digits =>
        obtain ⟨number, hnumber, rfl⟩ := highDigits_eq_some_iff.1 hhigh
        have hwrites : ¬ WritesPointer next := fun hwrites =>
          h number.amount.value (.high hnumber hwrites)
        simp only [decimal_of_subtractsHigh hreadable List.mem_cons_self hnumber,
          writesPointer_eq_false hwrites, bind, Except.bind]
        rfl

/-! ### Looking ahead -/

/-- The instruction lines among the lines. -/
def instructions (lines : List String) : List String :=
  lines.filter fun line => (Line.address? line).isSome

theorem nextInstructions_eq_take (count : Nat) (lines : List String) :
    nextInstructions count lines = (instructions lines).take count := by
  induction lines generalizing count with
  | nil => cases count <;> rfl
  | cons line lines ih =>
    cases count with
    | zero => rfl
    | succ count =>
      rw [nextInstructions, instructions, List.filter_cons]
      split
      · rw [List.take_succ_cons, ih count]
        rfl
      · exact ih (count + 1)

/-- Four instructions are enough to tell whether an update is complete. -/
theorem amount_nextInstructions (low : Nat) (lines : List String) :
    amount low (nextInstructions 4 lines) = amount low (instructions lines) := by
  rw [nextInstructions_eq_take]
  match instructions lines with
  | [] | [_] | [_, _] | [_, _, _] | _ :: _ :: _ :: _ :: _ => rfl

theorem readableHighs_instructions {lines : List String} (h : ReadableHighs lines) :
    ReadableHighs (instructions lines) :=
  fun line hline => h line (List.mem_filter.1 hline).1

variable {amount n : Nat}

theorem stackDecrement_eq_ofAmount :
    Operation.stackDecrement amount = ofAmount n ↔ amount = n ∧ amount < signBit := by
  unfold ofAmount
  split
  · simp only [reduceCtorEq, false_iff]
    omega
  · rw [Operation.stackDecrement.injEq]
    omega

theorem stackIncrement_eq_ofAmount :
    Operation.stackIncrement amount = ofAmount n ↔ amount = n ∧ signBit ≤ amount := by
  unfold ofAmount
  split
  · rw [Operation.stackIncrement.injEq]
    omega
  · simp only [reduceCtorEq, false_iff]
    omega

end StackPointer

namespace Line

open StackPointer

variable {config : Config} {line : String} {following : List String} {address : Nat}

/-- The update that starts at a line is the one that the instructions behind it complete. -/
theorem update?_iff_completes (hreadable : ReadableHighs following) {n : Nat} :
    update? config line following = some n ↔
      ∃ low high, operation? config line = some (.stackLow low) ∧
        Completes (instructions following) high ∧ n = low + 256 * high := by
  have hnext := readableHighs_instructions hreadable
  simp only [update?_eq_some_iff, amount_nextInstructions]
  constructor
  · rintro ⟨low, hlow, hamount⟩
    by_cases hcompletes : ∃ high, Completes (instructions following) high
    · obtain ⟨high, hcompletes⟩ := hcompletes
      rw [amount_of_completes low hcompletes hnext] at hamount
      cases hamount
      exact ⟨low, high, hlow, hcompletes, rfl⟩
    · rw [amount_of_not_completes low (not_exists.1 hcompletes) hnext] at hamount
      cases hamount
  · rintro ⟨low, high, hlow, hcompletes, rfl⟩
    exact ⟨low, hlow, amount_of_completes low hcompletes hnext⟩

theorem classifyAt_of_update? {low n : Nat}
    (hline : classify config line = .ok (.instruction address (.stackLow low)))
    (h : update? config line following = some n) :
    classifyAt config line following = .ok (.instruction address (ofAmount n)) := by
  obtain ⟨low', hlow, hamount⟩ := update?_eq_some_iff.1 h
  rw [operation?, hline] at hlow
  cases hlow
  simp only [classifyAt, hline, hamount, bind, Except.bind, pure, Except.pure, Option.map_some,
    Option.getD_some]

theorem classifyAt_of_completes {low : Nat}
    (hline : classify config line = .ok (.instruction address (.stackLow low)))
    (hreadable : ReadableHighs following) {high : Nat}
    (h : Completes (instructions following) high) :
    classifyAt config line following =
      .ok (.instruction address (ofAmount (low + 256 * high))) := by
  have hlow : operation? config line = some (.stackLow low) := by rw [operation?, hline]
  exact classifyAt_of_update? hline
    ((update?_iff_completes hreadable).2 ⟨low, high, hlow, h, rfl⟩)

theorem classifyAt_of_not_completes {low : Nat}
    (hline : classify config line = .ok (.instruction address (.stackLow low)))
    (hreadable : ReadableHighs following)
    (h : ∀ high, ¬ Completes (instructions following) high) :
    classifyAt config line following = .ok (.instruction address .other) := by
  have hnone := amount_of_not_completes low h (readableHighs_instructions hreadable)
  simp only [classifyAt, hline, amount_nextInstructions, hnone, bind, Except.bind, pure,
    Except.pure, Option.map_none, Option.getD_none]

theorem classifyAt_of_ne_stackLow
    (h : ∀ address low, classify config line ≠ .ok (.instruction address (.stackLow low)))
    (following : List String) : classifyAt config line following = classify config line := by
  unfold classifyAt
  cases hline : classify config line with
  | error e => rfl
  | ok found =>
    rw [hline] at h
    cases found with
    | instruction address operation =>
      cases operation with
      | stackLow low => exact absurd rfl (h address low)
      | _ => rfl
    | _ => rfl

/-- A single line never reads as a whole update. -/
theorem shape?_of_classify {operation : Operation}
    (h : classify config line = .ok (.instruction address operation)) :
    operation = .other ∨ operation.shape? ≠ none := by
  have hoperation : operation? config line = some operation := by rw [operation?, h]
  cases htexts : Scan.instruction line.toList with
  | none =>
    rw [classify, classifyBy, htexts] at h
    cases hlabel : label? line.toList with
    | none => rw [hlabel] at h; cases h
    | some label => rw [hlabel] at h; cases h
  | some found =>
    rcases exists_read_of_operation? hoperation htexts with hother | ⟨shape, text, -, hread⟩
    · exact .inl hother
    · right
      rw [Shape.shape?_of_read hread]
      simp

/-- A line reads as an update exactly if it subtracts from the low byte and the instructions
behind it complete an update. -/
theorem classifyAt_eq_update_iff (hreadable : ReadableHighs following) {operation : Operation}
    (hshape : operation.shape? = none) (hother : operation ≠ .other) :
    classifyAt config line following = .ok (.instruction address operation) ↔
      ∃ low high, classify config line = .ok (.instruction address (.stackLow low)) ∧
        Completes (instructions following) high ∧ operation = ofAmount (low + 256 * high) := by
  constructor
  · intro h
    by_cases hline : ∃ address low,
        classify config line = .ok (.instruction address (.stackLow low))
    · obtain ⟨address', low, hline⟩ := hline
      by_cases hcompletes : ∃ high, Completes (instructions following) high
      · obtain ⟨high, hcompletes⟩ := hcompletes
        rw [classifyAt_of_completes hline hreadable hcompletes] at h
        cases h
        exact ⟨low, high, hline, hcompletes, rfl⟩
      · rw [classifyAt_of_not_completes hline hreadable (not_exists.1 hcompletes)] at h
        cases h
        exact absurd rfl hother
    · rw [classifyAt_of_ne_stackLow fun address low hlow => hline ⟨address, low, hlow⟩] at h
      rcases shape?_of_classify h with hsame | hne
      · exact absurd hsame hother
      · exact absurd hshape hne
  · rintro ⟨low, high, hline, hcompletes, rfl⟩
    exact classifyAt_of_completes hline hreadable hcompletes

theorem classifyIndex_eq (config : Config) {lines : List String} {i : Nat} (hi : i < lines.length) :
    classifyIndex config lines i =
      (classifyAt config lines[i] (lines.drop (i + 1))).mapError .numeral := by
  have hlook : lookAhead lines i = some (lines[i], lines.drop (i + 1)) := by
    have hnonneg : ¬ (i : Int) < 0 := by omega
    simp only [lookAhead, if_neg hnonneg, Int.toNat_natCast, List.drop_eq_getElem_cons hi]
  rw [classifyIndex, hlook]

theorem classifyIndex_eq_ok_iff (config : Config) {lines : List String} {i : Nat}
    (hi : i < lines.length) {found : Line} :
    classifyIndex config lines i = .ok found ↔
      classifyAt config lines[i] (lines.drop (i + 1)) = .ok found := by
  rw [classifyIndex_eq config hi]
  cases classifyAt config lines[i] (lines.drop (i + 1)) with
  | error e =>
    constructor
    · intro h
      cases h
    · intro h
      cases h
  | ok line =>
    constructor
    · intro h
      exact congrArg _ (Except.ok.inj h)
    · intro h
      exact congrArg _ (Except.ok.inj h)

/-- An index reads as an update exactly if its line subtracts from the low byte and the
instructions behind it complete an update. A subtraction that is not completed is without effect,
and any other line reads as it does by itself. -/
theorem classifyIndex_update (config : Config) {lines : List String} {i : Nat}
    (hi : i < lines.length) (hreadable : ReadableHighs (lines.drop (i + 1))) :
    (∀ address amount,
      classifyIndex config lines i = .ok (.instruction address (.stackDecrement amount)) ↔
        ∃ low high, classify config lines[i] = .ok (.instruction address (.stackLow low)) ∧
          Completes (instructions (lines.drop (i + 1))) high ∧ amount = low + 256 * high ∧
            amount < 0x8000) ∧
    (∀ address amount,
      classifyIndex config lines i = .ok (.instruction address (.stackIncrement amount)) ↔
        ∃ low high, classify config lines[i] = .ok (.instruction address (.stackLow low)) ∧
          Completes (instructions (lines.drop (i + 1))) high ∧ amount = low + 256 * high ∧
            0x8000 ≤ amount) ∧
    (∀ address low, classify config lines[i] = .ok (.instruction address (.stackLow low)) →
      (∀ high, ¬ Completes (instructions (lines.drop (i + 1))) high) →
        classifyIndex config lines i = .ok (.instruction address .other)) ∧
    ((∀ address low, classify config lines[i] ≠ .ok (.instruction address (.stackLow low))) →
      classifyIndex config lines i = (classify config lines[i]).mapError .numeral) := by
  refine ⟨fun address amount => ?_, fun address amount => ?_, fun address low hline hopen => ?_,
    fun hne => ?_⟩
  · rw [classifyIndex_eq_ok_iff config hi, classifyAt_eq_update_iff hreadable rfl (by simp)]
    simp only [stackDecrement_eq_ofAmount, signBit]
  · rw [classifyIndex_eq_ok_iff config hi, classifyAt_eq_update_iff hreadable rfl (by simp)]
    simp only [stackIncrement_eq_ofAmount, signBit]
  · rw [classifyIndex_eq_ok_iff config hi]
    exact classifyAt_of_not_completes hline hreadable hopen
  · rw [classifyIndex_eq config hi, classifyAt_of_ne_stackLow hne]

/-- An update with source text and a label among its instructions. -/
def interruptedUpdate : List String :=
  ["  100:\tc0 51\tsubi\tr28, 0x10\t; 16", "  char buffer[1040];",
   "  102:\td4 40\tsbci\tr29, 0x04\t; 4", "  104:\t0f b6\tin\tr0, 0x3f\t; 63",
   "00000106 <inner>:", "  106:\tf8 94\tcli", "  108:\tde bf\tout\t0x3e, r29\t; 62"]

theorem completes_interruptedUpdate :
    Completes (instructions (interruptedUpdate.drop (0 + 1))) 4 := by
  have hhigh : highDigits "  102:\td4 40\tsbci\tr29, 0x04\t; 4" = some ['4'] := by decide +kernel
  obtain ⟨number, hnumber, hdigits⟩ := highDigits_eq_some_iff.1 hhigh
  have hvalue : number.amount.value = 4 := by
    rw [Digits.value, hdigits]
    decide +kernel
  have hinstructions : instructions (interruptedUpdate.drop (0 + 1)) =
      ["  102:\td4 40\tsbci\tr29, 0x04\t; 4", "  104:\t0f b6\tin\tr0, 0x3f\t; 63",
        "  106:\tf8 94\tcli", "  108:\tde bf\tout\t0x3e, r29\t; 62"] := by decide +kernel
  rw [hinstructions, ← hvalue]
  exact .high hnumber (writesPointer_iff.1 (by decide +kernel))

/-- The update is recognised across the label. -/
theorem classifyIndex_update_interrupted :
    ReadableHighs (interruptedUpdate.drop (0 + 1)) ∧
      classifyIndex {} interruptedUpdate 0 =
        .ok (.instruction 0x100 (.stackDecrement 1040)) := by
  have hreadable : ReadableHighs (interruptedUpdate.drop (0 + 1)) :=
    readableHighs_iff.2 (by decide +kernel)
  refine ⟨hreadable, ?_⟩
  apply ((classifyIndex_update {} (by decide) hreadable).1 0x100 1040).2
  exact ⟨16, 4, by decide +kernel, completes_interruptedUpdate, rfl, by decide⟩

end Line
end StackDepth
