import StackDepth.Proofs.Listing.LookAhead

/-!
# The readings of an instruction

The operation of an instruction line is looked for behind two, three or four bytes of machine code,
so that a line can have several readings. All but one of them begin with a byte of machine code,
and no mnemonic that matters here does. Hence a line that belongs to a stack pointer update behind
its first instruction is nothing else: it begins no update, and it calls no helper.
-/
namespace StackDepth

open Text

namespace Scan

def startsWithByte : List Char → Bool
  | high :: low :: _ => isHexDigit high && isHexDigit low
  | _ => false

theorem codeBytes_succ (count : Nat) (cs : List Char) :
    codeBytes (count + 1) cs = (codeBytes count cs).bind codeByte := by
  induction count generalizing cs with
  | zero => cases h : codeByte cs <;> simp [codeBytes, h]
  | succ count ih =>
    rw [codeBytes]
    cases h : codeByte cs with
    | none => simp [codeBytes, h]
    | some rest => simp [codeBytes, h, ← ih]

theorem codeBytes_none_of_le {count more : Nat} {cs : List Char} (h : codeBytes count cs = none)
    (hle : count ≤ more) : codeBytes more cs = none := by
  induction hle with
  | refl => exact h
  | step _ ih => rw [codeBytes_succ, ih, Option.bind_none]

/-- A byte of machine code and a blank behind it. -/
def startsWithCode : List Char → Bool
  | high :: low :: next :: _ => isHexDigit high && isHexDigit low && isBlank next
  | _ => false

theorem startsWithByte_of_code {text : List Char} (h : startsWithCode text = true) :
    startsWithByte text = true := by
  unfold startsWithCode at h
  split at h
  · exact (Bool.and_eq_true_iff.1 h).1
  · cases h

theorem codeByte_of_no_blanks {cs : List Char} (h : blanks cs = none) : codeByte cs = none := by
  rw [codeByte, h]
  rfl

theorem blanks_of_not_blank {c : Char} (h : isBlank c = false) (cs : List Char) :
    blanks (c :: cs) = none := by
  simp [blanks, run, h]

theorem codeByte_of_blanks {cs rest : List Char} {high low : Char}
    (h : blanks cs = some (high :: low :: rest)) :
    codeByte cs = if isHexDigit high && isHexDigit low then some rest else none := by
  rw [codeByte, h]
  rfl

/-- Behind a byte of machine code there is another reading only if a blank follows it. -/
theorem blanks_behind_codeByte {cs text : List Char} (h : blanks cs = some text)
    (hcode : startsWithCode text = false) : (codeByte cs).bind blanks = none := by
  match text with
  | [] | [_] =>
    rw [codeByte, h]
    rfl
  | high :: low :: rest =>
    rw [codeByte_of_blanks h]
    by_cases hbyte : (isHexDigit high && isHexDigit low) = true
    · rw [if_pos hbyte, Option.bind_some]
      cases rest with
      | nil => rfl
      | cons next rest =>
        rw [startsWithCode, hbyte, Bool.true_and] at hcode
        exact blanks_of_not_blank hcode rest
    · rw [if_neg hbyte, Option.bind_none]

/-- Where no operation can begin, no more bytes of machine code can be read. -/
theorem codeBytes_none_of_lt {count more : Nat} {cs : List Char}
    (h : (codeBytes count cs).bind blanks = none) (hlt : count < more) :
    codeBytes more cs = none := by
  have hnext : codeBytes (count + 1) cs = none := by
    rw [codeBytes_succ]
    cases hrest : codeBytes count cs with
    | none => rfl
    | some rest =>
      rw [hrest, Option.bind_some] at h
      rw [Option.bind_some, codeByte_of_no_blanks h]
  exact codeBytes_none_of_le hnext hlt

/-- Behind more bytes than a reading that does not begin with machine code there is no other. -/
theorem no_reading_of_lt {count more : Nat} {cs text : List Char}
    (h : (codeBytes count cs).bind blanks = some text) (hcode : startsWithCode text = false)
    (hlt : count < more) : (codeBytes more cs).bind blanks = none := by
  have hnext : (codeBytes (count + 1) cs).bind blanks = none := by
    obtain ⟨rest, hrest, htext⟩ := Option.bind_eq_some_iff.1 h
    rw [codeBytes_succ, hrest, Option.bind_some, blanks_behind_codeByte htext hcode]
  rcases Nat.lt_or_eq_of_le (Nat.succ_le_of_lt hlt) with hmore | rfl
  · rw [codeBytes_none_of_lt hnext hmore, Option.bind_none]
  · exact hnext

/-- At most one reading does not begin with machine code. -/
theorem eq_or_startsWithCode {cs text other : List Char} (h : text ∈ operations cs)
    (hcode : startsWithCode text = false) (hother : other ∈ operations cs) :
    other = text ∨ startsWithCode other = true := by
  obtain ⟨count, -, hcount⟩ := List.mem_filterMap.1 h
  obtain ⟨count', -, hcount'⟩ := List.mem_filterMap.1 hother
  rcases Nat.lt_trichotomy count count' with hlt | rfl | hlt
  · rw [no_reading_of_lt hcount hcode hlt] at hcount'
    cases hcount'
  · rw [hcount, Option.some.injEq] at hcount'
    exact .inl hcount'.symm
  · right
    by_contra hne
    rw [no_reading_of_lt hcount' (by simpa using hne) hlt] at hcount
    cases hcount

/-- The reading with the most bytes of machine code is the only one that begins with none. -/
theorem eq_of_mem_operations {cs text other : List Char} (h : text ∈ operations cs)
    (hbyte : startsWithByte text = false) (hother : other ∈ operations cs) :
    other = text ∨ startsWithByte other = true := by
  have hcode : startsWithCode text = false := by
    by_contra hne
    rw [startsWithByte_of_code (by simpa using hne)] at hbyte
    cases hbyte
  exact (eq_or_startsWithCode h hcode hother).imp_right startsWithByte_of_code

theorem exists_operations_of_instruction {cs : List Char} {address : Nat}
    {texts : List (List Char)} (h : instruction cs = some (address, texts)) :
    ∃ rest, texts = operations rest := by
  obtain ⟨⟨n, rest⟩, -, h⟩ := Option.bind_eq_some_iff.1 h
  simp only at h
  split at h
  · cases h
  · cases h
    exact ⟨rest, rfl⟩

end Scan

def Operation.shape? : Operation → Option Shape
  | push => some .push
  | pop => some .pop
  | selfCall => some .selfCall
  | registerSave _ => some .registerSave
  | registerRestore _ => some .registerRestore
  | call _ => some .call
  | frameLoad _ _ => some .frameLoad
  | stackLow _ => some .stackLow
  | jump _ _ _ => some .jump
  | stackDecrement _ | stackIncrement _ | other => none

namespace Shape

open Scan

variable {config : Config} {shape : Shape} {text : List Char} {operation : Operation}

theorem exists_of_map_ok {ε α β : Type} {f : α → β} {x : Except ε α} {b : β}
    (h : x.map f = .ok b) : ∃ a, f a = b := by
  cases x with
  | error e => cases h
  | ok a => exact ⟨a, Except.ok.inj h⟩

theorem shape?_of_read (h : shape.read config text = some (.ok operation)) :
    operation.shape? = some shape := by
  cases shape with
  | push | pop =>
    obtain ⟨_, -, h⟩ := Option.bind_eq_some_iff.1 h
    obtain ⟨_, -, h⟩ := Option.bind_eq_some_iff.1 h
    cases h
    rfl
  | selfCall =>
    obtain ⟨_, -, h⟩ := Option.bind_eq_some_iff.1 h
    obtain ⟨_, -, h⟩ := Option.bind_eq_some_iff.1 h
    obtain ⟨_, -, h⟩ := Option.bind_eq_some_iff.1 h
    split at h
    · cases h
    · cases h
      rfl
  | registerSave | registerRestore =>
    obtain ⟨_, -, h⟩ := Option.bind_eq_some_iff.1 h
    cases h
    rfl
  | call =>
    obtain ⟨_, -, h⟩ := Option.bind_eq_some_iff.1 h
    obtain ⟨_, -, h⟩ := Option.bind_eq_some_iff.1 h
    cases h
    rfl
  | frameLoad =>
    obtain ⟨_, -, h⟩ := Option.bind_eq_some_iff.1 h
    obtain ⟨_, -, h⟩ := Option.bind_eq_some_iff.1 h
    obtain ⟨_, -, h⟩ := Option.bind_eq_some_iff.1 h
    obtain ⟨_, -, h⟩ := Option.bind_eq_some_iff.1 h
    obtain ⟨_, rfl⟩ := exists_of_map_ok (Option.some.inj h)
    rfl
  | stackLow =>
    obtain ⟨_, -, h⟩ := Option.bind_eq_some_iff.1 h
    obtain ⟨_, -, h⟩ := Option.bind_eq_some_iff.1 h
    obtain ⟨_, rfl⟩ := exists_of_map_ok (Option.some.inj h)
    rfl
  | jump =>
    obtain ⟨_, -, h⟩ := Option.bind_eq_some_iff.1 h
    obtain ⟨_, -, h⟩ := Option.bind_eq_some_iff.1 h
    obtain ⟨_, -, h⟩ := Option.bind_eq_some_iff.1 h
    obtain ⟨_, -, h⟩ := Option.bind_eq_some_iff.1 h
    obtain ⟨_, -, h⟩ := Option.bind_eq_some_iff.1 h
    cases h
    rfl

theorem afterJump_of_byte (h : startsWithByte text = true) : afterJump text = none := by
  unfold afterJump
  split
  · cases h
  · cases h
  · rfl

theorem afterSubtract_of_byte (h : startsWithByte text = true) : afterSubtract text = none := by
  cases hsome : afterSubtract text with
  | none => rfl
  | some rest =>
    obtain ⟨tail, hliteral, -⟩ := Option.bind_eq_some_iff.1 hsome
    rw [literal_some hliteral] at h
    cases tail <;> cases h

/-- What stands behind the mnemonic of a text of the given shape. -/
def behindMnemonic (shape : Shape) (cs : List Char) : Option (List Char) :=
  match shape with
  | .push => literal ['p', 'u', 's', 'h'] cs
  | .pop => literal ['p', 'o', 'p'] cs
  | .selfCall => literal ['r', 'c', 'a', 'l', 'l'] cs
  | .registerSave | .registerRestore | .jump => afterJump cs
  | .call => afterCall cs
  | .frameLoad => literal ['l', 'd', 'i'] cs
  | .stackLow => afterSubtract cs

theorem read_of_no_mnemonic (config : Config) {shape : Shape} {text : List Char}
    (h : shape.behindMnemonic text = none) : shape.read config text = none := by
  cases shape with
  | registerSave | registerRestore =>
    have hjump : afterJump text = none := h
    simp [read, helperJump, hjump]
  | push | pop | selfCall | call | frameLoad | stackLow | jump =>
    simp only [behindMnemonic] at h
    simp [read, h]

theorem literal_of_byte {word text : List Char} (hword : word.head?.any isHexDigit = false)
    (hne : word ≠ []) (h : startsWithByte text = true) : literal word text = none := by
  match word, text with
  | w :: word, high :: low :: rest =>
    have hhigh : isHexDigit high = true := (Bool.and_eq_true_iff.1 h).1
    have hw : w ≠ high := by
      rintro rfl
      simp [hhigh] at hword
    rw [literal, if_neg hw]

/-- No mnemonic but that of a call can be taken for machine code. -/
theorem behindMnemonic_of_byte {shape : Shape} (hshape : shape ≠ .call) {text : List Char}
    (h : startsWithByte text = true) : shape.behindMnemonic text = none := by
  cases shape with
  | call => exact absurd rfl hshape
  | registerSave | registerRestore | jump => exact afterJump_of_byte h
  | stackLow => exact afterSubtract_of_byte h
  | push | pop | selfCall | frameLoad => exact literal_of_byte (by decide) (by decide) h

end Shape

namespace Line

variable {config : Config} {line : String} {address : Nat} {texts : List (List Char)}
variable {operation : Operation}

theorem exists_read_of_operation? (h : operation? config line = some operation)
    (htexts : Scan.instruction line.toList = some (address, texts)) :
    operation = .other ∨
      ∃ shape : Shape, ∃ text ∈ texts, shape.read config text = some (.ok operation) := by
  unfold operation? classify classifyBy at h
  rw [htexts] at h
  split at h
  · rename_i hread
    split at hread
    · cases hread
    · simp only at hread
      cases hfind : Shape.table.findSome? (Shape.find config texts) with
      | none =>
        rw [hfind] at hread
        cases hread
        cases h
        exact .inl rfl
      | some result =>
        rw [hfind] at hread
        obtain ⟨shape, -, hshape⟩ := List.exists_of_findSome?_eq_some hfind
        obtain ⟨text, htext, hresult⟩ := List.exists_of_findSome?_eq_some hshape
        cases h
        cases result with
        | error e => cases hread
        | ok found =>
          cases hread
          exact .inr ⟨shape, text, htext, hresult⟩
  · cases h

end Line

namespace StackPointer

open Scan

/-- The line can stand in an update between its first and its last instruction. -/
def isPart (line : String) : Bool :=
  isCarry line || (highDigits line).isSome || isStatusRead line || isInterruptDisable line

/-- How such lines begin. -/
def partWords : List (List Char) := [['s', 'b', 'c'], ['i', 'n'], ['c', 'l', 'i']]

theorem exists_text_of_hasForm {form : List Char → Bool} {line : String}
    (h : hasForm form line = true) :
    ∃ address texts, Scan.instruction line.toList = some (address, texts) ∧
      ∃ text ∈ texts, form text = true := by
  unfold hasForm at h
  split at h
  · cases h
  · rename_i address texts htexts
    exact ⟨address, texts, htexts, List.any_eq_true.1 h⟩

theorem literal_of_operands {mnemonic first second text : List Char}
    (h : operands mnemonic first second text = true) : ∃ rest, text = mnemonic ++ rest := by
  obtain ⟨_, h⟩ := Option.isSome_iff_exists.1 h
  obtain ⟨rest, hliteral, -⟩ := Option.bind_eq_some_iff.1 h
  exact ⟨rest, literal_some hliteral⟩

theorem exists_partWord {line : String} (h : isPart line = true) :
    ∃ address texts, Scan.instruction line.toList = some (address, texts) ∧
      ∃ word ∈ partWords, ∃ rest, word ++ rest ∈ texts := by
  simp only [isPart, Bool.or_eq_true] at h
  rcases h with ((h | h) | h) | h
  · obtain ⟨address, texts, htexts, text, htext, hform⟩ := exists_text_of_hasForm h
    obtain ⟨rest, rfl⟩ := literal_of_operands hform
    exact ⟨address, texts, htexts, ['s', 'b', 'c'], by decide, rest, htext⟩
  · obtain ⟨digits, h⟩ := Option.isSome_iff_exists.1 h
    obtain ⟨⟨address, texts⟩, htexts, h⟩ := Option.bind_eq_some_iff.1 h
    obtain ⟨text, htext, h⟩ := List.exists_of_findSome?_eq_some h
    obtain ⟨rest, hliteral, -⟩ := Option.bind_eq_some_iff.1 h
    rw [literal_some hliteral] at htext
    exact ⟨address, texts, htexts, ['s', 'b', 'c'], by decide, 'i' :: rest, htext⟩
  · obtain ⟨address, texts, htexts, text, htext, hform⟩ := exists_text_of_hasForm h
    obtain ⟨rest, rfl⟩ := literal_of_operands hform
    exact ⟨address, texts, htexts, ['i', 'n'], by decide, rest, htext⟩
  · obtain ⟨address, texts, htexts, text, htext, hform⟩ := exists_text_of_hasForm h
    obtain ⟨rest, hliteral⟩ : ∃ rest, literal ['c', 'l', 'i'] text = some rest := by
      cases hliteral : literal ['c', 'l', 'i'] text with
      | none => simp [hliteral] at hform
      | some rest => exact ⟨rest, rfl⟩
    rw [literal_some hliteral] at htext
    exact ⟨address, texts, htexts, ['c', 'l', 'i'], by decide, rest, htext⟩

/-- How the instructions of an update behind the first one begin. -/
def laterWords : List (List Char) := ['o', 'u', 't'] :: partWords

theorem laterWord_inert {word : List Char} (h : word ∈ laterWords) (rest : List Char) :
    startsWithByte (word ++ rest) = false ∧
      ∀ shape : Shape, shape.behindMnemonic (word ++ rest) = none := by
  simp only [laterWords, partWords, List.mem_cons, List.not_mem_nil, or_false] at h
  rcases h with rfl | rfl | rfl | rfl
  all_goals
    refine ⟨rfl, ?_⟩
    intro shape
    cases shape <;> rfl

/-- The line can stand in an update behind its first instruction. -/
def isLater (line : String) : Bool := isPart line || isPointerWrite line

theorem exists_laterWord {line : String} (h : isLater line = true) :
    ∃ address texts, Scan.instruction line.toList = some (address, texts) ∧
      ∃ word ∈ laterWords, ∃ rest, word ++ rest ∈ texts := by
  rcases Bool.or_eq_true_iff.1 h with h | h
  · obtain ⟨address, texts, htexts, word, hword, hrest⟩ := exists_partWord h
    exact ⟨address, texts, htexts, word, List.mem_cons_of_mem _ hword, hrest⟩
  · obtain ⟨address, texts, htexts, text, htext, hform⟩ := exists_text_of_hasForm h
    obtain ⟨rest, rfl⟩ := literal_of_operands hform
    exact ⟨address, texts, htexts, ['o', 'u', 't'], List.mem_cons_self, rest, htext⟩

theorem read_of_isLater (config : Config) {line : String} {address : Nat}
    {texts : List (List Char)} (h : isLater line = true)
    (htexts : Scan.instruction line.toList = some (address, texts)) {text : List Char}
    (htext : text ∈ texts) {shape : Shape} (hshape : shape ≠ .call) :
    shape.read config text = none := by
  obtain ⟨address', texts', htexts', word, hword, rest, hmem⟩ := exists_laterWord h
  rw [htexts, Option.some.injEq, Prod.mk.injEq] at htexts'
  obtain ⟨-, rfl⟩ := htexts'
  obtain ⟨tail, rfl⟩ := exists_operations_of_instruction htexts
  obtain ⟨hbyte, hnone⟩ := laterWord_inert hword rest
  apply Shape.read_of_no_mnemonic
  rcases eq_of_mem_operations hmem hbyte htext with rfl | hbyte
  · exact hnone shape
  · exact Shape.behindMnemonic_of_byte hshape hbyte

/-- A later instruction of an update is nothing else, except that it may read as a call. -/
theorem operation?_of_isLater {config : Config} {line : String} {operation : Operation}
    (h : isLater line = true) (hoperation : Line.operation? config line = some operation) :
    operation = .other ∨ operation.shape? = some .call := by
  obtain ⟨address, texts, htexts, -⟩ := exists_laterWord h
  rcases Line.exists_read_of_operation? hoperation htexts with hother | ⟨shape, text, htext, hread⟩
  · exact .inl hother
  · right
    by_contra hne
    have hshape : shape ≠ .call := by
      rintro rfl
      exact hne (Shape.shape?_of_read hread)
    rw [read_of_isLater config h htexts htext hshape] at hread
    cases hread

/-- A later part of an update is neither the beginning of one nor a jump to the register-save
helper. -/
theorem operation?_of_isPart {config : Config} {line : String} {operation : Operation}
    (h : isPart line = true) (hoperation : Line.operation? config line = some operation) :
    operation.shape? ≠ some .registerSave ∧ operation.shape? ≠ some .stackLow ∧
      ∀ amount, operation ≠ .stackDecrement amount := by
  have hlater : isLater line = true := by rw [isLater, h, Bool.true_or]
  rcases operation?_of_isLater hlater hoperation with rfl | hcall
  · simp [Operation.shape?]
  · refine ⟨by simp [hcall], by simp [hcall], ?_⟩
    rintro amount rfl
    cases hcall

/-! ### Updates that stay open -/

theorem writesPointer_open {next more : List String} (hbegins : next <+: more)
    (hnext : writesPointer next = false) (hmore : writesPointer more = true) :
    next.length ≤ 2 ∧ ∀ line ∈ next, isPart line = true := by
  obtain ⟨tail, rfl⟩ := hbegins
  match next with
  | [] => simp
  | [a] =>
    match tail with
    | b :: c :: _ =>
      simp only [List.singleton_append, writesPointer, Bool.and_eq_true] at hmore
      simp [isPart, hmore]
  | [a, b] =>
    match tail with
    | c :: _ =>
      simp only [List.cons_append, List.nil_append, writesPointer, Bool.and_eq_true] at hmore
      simp [isPart, hmore]
  | a :: b :: c :: rest =>
    have hsame : writesPointer (a :: b :: c :: rest) = true := hmore
    rw [hnext] at hsame
    cases hsame

/-- If more instructions complete an update, all that there were before are parts of it. -/
theorem amount_open {low amount : Nat} {next more : List String} (hbegins : next <+: more)
    (hnext : StackPointer.amount low next = .ok none)
    (hmore : StackPointer.amount low more = .ok (some amount)) :
    next.length ≤ 3 ∧ ∀ line ∈ next, isPart line = true := by
  obtain ⟨tail, rfl⟩ := hbegins
  cases next with
  | nil => simp
  | cons first rest =>
    have hrest : isPart first = true → writesPointer rest = false →
        writesPointer (rest ++ tail) = true →
        (first :: rest).length ≤ 3 ∧ ∀ line ∈ first :: rest, isPart line = true := by
      intro hfirst hfalse htrue
      obtain ⟨hlength, hparts⟩ := writesPointer_open (List.prefix_append rest tail) hfalse htrue
      exact ⟨Nat.succ_le_succ hlength, List.forall_mem_cons.2 ⟨hfirst, hparts⟩⟩
    rw [List.cons_append, StackPointer.amount] at hmore
    rw [StackPointer.amount] at hnext
    cases hcarry : isCarry first with
    | true =>
      simp only [hcarry, if_true] at hnext hmore
      have hwrites : writesPointer (rest ++ tail) = true ∧ low = amount := by simpa using hmore
      exact hrest (by simp [isPart, hcarry]) (by simpa using hnext) hwrites.1
    | false =>
      simp only [hcarry, Bool.false_eq_true, if_false] at hnext hmore
      cases hdigits : highDigits first with
      | none =>
        simp only [hdigits] at hnext hmore
        have hwrites : writesPointer (first :: (rest ++ tail)) = true ∧ low = amount := by
          simpa using hmore
        have hopen := writesPointer_open (List.prefix_append (first :: rest) tail)
          (by simpa using hnext) hwrites.1
        exact ⟨Nat.le_succ_of_le hopen.1, hopen.2⟩
      | some digits =>
        simp only [hdigits, bind, Except.bind] at hnext hmore
        cases hhigh : Numeral.decimal digits with
        | error e => rw [hhigh] at hnext; cases hnext
        | ok high =>
          simp only [hhigh] at hnext hmore
          have hwrites : writesPointer (rest ++ tail) = true ∧ low + high * 256 = amount := by
            simpa using hmore
          exact hrest (by simp [isPart, hdigits]) (by simpa using hnext) hwrites.1

theorem mem_nextInstructions {count : Nat} {lines : List String}
    (h : (nextInstructions count lines).length < count) {line : String} (hline : line ∈ lines)
    (haddress : (Line.address? line).isSome = true) : line ∈ nextInstructions count lines := by
  induction lines generalizing count with
  | nil => cases hline
  | cons first rest ih =>
    cases count with
    | zero => cases h
    | succ count =>
      rw [nextInstructions] at h ⊢
      by_cases hfirst : (Line.address? first).isSome = true
      · rw [if_pos hfirst] at h ⊢
        rcases List.mem_cons.1 hline with rfl | hline
        · exact List.mem_cons_self
        · exact List.mem_cons_of_mem _ (ih (Nat.lt_of_succ_lt_succ h) hline)
      · rw [if_neg hfirst] at h ⊢
        rcases List.mem_cons.1 hline with rfl | hline
        · exact absurd haddress hfirst
        · exact ih h hline

/-- The instructions up to a label at which a decrement is open are parts of it. -/
theorem isPart_of_open {low amount : Nat} {following : List String}
    (hwhole : operation? low following = some (.stackDecrement amount))
    (hopen : operation? low (untilLabel following) = some .other) {line : String}
    (hline : line ∈ untilLabel following) (haddress : (Line.address? line).isSome = true) :
    isPart line = true := by
  have hnext : StackPointer.amount low (nextInstructions 4 (untilLabel following)) = .ok none := by
    unfold operation? at hopen
    split at hopen
    · rename_i found hfound
      cases found with
      | none => exact hfound
      | some n =>
        simp only [Option.map_some, Option.getD_some, ofAmount, Option.some.injEq] at hopen
        split at hopen <;> cases hopen
    · cases hopen
  obtain ⟨n, hmore⟩ : ∃ n, StackPointer.amount low (nextInstructions 4 following) =
      .ok (some n) := by
    unfold operation? at hwhole
    split at hwhole
    · rename_i found hfound
      cases found with
      | none => cases hwhole
      | some n => exact ⟨n, hfound⟩
    · cases hwhole
  obtain ⟨hlength, hparts⟩ :=
    amount_open (nextInstructions_mono 4 (isPrefix_untilLabel following)) hnext hmore
  exact hparts line (mem_nextInstructions (Nat.lt_succ_of_le hlength) hline haddress)

end StackPointer
end StackDepth
