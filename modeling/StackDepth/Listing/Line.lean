import StackDepth.Config
import StackDepth.Listing.Scan

/-!
# Lines of a disassembly listing

A listing holds function labels, instruction lines and, between them, lines of source text.
`Line.classify` reads one line by itself. The operations of interest are given by a table of
shapes that is searched in order, and a line takes the first shape that it has.
-/
namespace StackDepth

open Text

/-- A register that holds one byte of a frame size. -/
inductive FrameRegister where
  /-- The low byte. -/
  | r26
  /-- The high byte. -/
  | r27
deriving DecidableEq, Repr

/-- What an instruction does, as far as the stack is concerned. -/
inductive Operation where
  | push
  | pop
  /-- A call to the next instruction, which only pushes a return address. -/
  | selfCall
  /-- A jump into the register-save helper, perhaps past its start. -/
  | registerSave (offset : Option Nat)
  /-- A jump into the register-restore helper, perhaps past its start. -/
  | registerRestore (offset : Option Nat)
  | call (target : Nat)
  /-- A byte of a frame size on its way to the register-save helper. -/
  | frameLoad (register : FrameRegister) (amount : Nat)
  /-- A subtraction from the low byte of the frame pointer, which may begin a stack pointer
  update. -/
  | stackLow (amount : Nat)
  /-- A stack pointer update that reserves stack. -/
  | stackDecrement (amount : Nat)
  /-- A stack pointer update by a negative amount, which releases stack. -/
  | stackIncrement (amount : Nat)
  | jump (target : Nat) (name : String) (offset : Option Nat)
  | other
deriving DecidableEq, Repr

inductive Line where
  | label (address : Nat) (name : String)
  | instruction (address : Nat) (operation : Operation)
  /-- Anything else, such as interleaved source text. -/
  | text
deriving DecidableEq, Repr

/-- The shapes of single instructions that the analysis tells apart. -/
inductive Shape where
  | push
  | pop
  | selfCall
  | registerSave
  | registerRestore
  | call
  | frameLoad
  | stackLow
  | jump
deriving DecidableEq, Repr

namespace Shape

open Scan

/-- A register operand and nothing behind it. -/
def registerOnly (cs : List Char) : Option Unit := do
  let rest ← blanks cs
  let rest ← literal ['r'] rest
  let (_, rest) ← run isDigit rest
  if rest.all isBlank then some () else none

/-- The operand of a jump, absolute or relative. -/
def afterJump (cs : List Char) : Option (List Char) :=
  match cs with
  | 'r' :: 'j' :: 'm' :: 'p' :: rest => blanks rest
  | 'j' :: 'm' :: 'p' :: rest => blanks rest
  | _ => none

/-- The operand of a call, absolute or relative. -/
def afterCall (cs : List Char) : Option (List Char) :=
  match cs with
  | 'r' :: 'c' :: 'a' :: 'l' :: 'l' :: rest => blanks rest
  | 'c' :: 'a' :: 'l' :: 'l' :: rest => blanks rest
  | _ => none

/-- The operand of a subtraction of an immediate, byte or word. -/
def afterSubtract (cs : List Char) : Option (List Char) := do
  let rest ← literal ['s'] cs
  let rest := (literal ['u'] rest).getD rest
  let rest ← literal ['b', 'i'] rest
  blanks ((literal ['w'] rest).getD rest)

/-- A jump to a helper, with the distance from its start. -/
def helperJump (helper : String) (cs : List Char) : Option (Option Nat) := do
  let rest ← afterJump cs
  let (_, rest) ← target rest
  let rest ← blanks rest
  let rest ← literal ('<' :: helper.toList) rest
  symbolEnd rest

/-- The immediate that the instruction takes besides the given register. -/
def registerImmediate (register : List Char) (cs : List Char) : Option (List Char) := do
  let rest ← literal register cs
  immediate (← blanks rest)

def frameRegister (cs : List Char) : Option (FrameRegister × List Char) :=
  match cs with
  | 'r' :: '2' :: '6' :: rest => some (.r26, rest)
  | 'r' :: '2' :: '7' :: rest => some (.r27, rest)
  | _ => none

/-- The operation that a text of the given shape stands for. Nothing means that the text does not
have the shape; an error, that its immediate is too long a numeral. -/
def read (config : Config) (shape : Shape) (cs : List Char) :
    Option (Except NumeralError Operation) :=
  match shape with
  | .push => do
    registerOnly (← literal ['p', 'u', 's', 'h'] cs)
    some (.ok .push)
  | .pop => do
    registerOnly (← literal ['p', 'o', 'p'] cs)
    some (.ok .pop)
  | .selfCall => do
    let rest ← blanks (← literal ['r', 'c', 'a', 'l', 'l'] cs)
    let rest ← literal ['.', '+', '0'] rest
    if rest.head?.any isDigit then none else some (.ok .selfCall)
  | .registerSave => do
    some (.ok (.registerSave (← helperJump config.prologueHelper cs)))
  | .registerRestore => do
    some (.ok (.registerRestore (← helperJump config.epilogueHelper cs)))
  | .call => do
    let (address, _) ← target (← afterCall cs)
    some (.ok (.call address))
  | .frameLoad => do
    let rest ← blanks (← literal ['l', 'd', 'i'] cs)
    let (register, rest) ← frameRegister rest
    let digits ← registerImmediate [','] rest
    some ((Numeral.decimal digits).map (.frameLoad register))
  | .stackLow => do
    let digits ← registerImmediate ['r', '2', '8', ','] (← afterSubtract cs)
    some ((Numeral.decimal digits).map .stackLow)
  | .jump => do
    let (address, rest) ← target (← afterJump cs)
    let rest ← literal ['<'] (skipBlanks rest)
    let (name, rest) ← run isSymbolChar rest
    let offset ← symbolEnd rest
    some (.ok (.jump address (String.ofList name) offset))

/-- The order in which the shapes are tried. -/
def table : List Shape :=
  [.push, .pop, .selfCall, .registerSave, .registerRestore, .call, .frameLoad, .stackLow, .jump]

/-- The reading of an instruction, given the texts that can be its operation. -/
def find (config : Config) (texts : List (List Char)) (shape : Shape) :
    Option (Except NumeralError Operation) :=
  texts.findSome? (shape.read config)

end Shape

namespace Line

open Scan

/-- Reads a function label: its address and its name. -/
def label? (cs : List Char) : Option (Nat × String) := do
  let (digits, rest) ← run isHexDigit cs
  let rest ← literal [' ', '<'] rest
  let (name, rest) ← run isSymbolChar rest
  let rest ← literal ['>', ':'] rest
  if rest.all isBlank then some (Numeral.hex digits, String.ofList name) else none

/-- The address of an instruction line. -/
def address? (line : String) : Option Nat := (Scan.instruction line.toList).map (·.1)

/-- Classifies a line by the shapes of the given table. -/
def classifyBy (table : List Shape) (config : Config) (line : String) :
    Except NumeralError Line :=
  match label? line.toList with
  | some (address, name) => .ok (.label address name)
  | none =>
    match Scan.instruction line.toList with
    | none => .ok .text
    | some (address, texts) =>
      match table.findSome? (Shape.find config texts) with
      | none => .ok (.instruction address .other)
      | some operation => operation.map (.instruction address)

/-- Classifies a line by itself. -/
def classify (config : Config) (line : String) : Except NumeralError Line :=
  classifyBy Shape.table config line

end Line
end StackDepth
