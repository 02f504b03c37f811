/-!
# Settings

What the analysis takes for granted about the compiler and the target, and how reports are laid
out. Settings are not checked when they are made; `Config.problems` lists what is wrong with them.
-/
namespace StackDepth

structure Config where
  /-- The least stack pointer decrement that counts as a reservation. -/
  reserveThreshold : Int := 1024
  /-- The number of registers that the register-save helper pushes when entered at its start. -/
  registerSaveBaseline : Int := 18
  /-- A release by `n` bytes subtracts this number less `n`. -/
  releaseModulus : Int := 65536
  /-- The bytes that a call pushes. -/
  returnAddressBytes : Int := 2
  /-- The width of names in reports. -/
  shortNameLength : Int := 30
  /-- Whether each function of a path stands on a line of its own. -/
  multiline : Bool := true
  /-- Whether reports show the running total, where they show the bytes used. -/
  includeTotal : Bool := true
  /-- Whether reports show the bytes used. -/
  includeUsed : Bool := true
  /-- One past the highest address of the stack. -/
  stackEnd : Int := 0x900
  /-- The name of the helper that saves registers on entry to a function. -/
  prologueHelper : String := "__prologue_saves__"
  /-- The name of the helper that restores them. -/
  epilogueHelper : String := "__epilogue_restores__"
deriving DecidableEq, Repr

namespace Config

/-- What stands between the functions of a path. -/
def pathSeparator (config : Config) : String :=
  if config.multiline then "\n       " else " >> "

def isHelper (config : Config) (name : String) : Bool :=
  name == config.prologueHelper || name == config.epilogueHelper

/-- The names of the helpers without repetition, in ascending order. -/
def helperNames (config : Config) : List String :=
  if config.prologueHelper = config.epilogueHelper then [config.prologueHelper]
  else if config.prologueHelper < config.epilogueHelper then
    [config.prologueHelper, config.epilogueHelper]
  else [config.epilogueHelper, config.prologueHelper]

/-- Something wrong with settings. -/
inductive Problem where
  | reserveThreshold
  | releaseModulus
  | returnAddressBytes
  | shortNameLength
  | stackEnd
deriving DecidableEq, Repr

def Problem.message : Problem → String
  | reserveThreshold => "reserve_threshold must be positive"
  | releaseModulus => "release_modulus must exceed reserve_threshold"
  | returnAddressBytes => "return_address_bytes must be non-negative"
  | shortNameLength => "short_name_length must be positive"
  | stackEnd => "stack_end must be within the 16-bit data space"

/-- Whether settings have the problem. -/
def has (config : Config) : Problem → Bool
  | .reserveThreshold => config.reserveThreshold ≤ 0
  | .releaseModulus => config.releaseModulus ≤ config.reserveThreshold
  | .returnAddressBytes => config.returnAddressBytes < 0
  | .shortNameLength => config.shortNameLength ≤ 0
  | .stackEnd => !(0 < config.stackEnd && config.stackEnd ≤ 0x10000)

/-- All problems of the settings, in a fixed order. -/
def problems (config : Config) : List Problem :=
  [.reserveThreshold, .releaseModulus, .returnAddressBytes, .shortNameLength, .stackEnd].filter
    config.has

end Config
end StackDepth
