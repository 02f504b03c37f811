import StackDepth.Text.Numeral

/-!
# Options of the command line

Arguments are first sorted into options, plain arguments and the mark `--`, behind which all
arguments are plain. Then they are taken in order. Long options may be shortened as long as one
option fits, values may follow an equals sign, and short flags may be written together. One plain
argument, the listing, is expected; what is left over is reported at the end.
-/
namespace StackDepth

open Text

/-- The options by their meaning. -/
inductive OptionKey where
  | help
  | source
  | dir
  | out
  | detailed
  | trace
  | traceFile
  | stackEnd
  | singleLine
  | shortNameLength
  | version
  | verbose
deriving DecidableEq, Repr

namespace OptionKey

/-- The spellings of an option. -/
def names : OptionKey → List String
  | help => ["-h", "--help"]
  | source => ["--source"]
  | dir => ["--dir"]
  | out => ["--out"]
  | detailed => ["--detailed"]
  | trace => ["--trace"]
  | traceFile => ["--trace-file"]
  | stackEnd => ["--stack-end"]
  | singleLine => ["--single-line"]
  | shortNameLength => ["--short-name-length"]
  | version => ["--version"]
  | verbose => ["-v", "--verbose"]

/-- All options in the order in which they are listed. -/
def all : List OptionKey :=
  [help, source, dir, out, detailed, trace, traceFile, stackEnd, singleLine, shortNameLength,
    version, verbose]

def takesValue : OptionKey → Bool
  | help | singleLine | version | verbose => false
  | _ => true

/-- The option that this one excludes. -/
def rival : OptionKey → Option OptionKey
  | source => some dir
  | dir => some source
  | trace => some traceFile
  | traceFile => some trace
  | _ => none

/-- All spellings with their options, in the order in which they are listed. -/
def spellings : List (String × OptionKey) :=
  all.flatMap fun key => key.names.map fun name => (name, key)

def ofName? (name : String) : Option OptionKey :=
  (spellings.find? (·.1 = name)).map (·.2)

/-- How messages name the option. -/
def label (key : OptionKey) : String := "/".intercalate key.names

end OptionKey

/-- Why the arguments cannot be taken. -/
inductive UsageError where
  | ambiguous (argument : String) (candidates : List String)
  | missingValue (key : OptionKey)
  | ignoredValue (key : OptionKey) (value : String)
  | badValue (key : OptionKey) (kind value : String)
  | excluded (key rival : OptionKey)
  | unrecognized (arguments : List String)
deriving DecidableEq, Repr

def UsageError.message : UsageError → String
  | ambiguous argument candidates =>
    s!"ambiguous option: {argument} could match " ++ ", ".intercalate candidates
  | missingValue key => s!"argument {key.label}: expected one argument"
  | ignoredValue key value => s!"argument {key.label}: ignored explicit argument {quote value}"
  | badValue key kind value => s!"argument {key.label}: invalid {kind} value: {quote value}"
  | excluded key rival => s!"argument {key.label}: not allowed with argument {rival.label}"
  | unrecognized arguments => "unrecognized arguments: " ++ " ".intercalate arguments

/-- An argument, sorted. -/
inductive Argument where
  | plain (text : String)
  /-- The mark behind which all arguments are plain. -/
  | mark
  /-- A long option, or one in full, with the value behind an equals sign. -/
  | option (key : OptionKey) (value : Option String)
  /-- A short option with the characters written after it, or after it and an equals sign. -/
  | short (key : OptionKey) (tail : String)
  | unknown (text : String)
deriving DecidableEq, Repr

namespace Argument

/-- Cuts an argument at its first equals sign. -/
def cutAtEquals (text : String) : String × Option String :=
  let cs := text.toList
  let name := String.ofList (cs.takeWhile (· ≠ '='))
  match cs.dropWhile (· ≠ '=') with
  | [] => (name, none)
  | _ :: value => (name, some (String.ofList value))

/-- A minus sign and a number, with or without a fraction. A line feed may follow. -/
def isNegativeNumber (text : String) : Bool :=
  match text.toList with
  | '-' :: cs =>
    let cs := if cs.getLast? = some '\n' then cs.dropLast else cs
    match cs.dropWhile isDigit with
    | [] => !cs.isEmpty
    | '.' :: fraction => !fraction.isEmpty && fraction.all isDigit
    | _ => false
  | _ => false

/-- The spellings that a long option may be short for. -/
def completions (name : String) : List (String × OptionKey) :=
  OptionKey.spellings.filter fun s => name.toList.isPrefixOf s.1.toList

/-- Sorts an argument that looks like an option and is none in full. -/
def sortPartial (text : String) : Except UsageError Argument :=
  let (name, value) := cutAtEquals text
  match text.toList with
  | '-' :: '-' :: _ =>
    match completions name with
    | [(_, key)] => .ok (.option key value)
    | [] => .ok (.unknown text)
    | several => .error (.ambiguous text (several.map (·.1)))
  | first :: second :: tail =>
    match OptionKey.ofName? (String.ofList [first, second]) with
    | some key => .ok (.short key (String.ofList tail))
    | none => .ok (.unknown text)
  | _ => .ok (.unknown text)

/-- Sorts one argument in front of the mark. -/
def sort (text : String) : Except UsageError Argument :=
  if text.toList.head? ≠ some '-' || text = "-" then .ok (.plain text)
  else if text = "--" then .ok .mark
  else
    match OptionKey.ofName? text with
    | some key => .ok (.option key none)
    | none =>
      match cutAtEquals text with
      | (name, some value) =>
        match OptionKey.ofName? name with
        | some key => .ok (if name.length = 2 then .short key value else .option key value)
        | none => orPlain text
      | (_, none) => orPlain text
where
  /-- What fits no option is plain if it is a negative number or holds a space. -/
  orPlain (text : String) : Except UsageError Argument := do
    match ← sortPartial text with
    | .unknown text =>
      return if isNegativeNumber text || text.toList.contains ' ' then .plain text
        else .unknown text
    | sorted => return sorted

/-- Sorts all arguments. -/
def sortAll : List String → Except UsageError (List Argument)
  | [] => .ok []
  | text :: rest => do
    match ← sort text with
    | .mark => return .mark :: rest.map .plain
    | sorted => return sorted :: (← sortAll rest)

end Argument

/-- What the options say. -/
structure Options where
  /-- The listing, given as a plain argument. -/
  positional : Option String := none
  source : Option String := none
  dir : Option String := none
  out : Option String := none
  detailed : Option String := none
  trace : Option String := none
  traceFile : Option String := none
  stackEnd : Int := 0x900
  singleLine : Bool := false
  shortNameLength : Int := 30
  verbosity : Nat := 0
deriving DecidableEq, Repr

/-- What the arguments ask for. -/
inductive Request where
  | run (options : Options)
  /-- A run without the number that the option should have given. -/
  | withoutNumber (key : OptionKey)
  | version
  | help
deriving DecidableEq, Repr

namespace Options

/-- Arguments that were taken so far. -/
structure Taken where
  options : Options := {}
  /-- Options that were given. -/
  given : List OptionKey := []
  /-- Options whose last value was the mark, which is no value. -/
  voided : List OptionKey := []
  /-- Whether the last argument was taken as the listing. -/
  justPositional : Bool := false
  unrecognized : List String := []
deriving DecidableEq, Repr

/-- Why the taking of arguments ends before the last of them. -/
inductive Stop where
  | error (error : UsageError)
  | answered (request : Request)
deriving DecidableEq, Repr

/-- Takes an option unless it is excluded by one before it. -/
def Taken.set (t : Taken) (key : OptionKey) (options : Options) : Except Stop Taken :=
  match key.rival.filter t.given.contains with
  | some rival => .error (.error (.excluded key rival))
  | none =>
    .ok { t with
      options
      given := key :: t.given
      voided := t.voided.filter (· ≠ key)
      justPositional := false }

/-- Takes a number. -/
def readNumber (key : OptionKey) (base : Nat) (kind value : String) : Except Stop Int :=
  match Numeral.literal base value with
  | .ok n => .ok n
  | .error _ => .error (.error (.badValue key kind value))

/-- Takes an option that has a value. -/
def Taken.setText (t : Taken) (key : OptionKey) (value : String) : Except Stop Taken :=
  let o := t.options
  match key with
  | .source => t.set key { o with source := some value }
  | .dir => t.set key { o with dir := some value }
  | .out => t.set key { o with out := some value }
  | .detailed => t.set key { o with detailed := some value }
  | .trace => t.set key { o with trace := some value }
  | .traceFile => t.set key { o with traceFile := some value }
  | .stackEnd => do t.set key { o with stackEnd := ← readNumber key 0 "_int_auto" value }
  | .shortNameLength => do t.set key { o with shortNameLength := ← readNumber key 10 "int" value }
  | .help | .singleLine | .version | .verbose => .error (.error (.ignoredValue key value))

/-- Takes an option with the mark as its value: no text, and no number either. -/
def Taken.setVoid (t : Taken) (key : OptionKey) : Except Stop Taken :=
  match key with
  | .stackEnd | .shortNameLength => do
    let t ← t.set key t.options
    return { t with voided := key :: t.voided }
  | _ => t.setText key ""

def Taken.setValue (t : Taken) (key : OptionKey) (value : String) : Except Stop Taken :=
  if value = "--" && key.takesValue then t.setVoid key else t.setText key value

/-- Takes an option that has no value. -/
def Taken.setFlag (t : Taken) (key : OptionKey) : Except Stop Taken :=
  let o := t.options
  match key with
  | .help => .error (.answered .help)
  | .version => .error (.answered .version)
  | .singleLine => t.set key { o with singleLine := true }
  | .verbose => t.set key { o with verbosity := o.verbosity + 1 }
  | _ => .error (.error (.missingValue key))

/-- The flags that are written together with a first one. -/
def clusterKeys (key : OptionKey) : List Char → Except UsageError (List OptionKey)
  | [] => .ok [key]
  | c :: tail =>
    match OptionKey.ofName? (String.ofList ['-', c]) with
    | some next => do return key :: (← clusterKeys next tail)
    | none => .error (.ignoredValue key (String.ofList (c :: tail)))

/-- Takes a short flag and those written together with it. -/
def Taken.setCluster (t : Taken) (key : OptionKey) (tail : String) : Except Stop Taken :=
  if tail = "" then .error (.error (.ignoredValue key tail))
  else
    match clusterKeys key tail.toList with
    | .error e => .error (.error e)
    | .ok keys => keys.foldlM Taken.setFlag t

/-- Takes a plain argument: the first is the listing. -/
def Taken.setPlain (t : Taken) (text : String) : Taken :=
  match t.options.positional with
  | none => { t with options := { t.options with positional := some text }, justPositional := true }
  | some _ => { t with unrecognized := t.unrecognized ++ [text], justPositional := false }

/-- Takes the mark. It goes with the listing, if that is missing or stands right in front. -/
def Taken.setMark (t : Taken) : Taken :=
  if t.options.positional.isNone || t.justPositional then { t with justPositional := false }
  else { t with unrecognized := t.unrecognized ++ ["--"] }

/-- Takes arguments in order. -/
def take : Taken → List Argument → Except Stop Taken
  | t, [] => .ok t
  | t, .plain text :: rest => take (t.setPlain text) rest
  | t, .mark :: rest => take t.setMark rest
  | t, .unknown text :: rest =>
    take { t with unrecognized := t.unrecognized ++ [text], justPositional := false } rest
  | t, .short key tail :: rest => do take (← t.setCluster key tail) rest
  | t, .option key (some value) :: rest => do take (← t.setValue key value) rest
  | t, .option key none :: rest =>
    if key.takesValue then
      match rest with
      | .plain value :: rest => do take (← t.setValue key value) rest
      | _ => .error (.error (.missingValue key))
    else do take (← t.setFlag key) rest

/-- Reads the arguments of the command line. -/
def parse (arguments : List String) : Except UsageError Request := do
  match take {} (← Argument.sortAll arguments) with
  | .error (.error e) => throw e
  | .error (.answered request) => return request
  | .ok t =>
    if !t.unrecognized.isEmpty then throw (.unrecognized t.unrecognized)
    match [OptionKey.shortNameLength, .stackEnd].find? t.voided.contains with
    | some key => return .withoutNumber key
    | none => return .run t.options

end Options
end StackDepth
