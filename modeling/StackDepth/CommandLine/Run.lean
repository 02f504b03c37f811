import StackDepth.Analysis.Program
import StackDepth.CommandLine.Options
import StackDepth.CommandLine.Record
import StackDepth.Dump.Report
import StackDepth.Files.FileTree
import StackDepth.Listing.Reading
import StackDepth.StackPath.Report

/-!
# Runs of the program

A run analyses a listing and writes the reports on its paths; then it decodes a stack dump, if
there is one. The files that it writes are settled before it looks for a dump.
-/
namespace StackDepth

open Text

/-- A failure that the program does not expect. -/
inductive Escape where
  | numeral (error : NumeralError)
  | file (error : FileError)
  | emptyName (error : PathName.EmptyName)
  | graph (error : GraphError)
  | trace (error : TraceError)
  /-- A number is missing where it is compared with others. -/
  | noNumber (key : OptionKey)

def Escape.message : Escape → String
  | numeral error => error.message
  | file error => error.message
  | emptyName error => error.message
  | graph error => error.message
  | trace error => error.message
  | noNumber .stackEnd => "'<' not supported between instances of 'int' and 'list'"
  | noNumber _ => "'<=' not supported between instances of 'list' and 'int'"

/-- How a run ends. -/
inductive Exit where
  | code (n : Nat)
  | escaped (failure : Escape)

namespace Exit

def success : Exit := code 0

/-- The stack dump could not be decoded. -/
def badDump : Exit := code 1

/-- The run could not do its work. -/
def failure : Exit := code 2

def interrupted : Exit := code 130

end Exit

/-- What can be read from the standard input. -/
inductive Input where
  | text (content : String)
  /-- What is there is not text. -/
  | undecodable (error : Utf8.DecodeError)
  /-- The system cannot read what is there. -/
  | unreadable (fault : PathFault)
  /-- There is no standard input. -/
  | absent
  /-- The user interrupts the program while it reads. -/
  | interrupt
deriving DecidableEq, Repr

/-- Why there is no listing to analyse. -/
inductive ListingError where
  | givenTwice
  | sourceAndDirectory
  | directoryNotFound (directory : PathName)
  | noneIn (directory : PathName)
  | notGiven
  | file (error : FileError)
deriving DecidableEq, Repr

def ListingError.message : ListingError → String
  | givenTwice => "give the listing either positionally or with --source, not both"
  | sourceAndDirectory => "Cannot specify both --source and --dir"
  | directoryNotFound directory => s!"directory not found: {directory.toString}"
  | noneIn directory => s!"Cannot find a .S file to analyse in '{directory.toString}'"
  | notGiven => "No source file specified"
  | file error => error.message

namespace Options

/-- An option counts as given if its value is not empty. -/
def given (value : Option String) : Option String := value.filter (· ≠ "")

def config (o : Options) : Config :=
  { stackEnd := o.stackEnd, multiline := !o.singleLine, shortNameLength := o.shortNameLength }

/-- Whether a file of this name counts as a listing. -/
def isListingName (name : String) : Bool := ".S".toList.isSuffixOf name.toList

/-- The file in a directory that changed last, of those that count as listings. -/
def newestListing (files : FileTree) (directory : PathName) :
    Except FileError (Option PathName) := do
  let names := (← files.namesIn directory).filter isListingName
  return files.newest? (← (names.map directory.child).filterM files.isFile)

/-- The listing that a directory stands for. -/
def listingIn (files : FileTree) (directory : PathName) : Except ListingError PathName := do
  if !(← (files.isDirectory directory).mapError .file) then throw (.directoryNotFound directory)
  match ← (newestListing files directory).mapError .file with
  | none => throw (.noneIn directory)
  | some path => return path

/-- The listing to be analysed. -/
def listing (o : Options) (files : FileTree) : Except ListingError PathName :=
  match given o.source, given o.positional with
  | some _, some _ => .error .givenTwice
  | source, positional =>
    match given o.dir, source <|> positional with
    | some _, some _ => .error .sourceAndDirectory
    | some dir, none => do
      listingIn files (← (files.expandHome (.ofString dir)).mapError .file)
    | none, some source => (files.expandHome (.ofString source)).mapError .file
    | none, none => .error .notGiven

end Options

/-- Lines as the content of a text file. -/
def textFile (lines : List String) : List UInt8 :=
  Utf8.encode (lines.flatMap fun line => line.toList ++ ['\n'])

/-- Writes lines to a text file. -/
def FileTree.writeLines (files : FileTree) (path : PathName) (lines : List String) :
    FileTree.Change :=
  match files.expandHome path with
  | .error e => ⟨files, .error e⟩
  | .ok path => files.write path (textFile lines)

/-- What the analysing part of a run comes to. -/
structure Reported where
  records : List Record
  /-- The files with the reports. -/
  files : FileTree
  /-- The analysed program, unless the run ends here. -/
  outcome : Except Exit Program

namespace Reported

/-- Puts records in front. -/
def after (records : List Record) (r : Reported) : Reported :=
  { r with records := records ++ r.records }

def stop (files : FileTree) (exit : Exit) (records : List Record) : Reported :=
  ⟨records, files, .error exit⟩

/-- Ends a run because of a file error. Only those that the system reports are expected. -/
def fileError (files : FileTree) (exit : Exit) (context : String) : FileError → Reported
  | .system fault path =>
    stop files exit [.program .error s!"{context}: {(FileError.system fault path).message}"]
  | error => stop files (.escaped (.file error)) []

end Reported

namespace Run

/-- The paths to report: the worst path of each root, and all paths if they are asked for. -/
def findPaths (o : Options) (config : Config) (p : Program) :
    Except GraphError (Survey p.size) :=
  match Options.given o.detailed with
  | some _ => survey p.catalogue config p.graph.roots
  | none => do return ⟨← worstPaths p.catalogue config p.graph.roots, []⟩

/-- Writes the lines of a report and goes on with the files, unless they cannot be written. -/
def writeReport (files : FileTree) (path : PathName) (lines : List String)
    (next : FileTree → Reported) : Reported :=
  let change := files.writeLines path lines
  match change.result with
  | .error e => .fileError change.tree .failure "cannot write report" e
  | .ok _ => next change.tree

/-- Writes the report on all paths, if it is asked for. -/
def writeDetailed (o : Options) (config : Config) (p : Program) (paths : Survey p.size)
    (files : FileTree) : Reported :=
  match Options.given o.detailed with
  | none => ⟨[], files, .ok p⟩
  | some path =>
    match StackPath.report p.catalogue config paths.all with
    | .error e => .stop files (.escaped (.numeral e)) []
    | .ok lines =>
      writeReport files (.ofString path) lines fun files =>
        ⟨[.program .info s!"Wrote {lines.length} paths to {path}"], files, .ok p⟩

/-- Writes the reports. -/
def writeReports (o : Options) (config : Config) (p : Program) (paths : Survey p.size)
    (out : PathName) (files : FileTree) : Reported :=
  match StackPath.report p.catalogue config paths.worst with
  | .error e => .stop files (.escaped (.numeral e)) []
  | .ok lines =>
    writeReport files out lines fun files =>
      (writeDetailed o config p paths files).after
        [.program .info s!"Wrote {paths.worst.length} root paths to {out.toString}"]

/-- The summary of the call graph, where it is shown. -/
def summaryRecords (o : Options) (p : Program) : Except NumeralError (List Record) :=
  if 2 ≤ o.verbosity then do
    return [.program .debug (← p.graph.summary p.catalogue p.log)]
  else return []

/-- Where the report on the worst paths goes. -/
def reportPath (o : Options) (source : PathName) (files : FileTree) : Except Escape PathName :=
  match Options.given o.out with
  | some path => (files.expandHome (.ofString path)).mapError .file
  | none => source.defaultReport.mapError .emptyName

/-- Finds the paths of an analysed program and writes the reports. -/
def reportPaths (o : Options) (config : Config) (source : PathName) (p : Program)
    (files : FileTree) : Reported :=
  match findPaths o config p with
  | .error e => .stop files (.escaped (.graph e)) []
  | .ok paths =>
    match reportPath o source files with
    | .error e => .stop files (.escaped e) []
    | .ok out => writeReports o config p paths out files

/-- What the analysis of a listing has to say. -/
def analysisRecords (lineCount : Nat) (p : Program) : List Record :=
  p.analysis.diagnostics.filterMap Record.ofDiagnostic? ++
    [⟨.info, "avrstack.analyzer",
      s!"analysed {lineCount} lines, {p.analysis.routines.length} functions"⟩] ++
    p.missing.filterMap Record.ofDiagnostic? ++
    [⟨.info, "avrstack.callgraph",
      s!"call graph: {p.graph.size} functions, {p.graph.roots.length} roots"⟩]

/-- Analyses the lines of a listing and writes the reports. -/
def reportLines (o : Options) (config : Config) (source : PathName) (lines : List String)
    (files : FileTree) : Reported :=
  match Program.ofListing config lines with
  | .error e => .stop files (.escaped (.graph e)) []
  | .ok p =>
    Reported.after (analysisRecords lines.length p) <|
      match summaryRecords o p with
      | .error e => .stop files (.escaped (.numeral e)) []
      | .ok summary => (reportPaths o config source p files).after summary

/-- The analysing part of a run. -/
def reports (o : Options) (files : FileTree) : Reported :=
  match o.config.problems with
  | [] =>
    match o.listing files with
    | .error (.file e) => .stop files (.escaped (.file e)) []
    | .error e => .stop files .failure [.program .error e.message]
    | .ok source =>
      Reported.after [.program .info s!"Analysing {source.toString}"] <|
        match files.read source with
        | .error e => .fileError files .failure s!"cannot read {source.toString}" e
        | .ok bytes => reportLines o o.config source (readListing bytes) files
  | problems =>
    .stop files .failure
      (problems.map fun p => .program .error s!"invalid configuration: {p.message}")

/-! ### The stack dump -/

/-- Why there is no text of a stack dump. -/
inductive DumpTextError where
  | file (error : FileError)
  | input (fault : PathFault)
  | decoding (error : Utf8.DecodeError)
  | interrupt

/-- The first line of the standard input. -/
def firstLine (content : String) : String :=
  String.ofList ((uniformNewlines content.toList).takeWhile (· ≠ '\n'))

/-- The first line of a file. -/
def firstLineOf (files : FileTree) (path : PathName) : Except DumpTextError String := do
  let bytes ← (files.read path).mapError .file
  let text ← (Utf8.decode bytes).mapError .decoding
  return String.ofList ((splitLines (uniformNewlines text)).head?.getD [])

/-- The text of the stack dump; it is empty if there is none. -/
def dumpText (o : Options) (files : FileTree) (input : Input) : Except DumpTextError String :=
  match Options.given o.traceFile with
  | some path => do firstLineOf files (← (files.expandHome (.ofString path)).mapError .file)
  | none =>
    if o.trace = some "-" then
      match input with
      | .text content => .ok (firstLine content)
      | .undecodable error => .error (.decoding error)
      | .unreadable fault => .error (.input fault)
      | .absent => .error (.file .noInput)
      | .interrupt => .error .interrupt
    else .ok (o.trace.getD "")

/-- Whether a run gets as far as to read the standard input. -/
def readsInput (o : Options) (files : FileTree) : Bool :=
  (Options.given o.traceFile).isNone && o.trace = some "-" && (reports o files).outcome.isOk

/-- What the decoding part of a run comes to. -/
structure Decoded where
  records : List Record
  output : List String
  exit : Exit

namespace Decoded

/-- No trace, and the reason for it. -/
def stop (exit : Exit) (records : List Record) : Decoded := ⟨records, [], exit⟩

/-- The stack dump cannot be read. -/
def unreadable (reason : String) : Decoded :=
  stop .badDump [.program .error s!"cannot read stack dump: {reason}"]

def ofTextError : DumpTextError → Decoded
  | .interrupt => stop .interrupted [.program .info "Interrupted by user."]
  | .decoding e => unreadable e.message
  | .input fault => unreadable fault.message
  | .file (.system fault path) => unreadable (FileError.system fault path).message
  | .file e => stop (.escaped (.file e)) []

end Decoded

/-- The report on a trace. -/
def showTrace (colors : Bool) (t : Trace) : Decoded :=
  let decoded : Record := ⟨.info, "avrstack.crashtrace",
    s!"decoded {t.frames.length} frames, SP=0x{Numeral.writeHexPadded 4 t.stackPointer}"⟩
  match t.report colors with
  | .error e => .stop (.escaped (.numeral e)) [decoded]
  | .ok lines => ⟨[decoded], lines, .success⟩

/-- Decodes the text of a stack dump. -/
def decodeText (config : Config) (p : Program) (colors : Bool) (text : String) : Decoded :=
  let found := Dump.traceText p.catalogue p.graph config text
  let shown : Decoded :=
    match found.result with
    | .error (.dump e) => .stop .badDump [.program .error e.message]
    | .error e => .stop (.escaped (.trace e)) []
    | .ok t => showTrace colors t
  { shown with records := found.diagnostics.filterMap Record.ofDiagnostic? ++ shown.records }

/-- The decoding part of a run. -/
def decode (o : Options) (files : FileTree) (input : Input) (colors : Bool) (p : Program) :
    Decoded :=
  match dumpText o files input with
  | .error e => .ofTextError e
  | .ok text =>
    if text.toList.all isBlank then .stop .success []
    else decodeText o.config p colors text

end Run

/-- What a run leaves behind. -/
structure RunResult where
  exit : Exit
  output : List String
  records : List Record
  files : FileTree

/-- Runs the program with the given options. -/
def run (o : Options) (files : FileTree) (input : Input) (colors : Bool) : RunResult :=
  let reported := Run.reports o files
  match reported.outcome with
  | .error exit => ⟨exit, [], reported.records, reported.files⟩
  | .ok p =>
    let decoded := Run.decode o reported.files input colors p
    ⟨decoded.exit, decoded.output, reported.records ++ decoded.records, reported.files⟩

/-- What a command leaves behind: how it ends, what it prints to the two outputs, and the files. -/
structure CommandResult where
  exit : Exit
  stdout : String
  stderr : String
  files : FileTree

def versionText : String := "avrstack 0.1.0"

def usageText : String :=
  "usage: avrstack [-h] [--source FILE | --dir DIR] [--out FILE] [--detailed FILE]\n" ++
    "                [--trace HEX | --trace-file FILE] [--stack-end ADDR] [--single-line]\n" ++
    "                [--short-name-length N] [--version] [-v]\n" ++
    "                [SOURCE]"

/-- Runs the program with the arguments of a command line. -/
def command (arguments : List String) (files : FileTree) (input : Input) (colors : Bool) :
    CommandResult :=
  match Options.parse arguments with
  | .error e => ⟨.failure, "", s!"avrstack: error: {e.message}\n", files⟩
  | .ok .version => ⟨.success, versionText ++ "\n", "", files⟩
  | .ok (.withoutNumber key) => ⟨.escaped (.noNumber key), "", "", files⟩
  | .ok .help => ⟨.success, usageText ++ "\n", "", files⟩
  | .ok (.run o) =>
    let result := run o files input colors
    { exit := result.exit
      stdout := String.join (result.output.map (· ++ "\n"))
      stderr := String.join ((result.records.filter (·.isShown o.verbosity)).map (·.render))
      files := result.files }

end StackDepth
