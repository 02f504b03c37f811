import StackDepth.CommandLine.Run

/-!
# The command line program

Takes in the files that the arguments name, runs the command on them as a value, and puts what it
wrote in place. Two things are coarser here than in the command: a link is taken in as one to where
it leads in the end, and the newest listing is the one that was modified last, since that is the
only time of a change that can be asked for.
-/
namespace StackDepth.Shell

/-- A place as the system names it. -/
def systemName (place : Location) : String := "/" ++ "/".intercalate place

/-- What the system reported. -/
def faultOf : IO.Error → PathFault
  | .permissionDenied _ code details => ⟨code.toNat, details⟩
  | e => ⟨5, e.toString⟩

/-- A file that cannot be read. -/
def putUnreadable (tree : FileTree) (place : Location) (fault : PathFault) : FileTree :=
  let refusals := ((place, .read), fault) :: tree.surroundings.refusals
  { tree.put place (.file []) with surroundings := { tree.surroundings with refusals } }

/-- Adds what stands at a place. -/
def load (tree : FileTree) (place : Location) : IO FileTree := do
  let path := (← IO.currentDir) / systemName place
  if !(← path.pathExists) then return tree
  let target := PathName.ofString (← IO.FS.realPath path).toString
  if target.parts ≠ place then return tree.put place (.link target)
  else if ← path.isDir then return tree.put place .directory
  else
    try return tree.put place (.file (← IO.FS.readBinFile path).toList)
    catch e => return putUnreadable tree place (faultOf e)

/-- Adds what stands along the parts of a path name, and where links lead to. -/
def loadAlong (tree : FileTree) : Location → List String → IO FileTree
  | _, [] => return tree
  | place, part :: rest => do
    let next := place.enter part
    let tree ← load tree next
    match tree.node? next with
    | some (.link target) =>
      let lengths := List.range (target.parts.length + 1)
      let tree ← lengths.foldlM (fun tree n => load tree (target.parts.take n)) tree
      loadAlong tree target.parts rest
    | _ => loadAlong tree next rest

/-- Adds what stands along a path name. -/
def loadPath (tree : FileTree) (path : PathName) : IO FileTree :=
  loadAlong tree (tree.surroundings.workingDirectory.start path) path.parts

/-- Adds the listings in a directory, those that changed last at the end. Of those that changed at
the same time, the one that the system names first counts as the last. -/
def loadListings (tree : FileTree) (path : PathName) : IO FileTree := do
  let tree ← loadPath tree path
  match tree.locate path, tree.isDirectory path with
  | .ok place, .ok true =>
    let entries ← ((← IO.currentDir) / systemName place).readDir
    let listings ← entries.toList.filterM fun entry =>
      return Options.isListingName entry.fileName && (← entry.path.pathExists)
    let dated ← listings.mapM fun entry => do
      return (entry.fileName, (← entry.path.metadata).modified)
    let ordered := (dated.mergeSort fun a b => (compare b.2 a.2).isLE).reverse
    ordered.foldlM (fun tree entry => loadAlong tree place [entry.1]) tree
  | _, _ => return tree

/-- The home directories of the users that the system lists. -/
def loadUsers : IO (List (String × String)) := do
  let path := (← IO.currentDir) / "/etc/passwd"
  if !(← path.pathExists) then return []
  return (← IO.FS.lines path).toList.filterMap fun line =>
    match line.splitOn ":" with
    | [name, _, _, _, _, home, _] => some (name, home)
    | _ => none

def loadSurroundings : IO Surroundings := do
  let directory := PathName.ofString (← IO.currentDir).toString
  let homes : Homes := ⟨← IO.getEnv "HOME", ← loadUsers⟩
  return { workingDirectory := directory.parts, homes }

/-- The part of the file system that a run can touch. -/
def loadFiles (o : Options) : IO FileTree := do
  let surroundings ← loadSurroundings
  let tree : FileTree := { surroundings }
  let expand (name : String) := (tree.expandHome (.ofString name)).toOption
  let tree ← (o.dir.bind expand).toList.foldlM loadListings tree
  let named := [o.positional, o.source, o.out, o.detailed, o.traceFile].filterMap (·.bind expand)
  let tree ← named.foldlM loadPath tree
  match o.listing tree with
  | .error _ => return tree
  | .ok source =>
    let report := source.defaultReport.toOption.bind fun path => (tree.expandHome path).toOption
    report.toList.foldlM loadPath tree

/-- Puts what changed in place. -/
def storeFiles (before after : FileTree) : IO Unit := do
  for (place, node) in after.entries do
    if before.node? place ≠ some node then
      let path := (← IO.currentDir) / systemName place
      match node with
      | .directory => IO.FS.createDirAll path
      | .file content => IO.FS.writeBinFile path ⟨content.toArray⟩
      | .link _ => pure ()

/-- The first line of the standard input. -/
def loadInput : IO Input := do
  try
    let stdin ← IO.getStdin
    let mut bytes := ByteArray.empty
    repeat
      let chunk ← stdin.read 8192
      bytes := bytes ++ chunk
      if chunk.isEmpty || chunk.toList.contains 0x0A then break
    match Text.Utf8.decode (bytes.toList.takeWhile (· ≠ 0x0A)) with
    | .ok text => return .text (String.ofList text)
    | .error e => return .undecodable e
  catch e => return .unreadable (faultOf e)

/-- Colors are for terminals, unless the user does not want any. -/
def wantsColors : IO Bool := do
  return (← (← IO.getStdout).isTty) && (← IO.getEnv "NO_COLOR").isNone

def finish : Exit → IO UInt32
  | .code n => return n.toUInt32
  | .escaped e => do
    IO.eprintln e.message
    return 1

def run (arguments : List String) : IO UInt32 := do
  let options :=
    match Options.parse arguments with
    | .ok (.run o) => o
    | _ => {}
  let files ← loadFiles options
  let input ← if Run.readsInput options files then loadInput else pure (.text "")
  let result := command arguments files input (← wantsColors)
  storeFiles files result.files
  IO.print result.stdout
  IO.eprint result.stderr
  finish result.exit

end StackDepth.Shell

def main (arguments : List String) : IO UInt32 :=
  StackDepth.Shell.run arguments
