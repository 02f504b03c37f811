import StackDepth.Files.PathName

/-!
# File trees

The files and directories that a run can see, as a value, with the working directory at which
relative path names start. A path name is followed from directory to directory and through links,
so that all path names of one file lead to one place, however they are written. A file with several
names stands at one of them, and the others are links to it. The system may refuse any access, for
a reason of its own.
-/
namespace StackDepth

/-- What the system has against a path name or an access. -/
structure PathFault where
  number : Nat
  text : String
deriving DecidableEq, Repr

namespace PathFault

def notFound : PathFault := ⟨2, "No such file or directory"⟩
def alreadyExists : PathFault := ⟨17, "File exists"⟩
def notDirectory : PathFault := ⟨20, "Not a directory"⟩
def isDirectory : PathFault := ⟨21, "Is a directory"⟩
def nameTooLong : PathFault := ⟨36, "File name too long"⟩
def tooManyLinks : PathFault := ⟨40, "Too many levels of symbolic links"⟩

/-- Something on the way is missing. -/
def isMissing (fault : PathFault) : Bool := fault.number = notFound.number

/-- Whoever runs the program may not do that. -/
def isPermission (fault : PathFault) : Bool := [1, 13].contains fault.number

/-- Nothing can stand where the path name leads. -/
def isAbsence (fault : PathFault) : Bool :=
  [notFound.number, 9, notDirectory.number, tooManyLinks.number].contains fault.number

def message (fault : PathFault) : String := s!"[Errno {fault.number}] {fault.text}"

end PathFault

/-- Why something could not be read or written. -/
inductive FileError where
  | system (fault : PathFault) (path : PathName)
  /-- The path name holds a null character, which no path name may. -/
  | nullCharacter
  /-- The path name starts in a home directory that is not known. -/
  | unknownHome
  /-- There is no standard input. -/
  | noInput
deriving DecidableEq, Repr

def FileError.message : FileError → String
  | system fault path => s!"{fault.message}: {Text.quote path.toString}"
  | nullCharacter => "embedded null byte"
  | unknownHome => "Could not determine home directory."
  | noInput => "'NoneType' object has no attribute 'readline'"

/-- Where a file or directory stands: the names from the root of the file system down. -/
abbrev Location := List String

namespace Location

/-- The place that a part of a path name leads to. -/
def enter (place : Location) (part : String) : Location :=
  if part = ".." then place.dropLast else place ++ [part]

/-- Where a path name starts that stands in a directory. -/
def start (directory : Location) (path : PathName) : Location :=
  if path.root = "" then directory else []

/-- A place as it is named from a directory: the names down from there, or else those from the root
behind a slash. -/
def relativeTo (directory place : Location) : Location :=
  if directory.isPrefixOf place then place.drop directory.length else "/" :: place

/-- Whether a place as it is named from a directory lies in it. -/
def isInside (place : Location) : Bool := place.head? ≠ some "/"

end Location

inductive FileNode where
  | file (content : List UInt8)
  | directory
  /-- Another name for what the target leads to. -/
  | link (target : PathName)
deriving DecidableEq, Repr

def FileNode.isFile : FileNode → Bool
  | file _ => true
  | _ => false

/-- What a run asks the system for at a place. -/
inductive Access where
  /-- To look up a name in a directory. -/
  | search
  /-- To read a file, or the names in a directory. -/
  | read
  /-- To write a file, or to make something new. -/
  | write
deriving DecidableEq, Repr

/-- What a run finds about itself and cannot change. -/
structure Surroundings where
  workingDirectory : Location := ["work"]
  homes : Homes := {}
  /-- The accesses that the system refuses, and the reasons. -/
  refusals : List ((Location × Access) × PathFault) := []
deriving DecidableEq, Repr

/-- The files, directories and links of a tree, those that changed last at the end. -/
structure FileTree where
  entries : List (Location × FileNode) := []
  surroundings : Surroundings := {}
deriving DecidableEq, Repr

namespace FileTree

/-- What stands at a place. The working directory and those above it are always there. -/
def node? (tree : FileTree) (place : Location) : Option FileNode :=
  if place.isPrefixOf tree.surroundings.workingDirectory then some .directory
  else tree.entries.lookup place

/-- Why the system refuses an access, if it does. -/
def refusal? (tree : FileTree) (place : Location) (access : Access) : Option PathFault :=
  tree.surroundings.refusals.lookup (place, access)

/-- The tree with a node put in place of what was there. -/
def put (tree : FileTree) (place : Location) (node : FileNode) : FileTree :=
  { tree with entries := tree.entries.filter (·.1 ≠ place) ++ [(place, node)] }

/-! ### Following path names -/

/-- The path name with a home directory in place of the tilde at its front. -/
def expandHome (tree : FileTree) (path : PathName) : Except FileError PathName :=
  match path.homeUser? with
  | none => .ok path
  | some user =>
    if user.toList.contains '\x00' then .error .nullCharacter
    else
      match tree.surroundings.homes.directory? user with
      | none => .error .unknownHome
      | some home =>
        if home.toList.head? = some '~' then .error .unknownHome else .ok (path.inHome home)

/-- The most bytes that the name of one file or directory may have. -/
def nameLimit : Nat := 255

/-- The most bytes that a path name may have. -/
def pathLimit : Nat := 4095

/-- The most links that a path name may lead through. -/
def linkLimit : Nat := 40

/-- Looks up a part of a path name in a directory. -/
def look (tree : FileTree) (place : Location) (part : String) : Except PathFault Location :=
  match tree.node? place with
  | none => .error .notFound
  | some .directory =>
    match tree.refusal? place .search with
    | some fault => .error fault
    | none =>
      if nameLimit < part.utf8ByteSize then .error .nameTooLong else .ok (place.enter part)
  | some _ => .error .notDirectory

/-- How far the parts of a path name lead: to a place, or to a link that stands in a directory,
with the parts that are left behind it. -/
inductive Reached where
  | place (place : Location)
  | link (directory : Location) (target : PathName) (rest : List String)

/-- Follows the parts of a path name through directories, up to a link. A link in the last part
counts as a link only if `last` says so. -/
def walk (tree : FileTree) (last : Bool) : Location → List String → Except PathFault Reached
  | place, [] => .ok (.place place)
  | place, part :: rest =>
    match tree.look place part with
    | .error fault => .error fault
    | .ok next =>
      match tree.node? next with
      | some (.link target) =>
        .ok (if rest = [] && !last then .place next else .link place target rest)
      | _ => walk tree last next rest

/-- Follows the parts of a path name through directories and links. -/
def follow (tree : FileTree) (last : Bool) :
    (links : Nat) → Location → List String → Except PathFault Location
  | links, place, parts =>
    match tree.walk last place parts, links with
    | .error fault, _ => .error fault
    | .ok (.place found), _ => .ok found
    | .ok (.link _ _ _), 0 => .error .tooManyLinks
    | .ok (.link directory target rest), links + 1 =>
      follow tree last links (directory.start target) (target.parts ++ rest)

/-- The place that a path name leads to, whether or not anything is there. -/
def locate (tree : FileTree) (path : PathName) (last : Bool := true) :
    Except FileError Location :=
  if path.toString.toList.contains '\x00' then .error .nullCharacter
  else if pathLimit < path.toString.utf8ByteSize then .error (.system .nameTooLong path)
  else
    (tree.follow last linkLimit (tree.surroundings.workingDirectory.start path)
      path.parts).mapError (.system · path)

/-- Whether a path name leads to a node of a kind. That cannot be told if the system refuses to
follow it. -/
def leadsTo (tree : FileTree) (kind : FileNode → Bool) (path : PathName) :
    Except FileError Bool :=
  match tree.locate path with
  | .ok place => .ok ((tree.node? place).any kind)
  | .error (.system fault path) =>
    if fault.isAbsence then .ok false else .error (.system fault path)
  | .error _ => .ok false

def isDirectory (tree : FileTree) : PathName → Except FileError Bool :=
  tree.leadsTo (· = .directory)

def isFile (tree : FileTree) : PathName → Except FileError Bool := tree.leadsTo FileNode.isFile

/-! ### Reading and writing -/

def read (tree : FileTree) (path : PathName) : Except FileError (List UInt8) := do
  let place ← tree.locate path
  match tree.node? place, tree.refusal? place .read with
  | some (.file content), none => return content
  | some (.file _), some fault => throw (.system fault path)
  | some .directory, _ => throw (.system .isDirectory path)
  | some (.link _), _ => throw (.system .tooManyLinks path)
  | none, _ => throw (.system .notFound path)

/-- Makes one directory, where nothing is yet. -/
def makeDirectory (tree : FileTree) (path : PathName) : Except FileError FileTree := do
  let place ← tree.locate path false
  match tree.node? place, tree.refusal? place .write with
  | some _, _ => throw (.system .alreadyExists path)
  | none, some fault => throw (.system fault path)
  | none, none => return tree.put place .directory

/-- Makes a directory, unless there is one. -/
def ensureDirectory (tree : FileTree) (path : PathName) : Except FileError FileTree :=
  match tree.makeDirectory path with
  | .error (.system fault path) =>
    if fault.isMissing then .error (.system fault path)
    else do if ← tree.isDirectory path then return tree else throw (.system fault path)
  | made => made

/-- What became of a change to a tree; the tree may have changed also where it failed. -/
structure Change where
  tree : FileTree
  result : Except FileError Unit

def Change.ofExcept (tree : FileTree) : Except FileError FileTree → Change
  | .ok changed => ⟨changed, .ok ()⟩
  | .error e => ⟨tree, .error e⟩

/-- Makes a directory and those above it that are missing; `depth` is the number of parts of the
path name. -/
def ensureDirectories (tree : FileTree) : (depth : Nat) → PathName → Change
  | 0, path => .ofExcept tree (tree.ensureDirectory path)
  | depth + 1, path =>
    match tree.ensureDirectory path with
    | .error (.system fault path') =>
      if fault.isMissing then
        let above := ensureDirectories tree depth path.parent
        match above.result with
        | .error _ => above
        | .ok _ => .ofExcept above.tree (above.tree.ensureDirectory path)
      else ⟨tree, .error (.system fault path')⟩
    | made => .ofExcept tree made

/-- Writes a file, in place of the one that may be there. -/
def writeFile (tree : FileTree) (path : PathName) (content : List UInt8) :
    Except FileError FileTree := do
  let place ← tree.locate path
  if tree.node? place = some .directory then throw (.system .isDirectory path)
  match tree.refusal? place .write with
  | some fault => throw (.system fault path)
  | none => return tree.put place (.file content)

/-- Writes a file and makes the directories that it needs. -/
def write (tree : FileTree) (path : PathName) (content : List UInt8) : Change :=
  let above := tree.ensureDirectories path.parent.parts.length path.parent
  match above.result with
  | .error _ => above
  | .ok _ => .ofExcept above.tree (above.tree.writeFile path content)

/-! ### Directories and times -/

/-- The names in a directory. None are seen if it may not be read. -/
def namesIn (tree : FileTree) (path : PathName) : Except FileError (List String) := do
  let place ← tree.locate path
  match tree.refusal? place .read with
  | some fault => if fault.isPermission then return [] else throw (.system fault path)
  | none =>
    return tree.entries.filterMap fun (entry, _) =>
      entry.getLast?.filter fun name => entry = place ++ [name]

/-- The first of the path names that leads to the file that changed last. -/
def newest? (tree : FileTree) (paths : List PathName) : Option PathName :=
  tree.entries.reverse.findSome? fun (place, _) =>
    paths.find? fun path => (tree.locate path).toOption = some place

/-- Adds a file or directory and the directories above it, as they are found from the working
directory. -/
def add (tree : FileTree) (parts : List String) (node : FileNode) : FileTree :=
  let directory := tree.surroundings.workingDirectory
  let above := (List.range parts.length).map fun n => directory ++ parts.take n
  let tree := above.foldl (fun tree place =>
    if (tree.node? place).isSome then tree else tree.put place .directory) tree
  let place := directory ++ parts
  if node = .directory && tree.node? place = some .directory then tree else tree.put place node

/-- The files that are new in a tree or hold something else than before, as they are named from the
working directory. -/
def changedFiles (before after : FileTree) : List (Location × List UInt8) :=
  after.entries.filterMap fun (place, node) =>
    match node with
    | .file content =>
      if before.node? place = some node then none
      else some (Location.relativeTo before.surroundings.workingDirectory place, content)
    | _ => none

end FileTree
end StackDepth
