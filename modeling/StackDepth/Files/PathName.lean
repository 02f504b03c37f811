import StackDepth.Text.Quoted

/-!
# Path names

A path name is kept in normal form: its parts without empty ones and without single dots, and
the slashes it starts with. Two leading slashes are kept apart from one; three or more count as
one. A tilde in front of a relative path name stands for a home directory.
-/
namespace StackDepth

structure PathName where
  /-- The leading slashes: none, one or two. -/
  root : String
  parts : List String
deriving DecidableEq, Repr

/-- Where the home directories of users are, as far as that is known. -/
structure Homes where
  /-- The home directory of the user who runs the program. -/
  own : Option String := none
  /-- The home directories of users by their names. -/
  users : List (String × String) := []
deriving DecidableEq, Repr

/-- The home directory of a user. An empty name stands for the user who runs the program. -/
def Homes.directory? (homes : Homes) (user : String) : Option String :=
  if user = "" then homes.own else homes.users.lookup user

namespace PathName

def leadingSlashes (text : String) : Nat := (text.toList.takeWhile (· = '/')).length

def ofString (text : String) : PathName where
  root :=
    match leadingSlashes text with
    | 0 => ""
    | 2 => "//"
    | _ => "/"
  parts :=
    (text.toList.splitOn '/').map String.ofList |>.filter fun part => part ≠ "" && part ≠ "."

def toString (path : PathName) : String :=
  if path.root = "" && path.parts = [] then "."
  else path.root ++ "/".intercalate path.parts

/-- The last part of the path name. -/
def name? (path : PathName) : Option String := path.parts.getLast?

/-- The path name without its last part. -/
def parent (path : PathName) : PathName := { path with parts := path.parts.dropLast }

/-- The path name of an entry of the directory. -/
def child (path : PathName) (name : String) : PathName :=
  { path with parts := path.parts ++ [name] }

/-- The user in whose home directory a relative path name starts: what follows a tilde at its
front. -/
def homeUser? (path : PathName) : Option String :=
  if path.root = "" then
    match path.parts.head?.map String.toList with
    | some ('~' :: user) => some (String.ofList user)
    | _ => none
  else none

/-- The path name with a home directory in place of its first part. -/
def inHome (path : PathName) (home : String) : PathName :=
  let start := if home.toList.all (· = '/') then ofString "/" else ofString home
  { start with parts := start.parts ++ path.parts.drop 1 }

/-- A name without its last dot and what follows it, unless it starts or ends with that dot. -/
def stem (name : String) : String :=
  let cs := name.toList
  let ending := (cs.reverse.takeWhile (· ≠ '.')).length
  if ending = 0 || cs.length ≤ ending + 1 then name
  else String.ofList (cs.take (cs.length - ending - 1))

/-- The path name has no last part that could be exchanged. -/
structure EmptyName where
  path : PathName

def EmptyName.message (e : EmptyName) : String :=
  "PosixPath(" ++ Text.quote e.path.toString ++ ") has an empty name"

/-- Where the report on a listing goes by default: beside it, under a name made from its own. -/
def defaultReport (source : PathName) : Except EmptyName PathName :=
  match source.name? with
  | none => .error ⟨source⟩
  | some name => .ok (source.parent.child (stem name ++ "_maxStacks.txt"))

end PathName
end StackDepth
