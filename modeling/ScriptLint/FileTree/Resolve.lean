import ScriptLint.FileTree.Basic
import ScriptLint.IoError
import ScriptLint.Text.Utf8

/-!
Where a path leads in a file tree. Links are followed, also the last one; a relative path starts at
the current directory.
-/

namespace ScriptLint

inductive Spot where
  /-- To an entry other than a link. -/
  | taken (l : Location)
  /-- To a name that is free, in a directory that exists. -/
  | free (l : Location)
  deriving DecidableEq

/-- Bytes in a name at most. -/
def maxNameLength : Nat := 255

/-- Bytes in a path at most. -/
def maxPathLength : Nat := 4095

/-- Links on the way of a path at most. -/
def maxLinks : Nat := 40

def byteLength (cs : List Char) : Nat :=
  (String.ofList cs).utf8ByteSize

/-- The system takes no path of this length. -/
def isTooLong (path : String) : Bool :=
  maxPathLength < byteLength path.toList

namespace FileTree

/-- Follows names from a directory, through at most so many links. -/
def follow (t : FileTree) (links : Nat) (here : Location) (names : List (List Char)) :
    Except IoError Spot :=
  match names with
  | [] => .ok (.taken here)
  | name :: rest =>
    if Path.isFiller name then t.follow links here rest
    else if name = ['.', '.'] then t.follow links here.dropLast rest
    else if maxNameLength < byteLength name then .error .nameTooLong
    else
      let next := here ++ [name]
      match t.get? next with
      | none => if rest.isEmpty then .ok (.free next) else .error .notFound
      | some .directory => t.follow links next rest
      | some (.file ..) => if rest.isEmpty then .ok (.taken next) else .error .notADirectory
      | some (.link target) =>
        match links with
        | 0 => .error .tooManyLinks
        | links + 1 =>
          let start := if Path.isAbsolute target then [] else here
          t.follow links start (Path.splitSlash target.toList ++ rest)
termination_by (links, names.length)

/-- Refuses the texts that are no paths. -/
def checkPath (path : String) : Except IoError Unit :=
  let cs := path.toList
  if cs.contains '\x00' then .error .nulInName
  else if cs.isEmpty then .error .notFound
  else if isTooLong path then .error .nameTooLong
  else .ok ()

/-- Follows the names of a path: from the root directory if the path is absolute, else from the
current directory. -/
def followFrom (t : FileTree) (cwd : Location) (path : String) (names : List (List Char)) :
    Except IoError Spot :=
  t.follow maxLinks (if Path.isAbsolute path then [] else cwd) names

/-- Where a path leads from a directory. -/
def spot (t : FileTree) (cwd : Location) (path : String) : Except IoError Spot := do
  checkPath path
  t.followFrom cwd path (Path.splitSlash path.toList)

def locate (t : FileTree) (cwd : Location) (path : String) : Except IoError Location :=
  match t.spot cwd path with
  | .ok (.taken l) => .ok l
  | .ok (.free _) => .error .notFound
  | .error e => .error e

/-- The entry that a path leads to. -/
def entryAt? (t : FileTree) (cwd : Location) (path : String) : Option Entry :=
  match t.locate cwd path with
  | .ok l => t.get? l
  | .error _ => none

def isDirectory (t : FileTree) (cwd : Location) (path : String) : Bool :=
  t.entryAt? cwd path == some .directory

def isFile (t : FileTree) (cwd : Location) (path : String) : Bool :=
  t.entryAt? cwd path matches some (.file ..)

def hasPath (t : FileTree) (cwd : Location) (path : String) : Bool :=
  (t.entryAt? cwd path).isSome

/-- The permission bits of the file that a path leads to. -/
def mode? (t : FileTree) (cwd : Location) (path : String) : Option Nat :=
  match t.entryAt? cwd path with
  | some (.file _ mode) => some mode
  | _ => none

def read (t : FileTree) (cwd : Location) (path : String) : Except IoError ByteArray := do
  match t.get? (← t.locate cwd path) with
  | some (.file bytes _) => return bytes
  | some .directory => .error .isADirectory
  | _ => .error .notFound

def readText (t : FileTree) (cwd : Location) (path : String) : Except IoError String := do
  match Utf8.decode? (← t.read cwd path) with
  | some text => return text
  | none => .error .notText

end FileTree

end ScriptLint
