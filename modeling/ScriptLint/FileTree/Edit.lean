import ScriptLint.FileTree.Resolve

/-!
Changes of a file tree: writing files, and making directories.
-/

namespace ScriptLint

/-- The names of a path before the last one, the last one, and whether slashes follow it. -/
def splitLast? (path : String) : Option (List (List Char) × List Char × Bool) :=
  let names := (Path.splitSlash path.toList).reverse
  match names.dropWhile List.isEmpty with
  | [] => none
  | name :: above => some (above.reverse, name, names.length != above.length + 1)

namespace FileTree

def newFileMode : Nat := 0o644

/-- The directory to which the first names of a path lead. -/
def directoryAbove (t : FileTree) (cwd : Location) (path : String) (above : List (List Char)) :
    Except IoError Location := do
  match ← t.followFrom cwd path (above ++ [['.']]) with
  | .taken l => return l
  | .free _ => .error .notFound

/-- The location that writing to a path changes. A path with a slash at its end leads to no file,
and neither does the path of a directory. -/
def writeLocation (t : FileTree) (cwd : Location) (path : String) : Except IoError Location := do
  checkPath path
  match splitLast? path with
  | some (above, _, true) =>
    let _ ← t.directoryAbove cwd path above
    .error .isADirectory
  | _ =>
    match ← t.spot cwd path with
    | .free l => return l
    | .taken l => if t.get? l = some .directory then .error .isADirectory else return l

/-- The tree with a file at a location; permission bits that are there stay. -/
def put (t : FileTree) (l : Location) (bytes : ByteArray) : FileTree :=
  match t.get? l with
  | some (.file _ mode) => t.set l (.file bytes mode)
  | _ => t.set l (.file bytes newFileMode)

/-- Writes a file, new or in the place of the old one. -/
def write (t : FileTree) (cwd : Location) (path : String) (bytes : ByteArray) :
    Except IoError FileTree := do
  return t.put (← t.writeLocation cwd path) bytes

/-- The location of a directory to be made: the directory above it exists, and its name is free. A
link takes its name, wherever it leads. -/
def newDirectory (t : FileTree) (cwd : Location) (path : String) : Except IoError Location := do
  checkPath path
  match splitLast? path with
  | none => .error .alreadyExists
  | some (above, name, _) =>
    let l ← t.directoryAbove cwd path above
    if name = ['.'] || name = ['.', '.'] then .error .alreadyExists
    else if maxNameLength < byteLength name then .error .nameTooLong
    else if (t.get? (l ++ [name])).isSome then .error .alreadyExists
    else return l ++ [name]

def makeDirectory (t : FileTree) (cwd : Location) (path : String) : Except IoError FileTree := do
  return t.set (← t.newDirectory cwd path) .directory

/-- The path, and the paths above it that are not empty, from the innermost one outwards. There are
fewer of them than characters. -/
def ancestors (path : String) : List String :=
  go (path.toList.length + 1) path
where
  go : (fuel : Nat) → String → List String
    | 0, _ => []
    | fuel + 1, path =>
      if path = "" then []
      else path :: match Path.parent? path with
        | some above => go fuel above
        | none => []

def ensureDirectory (t : FileTree) (cwd : Location) (path : String) : Except IoError FileTree :=
  match t.makeDirectory cwd path with
  | .ok t => .ok t
  | .error e => if t.isDirectory cwd path then .ok t else .error e

/-- Makes the first directory of the list, after the others if it cannot be made without them. What
was made before an error stays. -/
def ensureDirectories (t : FileTree) (cwd : Location) (paths : List String) :
    FileTree × Except IoError Unit :=
  match paths with
  | [] => (t, .ok ())
  | path :: above =>
    match t.ensureDirectory cwd path with
    | .ok t => (t, .ok ())
    | .error e =>
      if e.kind != .notFound then (t, .error e)
      else match t.ensureDirectories cwd above with
        | (t, .ok ()) =>
          match t.ensureDirectory cwd path with
          | .ok t => (t, .ok ())
          | .error e => (t, .error e)
        | failed => failed

/-- Makes a directory and the directories above it, where they do not exist. -/
def ensureAll (t : FileTree) (cwd : Location) (path : String) : FileTree × Except IoError Unit :=
  t.ensureDirectories cwd (ancestors path)

end FileTree

end ScriptLint
