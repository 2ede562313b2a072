import JitTrace.FileSystem
import JitTrace.Path

/-! # File trees as values

A file tree held as a table of locations, with the directory that relative paths start from. A
location is the list of names that leads to it from the root. Paths are walked part by part, and
every part but the last has to be a directory that is there. Links and permissions are not part of
the tree.
-/

namespace JitTrace

/-- What stands at a location. -/
inductive Entry where
  | file (content : ByteArray)
  | directory

/-- A file tree. The root is a directory without an entry of its own. -/
structure Workspace where
  entries : List (List String × Entry)
  /-- The location that relative paths start from. -/
  here : List String

namespace Workspace

/-- What stands at a location. -/
def entryAt? (tree : Workspace) (location : List String) : Option Entry :=
  if location.isEmpty then some .directory else tree.entries.lookup location

/-- Checks that a location is a directory. -/
def checkDirectory (tree : Workspace) (location : List String) : Except IoFault Unit :=
  match tree.entryAt? location with
  | none => .error .notFound
  | some (.file _) => .error .notADirectory
  | some .directory => .ok ()

/-- How many bytes a name may have. -/
def nameLimit : Nat := 255

/-- A path has fewer bytes. -/
def pathLimit : Nat := 4096

/-- The location of a name in a directory. -/
def child (folder : List String) (name : String) : Except IoFault (List String) :=
  if nameLimit < name.utf8ByteSize then .error .nameTooLong else .ok (folder ++ [name])

/-- Walks parts of a path from a location. -/
def walk (tree : Workspace) (location : List String) : List String →
    Except IoFault (List String)
  | [] => .ok location
  | part :: rest => do
    tree.checkDirectory location
    if Path.isIdle part then tree.walk location rest
    else if part = ".." then tree.walk location.dropLast rest
    else tree.walk (← child location part) rest

/-- The location that a path starts from, and its parts. -/
def start (tree : Workspace) (path : String) : Except IoFault (List String × List String) :=
  if path.toList.contains '\x00' then .error .endInPath
  else if path.isEmpty then .error .notFound
  else if pathLimit ≤ path.utf8ByteSize then .error .nameTooLong
  else if Path.isAbsolute path then .ok ([], Path.parts path)
  else .ok (tree.here, Path.parts path)

/-- The location that a path leads to, and what stands there. -/
def resolve (tree : Workspace) (path : String) : Except IoFault (List String × Entry) := do
  let (location, parts) ← tree.start path
  let location ← tree.walk location parts
  match tree.entryAt? location with
  | none => .error .notFound
  | some entry => return (location, entry)

/-- What a path leads to, if it leads anywhere. -/
def kind? (tree : Workspace) (path : String) : Option FileKind :=
  match tree.resolve path with
  | .error _ => none
  | .ok (_, .file _) => some .file
  | .ok (_, .directory) => some .directory

/-- Opens a path for reading. -/
def openFile (tree : Workspace) (path : String) : Except IoFault Stream :=
  match tree.resolve path with
  | .error fault => .error fault
  | .ok (_, .file content) => .ok (.ofBytes content.toList)
  | .ok (_, .directory) => .ok [.failure .isADirectory]

/-- The tree with an entry at a location. -/
def put (tree : Workspace) (location : List String) (entry : Entry) : Workspace :=
  { tree with entries := (location, entry) :: tree.entries.filter fun held => held.1 ≠ location }

/-- The parts of a path in front of its last name, the name, and whether the path asks for a
directory by what follows the name. -/
def splitName (parts : List String) : List String × Option String × Bool :=
  let kept := (parts.reverse.dropWhile (· = "")).reverse
  let trailing := kept.length < parts.length
  match kept.getLast? with
  | none => ([], none, trailing)
  | some name =>
    if name = "." || name = ".." then (kept, none, trailing)
    else (kept.dropLast, some name, trailing)

/-- Makes a file at a path, in place of one that is there. -/
def writeFile (tree : Workspace) (path : String) (content : ByteArray) :
    Except IoFault Workspace := do
  let (location, parts) ← tree.start path
  let (front, name, trailing) := splitName parts
  let folder ← tree.walk location front
  tree.checkDirectory folder
  match name with
  | none => .error .isADirectory
  | some name =>
    if trailing then .error .isADirectory
    else
      let location ← child folder name
      match tree.entryAt? location with
      | some .directory => .error .isADirectory
      | _ => return tree.put location (.file content)

/-- Makes one directory. -/
def makeDirectory (tree : Workspace) (path : String) : Except IoFault Workspace := do
  let (location, parts) ← tree.start path
  let (front, name, _) := splitName parts
  let folder ← tree.walk location front
  tree.checkDirectory folder
  match name with
  | none => .error .alreadyExists
  | some name =>
    let location ← child folder name
    match tree.entryAt? location with
    | some _ => .error .alreadyExists
    | none => return tree.put location .directory

/-- Makes one directory, or finds it made. -/
def ensureDirectory (tree : Workspace) (path : String) : Except IoFault Workspace :=
  match tree.makeDirectory path with
  | .ok made => .ok made
  | .error fault => if tree.kind? path = some .directory then .ok tree else .error fault

/-- Makes a directory and those above it. Every step goes to the directory of a path, which is
shorter, so the bound `fuel` is the length of the path. The tree is given even when the last step
fails, as directories above may have been made. -/
def createDirectoriesFrom (fuel : Nat) (tree : Workspace) (path : String) :
    Except IoFault Unit × Workspace :=
  if path.isEmpty then (.ok (), tree)
  else
    match tree.ensureDirectory path with
    | .ok made => (.ok (), made)
    | .error .notFound =>
      match fuel, Path.parent? path with
      | fuel + 1, some parent =>
        match createDirectoriesFrom fuel tree parent with
        | (.error fault, made) => (.error fault, made)
        | (.ok (), made) =>
          match made.ensureDirectory path with
          | .ok made => (.ok (), made)
          | .error fault => (.error fault, made)
      | _, _ => (.error (.other "failed to create whole tree"), tree)
    | .error fault => (.error fault, tree)

/-- Makes a directory and those above it, as far as they are missing. -/
def createDirectories (tree : Workspace) (path : String) : Except IoFault Unit × Workspace :=
  createDirectoriesFrom path.length tree path

/-- The tree without what stands below a location. -/
def clear (tree : Workspace) (location : List String) : Workspace :=
  { tree with
    entries := tree.entries.filter fun held =>
      !(location.isPrefixOf held.1 && location.length < held.1.length) }

/-- The tree without a location and what stands below it. -/
def prune (tree : Workspace) (location : List String) : Workspace :=
  { tree with entries := tree.entries.filter fun held => !location.isPrefixOf held.1 }

/-- Removes the directory at a path, in which nothing is left. One that is not named by its own
name stays, but it counts as removed when the way to it led through itself and is gone. -/
def removeEmptied (tree : Workspace) (path : String) (location : List String) :
    Except IoFault Unit × Workspace :=
  let (front, name, _) := splitName (Path.parts path)
  let way := do
    let (start, _) ← tree.start path
    tree.walk start front
  match way, name with
  | .error .notFound, _ => (.ok (), tree)
  | .error fault, _ => (.error fault, tree)
  | .ok _, none => (.error .invalidArgument, tree)
  | .ok _, some _ => (.ok (), tree.prune location)

/-- Removes a directory and everything in it: first what is in it, and then the directory. -/
def removeDirectory (tree : Workspace) (path : String) : Except IoFault Unit × Workspace :=
  match tree.resolve path with
  | .error fault => (.error fault, tree)
  | .ok (_, .file _) => (.error .notADirectory, tree)
  | .ok (location, .directory) => (tree.clear location).removeEmptied path location

/-- Changes the tree, if the change succeeds. -/
def commit (change : Except IoFault Workspace) : StateM Workspace (Except IoFault Unit) := do
  match change with
  | .ok tree =>
    set tree
    return .ok ()
  | .error fault => return .error fault

instance : FileSystem (StateM Workspace) where
  kind? path := do return (← get).kind? path
  openFile path := do return (← get).openFile path
  writeFile path text := do commit ((← get).writeFile path text.toUTF8)
  createDirectories path := modifyGet fun tree => tree.createDirectories path
  removeDirectory path := modifyGet fun tree => tree.removeDirectory path

/-- The path of a location below a directory, with a separator behind it if it is a directory
itself. -/
def listedPath (folder location : List String) (entry : Entry) : String :=
  let path := "/".intercalate (location.drop folder.length)
  match entry with
  | .directory => path ++ "/"
  | .file _ => path

/-- The paths below the directory that relative paths start from, in the order of their texts. -/
def listing (tree : Workspace) : List String :=
  let below := tree.entries.filter fun held =>
    tree.here.isPrefixOf held.1 && tree.here.length < held.1.length
  (below.map fun held => listedPath tree.here held.1 held.2).mergeSort fun a b => !(b < a)

/-- The tree in which a location and those above it are directories, and nothing else is. -/
def ofLocation (here : List String) : Workspace where
  entries := (List.range here.length).map fun depth => (here.take (depth + 1), .directory)
  here := here

end Workspace

end JitTrace
