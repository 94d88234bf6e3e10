import DecimalMachine.Files.Path
import DecimalMachine.Text.Lines
import DecimalMachine.Text.Utf8

/-!
# Directories

A directory holds the files that a tool can see.  A folder exists when it is
entered as one or when something lies in it; some folders and two peculiar files
exist on every system.  Paths are followed from the working folder part by part;
every part but the last has to be a folder, and a double dot leaves the folder
reached so far.  Names and whole paths are limited in length, and no path holds
a null character.
-/

namespace DecimalMachine

/-- What lies at a place of a directory. -/
inductive Node where
  | file (content : List UInt8)
  | folder
  /-- A file that stays empty whatever is written to it. -/
  | sink
  /-- A file that has no room for anything. -/
  | full
  deriving DecidableEq, Repr

/-- A place of a directory: the parts of the way to it. A place outside the
working folder begins with double dots or with a slash. -/
abbrev Place := List String

/-- The text of a place. -/
def Place.render : Place → String
  | [] => "."
  | "/" :: parts => "/" ++ "/".intercalate parts
  | parts => "/".intercalate parts

/-- Whether a place lies in the working folder. -/
def Place.isInside (place : Place) : Bool :=
  place.head? ≠ some ".." && place.head? ≠ some "/"

/-- Files and folders by their places. -/
structure Directory where
  nodes : List (Place × Node)
  deriving DecidableEq, Repr

/-- Why a file is not read or written. -/
inductive FileError where
  /-- A folder on the way to the file is missing, or the file itself. -/
  | missing (path : Path)
  /-- A file stands where a folder should be. -/
  | notFolder (path : Path)
  /-- A folder stands where the file should be. -/
  | isFolder (path : Path)
  /-- There is no room for what is written. -/
  | noRoom
  /-- The path or a name in it is too long. -/
  | tooLong (path : Path)
  /-- The path holds a null character. -/
  | nullCharacter
  /-- There is no source file with the name. -/
  | noSource (name : String)
  /-- There is no program file at the path. -/
  | noProgram (path : Path)
  deriving DecidableEq, Repr

/-- The wording of a file error. -/
def FileError.message : FileError → String
  | .missing path => "[Errno 2] No such file or directory: " ++ Text.quoted path.render
  | .notFolder path => "[Errno 20] Not a directory: " ++ Text.quoted path.render
  | .isFolder path => "[Errno 21] Is a directory: " ++ Text.quoted path.render
  | .noRoom => "[Errno 28] No space left on device"
  | .tooLong path => "[Errno 36] File name too long: " ++ Text.quoted path.render
  | .nullCharacter => "embedded null byte"
  | .noSource name => "Source file not found: " ++ name
  | .noProgram path => "Program file not found: " ++ path.render

/-- Where a path leads. -/
inductive Destination where
  /-- To a file or folder. -/
  | node (place : Place) (node : Node)
  /-- To a place in an existing folder at which nothing lies. -/
  | vacant (place : Place)
  /-- Nowhere, since a folder on the way is missing. -/
  | nowhere
  /-- Nowhere, since a file stands on the way. -/
  | blocked
  /-- Nowhere, since the path or a name on the way is too long. -/
  | tooLong
  /-- Nowhere, since the path holds a null character. -/
  | nullCharacter
  deriving DecidableEq, Repr

namespace Directory

/-- Folders of the topmost folder that every system has. -/
def usualFolders : List String :=
  ["bin", "dev", "etc", "home", "lib", "tmp", "usr", "var"]

/-- What lies at a place on every system: the working folder, the folders above
it and the topmost one are always there. -/
def standing? (place : Place) : Option Node :=
  match place with
  | ["/"] => some .folder
  | ["/", name] => if usualFolders.contains name then some .folder else none
  | ["/", "dev", "null"] => some .sink
  | ["/", "dev", "full"] => some .full
  | parts => if parts.all (· == "..") then some .folder else none

/-- What lies at a place. -/
def node? (directory : Directory) (place : Place) : Option Node :=
  match directory.nodes.lookup place with
  | some node => some node
  | none =>
      if directory.nodes.any (fun entry => place.isPrefixOf entry.1) then some .folder
      else standing? place

/-- The place of a part of a path, seen from a folder. -/
def stepFrom (folder : Place) (part : String) : Place :=
  if part == ".." then
    if folder == ["/"] then folder
    else if folder.all (· == "..") then folder ++ [part]
    else folder.dropLast
  else folder ++ [part]

/-- Where a part of a path leads from a folder. -/
def enter (directory : Directory) (folder : Place) (part : String) : Destination :=
  let place := stepFrom folder part
  if Path.nameLimit < part.utf8ByteSize then .tooLong
  else
    match directory.node? place with
    | some node => .node place node
    | none => .vacant place

/-- Follow the parts of a path from a folder. -/
def follow (directory : Directory) : Place → List String → Destination
  | folder, [] => .node folder .folder
  | folder, [part] => directory.enter folder part
  | folder, part :: parts =>
      match directory.enter folder part with
      | .node place .folder => follow directory place parts
      | .node _ _ => .blocked
      | .vacant _ => .nowhere
      | destination => destination

/-- The folder from which a path is followed. -/
def start (path : Path) : Place :=
  if path.root.isEmpty then [] else ["/"]

/-- The places that a path passes, from the first part to the last. -/
def waypoints (path : Path) : List Place :=
  let step := fun (passed : List Place × Place) part =>
    let place := stepFrom passed.2 part
    (passed.1 ++ [place], place)
  (path.parts.foldl step ([], start path)).1

/-- Where a path leads from the working folder. -/
def find (directory : Directory) (path : Path) : Destination :=
  let text := path.render
  if text.toList.contains '\x00' then .nullCharacter
  else if Path.lengthLimit < text.utf8ByteSize then .tooLong
  else directory.follow (start path) path.parts

/-- Whether there is something at a path. Of a path that is too long this cannot
be said. -/
def hasPath (directory : Directory) (path : Path) : Except FileError Bool :=
  match directory.find path with
  | .node _ _ => .ok true
  | .tooLong => .error (.tooLong path)
  | _ => .ok false

/-- The bytes of the file at a path. -/
def read (directory : Directory) (path : Path) : Except FileError (List UInt8) :=
  match directory.find path with
  | .node _ (.file content) => .ok content
  | .node _ .sink | .node _ .full => .ok []
  | .node _ .folder => .error (.isFolder path)
  | .blocked => .error (.notFolder path)
  | .vacant _ | .nowhere => .error (.missing path)
  | .tooLong => .error (.tooLong path)
  | .nullCharacter => .error .nullCharacter

/-- Replace what lies at a place by a file. -/
def put (directory : Directory) (place : Place) (content : List UInt8) : Directory :=
  ⟨directory.nodes.filter (·.1 ≠ place) ++ [(place, .file content)]⟩

/-- Write bytes to the file at a path, which is created if it is missing. -/
def write (directory : Directory) (path : Path) (content : List UInt8) :
    Except FileError Directory :=
  match directory.find path with
  | .node place (.file _) | .vacant place => .ok (directory.put place content)
  | .node _ .sink => .ok directory
  | .node _ .full => if content.isEmpty then .ok directory else .error .noRoom
  | .node _ .folder => .error (.isFolder path)
  | .blocked => .error (.notFolder path)
  | .nowhere => .error (.missing path)
  | .tooLong => .error (.tooLong path)
  | .nullCharacter => .error .nullCharacter

/-- The files of a directory that another one does not have or has otherwise,
each with its place. -/
def filesNewTo (directory before : Directory) : List (Place × List UInt8) :=
  directory.nodes.filterMap fun entry =>
    match entry.2 with
    | .file content =>
        if before.nodes.lookup entry.1 = some entry.2 then none else some (entry.1, content)
    | _ => none

/-- The number of bytes that a folder takes by itself. -/
def folderSize : Nat := 4096

/-- The number of bytes at a path, if there is something. Of a path that is too
long this cannot be said. -/
def size? (directory : Directory) (path : Path) : Except FileError (Option Nat) :=
  match directory.find path with
  | .node _ (.file content) => .ok (some content.length)
  | .node _ .folder => .ok (some folderSize)
  | .node _ _ => .ok (some 0)
  | .tooLong => .error (.tooLong path)
  | _ => .ok none

end Directory

end DecimalMachine
