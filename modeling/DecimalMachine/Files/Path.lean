import DecimalMachine.Text.Blank
import DecimalMachine.Text.Quoted

/-!
# Paths

A path is kept in normal form: repeated slashes and single dots are dropped,
double dots stay.  One leading slash and more than two mean the same; exactly
two are kept apart.  The suffix of a name starts at its last dot, unless the
name begins or ends with that dot.
-/

namespace DecimalMachine

/-- A path: its leading slashes, and its parts. -/
structure Path where
  root : String
  parts : List String
  deriving DecidableEq, Repr

/-- A path without a name cannot get a suffix. -/
structure NamelessPath where
  path : Path
  deriving DecidableEq, Repr

namespace Path

/-- The most bytes that a name has. -/
def nameLimit : Nat := 255

/-- The most bytes that the text of a path has. -/
def lengthLimit : Nat := 4095

/-- The leading slashes of a path in normal form. -/
def rootOf (text : List Char) : String :=
  let slashes := (text.takeWhile (· = '/')).length
  if slashes = 0 then "" else if slashes = 2 then "//" else "/"

/-- The normal form of a path. -/
def ofText (text : String) : Path :=
  let (first, more) := Text.pieces (· = '/') text.toList
  { root := rootOf text.toList
    parts := ((first :: more).map String.ofList).filter fun part =>
      !(part.isEmpty || part == ".") }

/-- The text of a path. The path without parts is the present folder. -/
def render (path : Path) : String :=
  if path.root.isEmpty && path.parts.isEmpty then "."
  else path.root ++ "/".intercalate path.parts

/-- The name of a path, which is its last part. -/
def name? (path : Path) : Option String :=
  path.parts.getLast?

/-- The parts of a name before and from the last dot on. -/
def splitSuffix (name : String) : String × String :=
  let ending := (name.toList.reverse.takeWhile (· ≠ '.')).reverse
  let stem := name.toList.take (name.length - ending.length - 1)
  if ending.isEmpty || stem.isEmpty || ending.length = name.length then (name, "")
  else (.ofList stem, .ofList ('.' :: ending))

/-- The suffix of a path. -/
def suffix (path : Path) : String :=
  (path.name?.map fun name => (splitSuffix name).2).getD ""

/-- A path with another suffix. -/
def withSuffix (path : Path) (suffix : String) : Except NamelessPath Path :=
  match path.name? with
  | none => .error ⟨path⟩
  | some name =>
      .ok { path with parts := path.parts.dropLast ++ [(splitSuffix name).1 ++ suffix] }

end Path

/-- The wording of a path without a name. -/
def NamelessPath.message (error : NamelessPath) : String :=
  "PosixPath(" ++ Text.quoted error.path.render ++ ") has an empty name"

end DecimalMachine
