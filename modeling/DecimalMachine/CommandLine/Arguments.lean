import DecimalMachine.Text.Blank

/-!
# Arguments of a command line

Arguments are options and operands in any order.  A long option stands by
itself, and its value follows it or an equals sign.  Short options may be
joined, and the first that takes a value takes what is left of the argument, or
else the next argument.  Two dashes by themselves end the options, and a single
dash is an operand.
-/

namespace DecimalMachine.CommandLine

/-- An option that a tool knows, by its letter, its long name or both. -/
structure OptionSpec (κ : Type) where
  key : κ
  letter : Option Char
  name : Option String
  takesValue : Bool
  deriving Repr

/-- The options that are given, each with its value, and the operands, all in
order. An option without a value has the empty one. -/
structure Arguments (κ : Type) where
  options : List (κ × String)
  operands : List String
  deriving Repr

/-- What one argument gives: options, the last of which may still need a value
from the next argument. -/
structure Given (κ : Type) where
  options : List (κ × String)
  wants : Option κ
  deriving Repr

variable {κ : Type}

/-- Read the letters of joined short options. -/
def readLetters (specs : List (OptionSpec κ)) : List Char → Option (Given κ)
  | [] => some ⟨[], none⟩
  | letter :: rest =>
      match specs.find? (·.letter = some letter) with
      | none => none
      | some spec =>
          if spec.takesValue then
            if rest.isEmpty then some ⟨[], some spec.key⟩
            else some ⟨[(spec.key, .ofList rest)], none⟩
          else
            (readLetters specs rest).map fun given =>
              { given with options := (spec.key, "") :: given.options }

/-- Read a long option with the value that may be joined to it. -/
def readLong (spec : OptionSpec κ) (value : Option String) : Option (Given κ) :=
  match spec.takesValue, value with
  | true, some value => some ⟨[(spec.key, value)], none⟩
  | true, none => some ⟨[], some spec.key⟩
  | false, some _ => none
  | false, none => some ⟨[(spec.key, "")], none⟩

/-- The part of an argument before the first equals sign, and the part after
it. -/
def splitEquals (argument : List Char) : List Char × Option String :=
  let name := argument.takeWhile (· ≠ '=')
  if name.length = argument.length then (name, none)
  else (name, some (.ofList (argument.drop (name.length + 1))))

/-- Read an argument that begins with a dash and is longer than it. -/
def readOption (specs : List (OptionSpec κ)) (argument : List Char) : Option (Given κ) :=
  let (name, value) := splitEquals argument
  let named := specs.find? fun spec =>
    (spec.name.map fun known => '-' :: '-' :: known.toList) = some name
  match named with
  | some spec => readLong spec value
  | none => if argument.take 2 = ['-', '-'] then none else readLetters specs (argument.drop 1)

/-- Whether an argument is read as options. -/
def isOption (argument : String) : Bool :=
  argument.toList.head? = some '-' && argument != "-"

namespace Arguments

/-- Put options in front of the given ones. -/
def prepend (options : List (κ × String)) (arguments : Arguments κ) : Arguments κ :=
  { arguments with options := options ++ arguments.options }

/-- Read arguments, if all options are known and have the values they need. -/
def read (specs : List (OptionSpec κ)) : List String → Option (Arguments κ)
  | [] => some ⟨[], []⟩
  | argument :: rest =>
      if argument == "--" then some ⟨[], rest⟩
      else if isOption argument then
        match readOption specs argument.toList with
        | none => none
        | some ⟨options, none⟩ => (read specs rest).map (prepend options)
        | some ⟨options, some key⟩ =>
            match rest with
            | [] => none
            | value :: rest => (read specs rest).map (prepend (options ++ [(key, value)]))
      else
        (read specs rest).map fun arguments =>
          { arguments with operands := argument :: arguments.operands }

variable [DecidableEq κ]

/-- Whether an option is given. -/
def has (arguments : Arguments κ) (key : κ) : Bool :=
  arguments.options.any (·.1 = key)

/-- The values of an option, in order. -/
def values (arguments : Arguments κ) (key : κ) : List String :=
  arguments.options.filterMap fun given => if given.1 = key then some given.2 else none

/-- The last value of an option. -/
def last? (arguments : Arguments κ) (key : κ) : Option String :=
  (arguments.values key).getLast?

end Arguments

/-- What a command line asks for. -/
inductive Invocation (ρ : Type) where
  /-- The version of the tool. -/
  | version
  /-- The use of the tool. -/
  | help
  /-- The work of the tool. -/
  | work (request : ρ)
  deriving DecidableEq, Repr

end DecimalMachine.CommandLine
