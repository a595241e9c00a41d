import ControlStore.CommandLine

set_option autoImplicit false

/-!
A command line as a list of items. An option for a program file and the argument behind it, whatever
that is, are one item; every other argument is an item of its own.
-/
namespace ControlStore.CommandLine

/-- What an argument says, or an option with its value. -/
inductive Item where
  | help
  | decision
  | control
  | verbose
  | program (path : String)
  /-- An option for a program file with no argument behind it. -/
  | missingValue
  | unknownOption (text : String)
  | ignored (text : String)
deriving DecidableEq, Repr

namespace Item

/-- The item of an argument that takes no value. -/
def ofArgument (argument : String) : Item :=
  if isHelp argument then help
  else if argument = "decision" then decision
  else if argument = "control" then control
  else if isVerbose argument then verbose
  else if isOption argument then unknownOption argument
  else ignored argument

/-- The items of arguments, from the left. -/
def ofArguments : List String → List Item
  | [] => []
  | [argument] => [if isProgram argument then missingValue else ofArgument argument]
  | argument :: value :: rest =>
      if isProgram argument then program value :: ofArguments rest
      else ofArgument argument :: ofArguments (value :: rest)

/-- What an item decides on its own, whatever stands behind it. -/
def verdict? : Item → Option (Except UsageError Request)
  | help => some (.ok .help)
  | missingValue => some (.error .missingValue)
  | unknownOption text => some (.error (.unknownOption text))
  | _ => none

/-- The program file that an item names. -/
def path? : Item → Option String
  | program path => some path
  | _ => none

def isIgnored : Item → Bool
  | ignored _ => true
  | _ => false

end Item

/-- What items decide: the first that decides anything decides alone. -/
def verdict? (items : List Item) : Option (Except UsageError Request) :=
  items.findSome? Item.verdict?

/-- The program file that counts: the last one named. -/
def path? (items : List Item) : Option String := (items.filterMap Item.path?).getLast?

/-- The options that items ask for, in any order and any number. -/
def Options.ofItems (items : List Item) : Options where
  decision := .decision ∈ items
  control := .control ∈ items
  verbose := .verbose ∈ items
  program := path? items

/-- The microcode of a program file, or of the built-in program if there is none. -/
inductive Assembles (files : Files) : Option String → Microcode → Prop where
  | builtIn {schema : Schema} {m : Microcode} : ReferenceCpu.schema = .ok schema →
      compile schema ReferenceCpu.program = .ok m → Assembles files none m
  | file {path : String} {bytes : ByteArray} {text : String} {loaded : Loaded} {m : Microcode} :
      files path = .ok bytes → String.fromUTF8? bytes = some text →
      Loaded.ofText text.toList = .ok loaded → compile loaded.schema loaded.program = .ok m →
      Assembles files (some path) m

end ControlStore.CommandLine
