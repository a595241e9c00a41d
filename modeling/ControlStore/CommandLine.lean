import ControlStore.Document.Load
import ControlStore.Microcode.Image
import ControlStore.ReferenceCpu

set_option autoImplicit false

/-!
The command line. Arguments are read from the left; the first call for help or bad argument
decides. Dumps are written only when everything before them has succeeded. Arguments are texts of
Unicode: those of other bytes, and how a message shows them, are left out.
-/
namespace ControlStore.CommandLine

def defaultLogFilter : String := "warn"

/-- The text shown for help and behind a bad argument. -/
def usage : String :=
  "Usage: microasm [decision] [control] [options]\n" ++
  "\n" ++
  "Modes (other bare tokens are ignored):\n" ++
  "  decision  Print the decision ROM dump\n" ++
  "  control   Print the control ROM dump\n" ++
  "\n" ++
  "Options:\n" ++
  "  -p, --program <file>  Compile a program file instead of the built-in CPU\n" ++
  "  -v, --verbose         Print a state listing to stderr\n" ++
  "  -h, --help            Show this help message\n" ++
  "\n" ++
  "Examples:\n" ++
  "  microasm decision control\n" ++
  "  microasm control -p cpu.json\n"

/-! ### Arguments -/

/-- What a run is asked to do. -/
structure Options where
  decision : Bool
  control : Bool
  verbose : Bool
  program : Option String
deriving DecidableEq, Repr

/-- Nothing is asked for: the built-in program is compiled and nothing printed. -/
def Options.none : Options := ⟨false, false, false, Option.none⟩

/-- Why arguments cannot be followed. -/
inductive UsageError where
  /-- The option for a program file is the last argument. -/
  | missingValue
  /-- An argument looks like an option and is none. -/
  | unknownOption (text : String)
deriving DecidableEq, Repr

/-- The text shown for an error. -/
def UsageError.message : UsageError → String
  | missingValue => "missing value for --program"
  | unknownOption text => s!"unknown option: {text}"

/-- What arguments ask for. -/
inductive Request where
  | help
  | run (options : Options)
deriving DecidableEq, Repr

/-- The outcome of reading arguments, and how many were ignored until it was clear. -/
structure Reading where
  ignored : Nat
  request : Except UsageError Request

def isHelp (argument : String) : Bool := argument == "-h" || argument == "--help"

def isVerbose (argument : String) : Bool := argument == "-v" || argument == "--verbose"

def isProgram (argument : String) : Bool := argument == "-p" || argument == "--program"

def isOption (argument : String) : Bool := argument.toList.head? == some '-'

/-- Reads arguments behind others that gave some options and some ignored words. -/
def readFrom (ignored : Nat) (options : Options) : List String → Reading
  | [] => ⟨ignored, .ok (.run options)⟩
  | argument :: rest =>
      if isHelp argument then ⟨ignored, .ok .help⟩
      else if argument = "decision" then readFrom ignored { options with decision := true } rest
      else if argument = "control" then readFrom ignored { options with control := true } rest
      else if isVerbose argument then readFrom ignored { options with verbose := true } rest
      else if isProgram argument then
        match rest with
        | [] => ⟨ignored, .error .missingValue⟩
        | path :: rest => readFrom ignored { options with program := some path } rest
      else if isOption argument then ⟨ignored, .error (.unknownOption argument)⟩
      else readFrom (ignored + 1) options rest

def read (arguments : List String) : Reading := readFrom 0 .none arguments

/-! ### Program files -/

/-- Why the bytes of a file cannot be had. -/
inductive ReadFault where
  | missing
  | directory
  | other (cause : String)
deriving DecidableEq, Repr

/-- The text shown for a fault. -/
def ReadFault.message : ReadFault → String
  | missing => "No such file or directory (os error 2)"
  | directory => "Is a directory (os error 21)"
  | other cause => cause

/-- The files at hand: the bytes of a name, or why there are none. -/
abbrev Files := String → Except ReadFault ByteArray

/-- Why a run fails. -/
inductive RunError where
  | unreadable (path cause : String)
  | load (error : LoadError)
  | compile (error : CompileError)

/-- The text shown for an error. -/
def RunError.message : RunError → String
  | unreadable path cause => s!"failed to read {path}: {cause}"
  | load error => error.message
  | compile error => error.message

/-- The text of a file. -/
def readText (files : Files) (path : String) : Except RunError String :=
  match files path with
  | .error fault => .error (.unreadable path fault.message)
  | .ok bytes =>
      match String.fromUTF8? bytes with
      | some text => .ok text
      | none => .error (.unreadable path "stream did not contain valid UTF-8")

/-- The built-in program. -/
def builtIn : Except RunError Loaded :=
  match ReferenceCpu.schema with
  | .ok schema => .ok ⟨schema, ReferenceCpu.program, 0⟩
  | .error error => .error (.load (.schema error))

/-- The program of a file, or the built-in one if no file is given. -/
def load (files : Files) : Option String → Except RunError Loaded
  | none => builtIn
  | some path => do
      let text ← readText files path
      match Loaded.ofText text.toList with
      | .ok loaded => return loaded
      | .error error => throw (.load error)

/-! ### Runs -/

/-- All that a run shows: its exit code, the texts on both outputs, and the number of notices. -/
structure Outcome where
  exitCode : UInt32
  output : String
  errors : String
  warnings : Nat
deriving DecidableEq, Repr

/-- A failed run: nothing but the error is shown. -/
def Outcome.failure (message : String) (warnings : Nat) : Outcome :=
  ⟨1, "", s!"error: {message}\n", warnings⟩

/-- A line of the listing: code, control word and name of a state. -/
def listingLine (code word : Nat) (name : String) : String :=
  String.ofList (Hex.fixed 2 code) ++ ": " ++ String.ofList (Hex.fixed 8 word) ++ s!" {name}\n"

/-- The listing of all states. -/
def listing (m : Microcode) : String :=
  String.join ((m.states.zip m.words.toList).zipIdx.map fun entry =>
    listingLine entry.2 entry.1.2 entry.1.1)

/-- The dumps that are asked for, each on a line. -/
def dumps (options : Options) (m : Microcode) : String :=
  (if options.decision then m.decisionDump ++ "\n" else "") ++
    (if options.control then m.controlDump ++ "\n" else "")

/-- Compiles a program and shows what is asked for. -/
def runWith (options : Options) (ignored : Nat) : Except RunError Loaded → Outcome
  | .error error => .failure error.message ignored
  | .ok loaded =>
      let warnings := ignored + loaded.warnings
      match compile loaded.schema loaded.program with
      | .error error => .failure (RunError.compile error).message warnings
      | .ok m => ⟨0, dumps options m, if options.verbose then listing m else "", warnings⟩

/-- The outcome of a command line. -/
def run (files : Files) (arguments : List String) : Outcome :=
  let reading := read arguments
  match reading.request with
  | .ok .help => ⟨0, usage ++ "\n", "", reading.ignored⟩
  | .ok (.run options) => runWith options reading.ignored (load files options.program)
  | .error error => ⟨1, "", s!"error: {error.message}\n" ++ usage ++ "\n", reading.ignored⟩

/-- The file that a command line needs, if it needs one. -/
def neededFile? (arguments : List String) : Option String :=
  match (read arguments).request with
  | .ok (.run options) => options.program
  | _ => none

end ControlStore.CommandLine
