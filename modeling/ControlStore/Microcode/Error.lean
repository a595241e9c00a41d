set_option autoImplicit false

/-!
What can be wrong with a program, and how it is worded.
-/
namespace ControlStore

/-- Why a program does not compile. -/
inductive CompileError where
  | emptyProgram
  | tooManyStates (count limit : Nat)
  | duplicateState (name : String)
  /-- A record names a field that is no signal. -/
  | schemaViolation (state field : String)
  | unresolvedTransition (state : String)
  | unknownState (state target : String)
  | unknownOpcode (state symbol : String)
deriving DecidableEq, Repr

/-- The text shown for an error. -/
def CompileError.message : CompileError → String
  | .emptyProgram => "program declares no states"
  | .tooManyStates count limit =>
      s!"program declares {count} states, at most {limit} fit a decision word"
  | .duplicateState name => s!"state '{name}' declared more than once"
  | .schemaViolation state field => s!"state '{state}': unknown control field '{field}'"
  | .unresolvedTransition state =>
      s!"state '{state}': missing or unrecognized next-state specification"
  | .unknownState state target =>
      s!"state '{state}': transition to undeclared state '{target}'"
  | .unknownOpcode state symbol =>
      s!"state '{state}': guard clause lists unknown opcode '{symbol}'"

end ControlStore
