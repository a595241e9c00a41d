import ControlStore.Document.Read
import ControlStore.Document.Transition
import ControlStore.Relaxed.Strict
import ControlStore.Schema

set_option autoImplicit false

/-!
Loading of program text: relaxed text is made strict, the strict text read as a document, and the
document turned into a schema and a program. Each stage reports before the next begins.
-/
namespace ControlStore

/-- A program with the schema to compile it against, and how many states had a transition that
was given but could not be used. -/
structure Loaded where
  schema : Schema
  program : Program
  warnings : Nat

/-- Why program text cannot be loaded. -/
inductive LoadError where
  | syntaxFault (fault : Relaxed.SyntaxFault)
  | document (fault : Document.Fault)
  | schema (error : SchemaError)
deriving DecidableEq, Repr

/-- The text shown for an error. -/
def LoadError.message : LoadError → String
  | syntaxFault fault => fault.message
  | document fault => s!"invalid program file: {fault.message}"
  | schema error => error.message

/-- The state of an entry. A transition that cannot be used is left out. -/
def StateEntry.state (entry : StateEntry) : State :=
  ⟨entry.name, entry.control, entry.next.bind Transition.ofJson?⟩

/-- Whether an entry has a transition that cannot be used. -/
def StateEntry.isUnusable (entry : StateEntry) : Bool :=
  entry.next.any fun value => (Transition.ofJson? value).isNone

namespace Document

/-- The schema of a document. Opcodes and defaults count in the order of their names. -/
def schema (document : Document) : Except SchemaError Schema := do
  let bare ← Schema.build (document.geometry.getD .standard) document.opcodes.entries
  bare.withDefaults (document.defaults.entries.map fun entry => (entry.1, entry.2.bits))

def program (document : Document) : Program := ⟨document.states.map (·.state)⟩

def load (document : Document) : Except SchemaError Loaded := do
  let schema ← document.schema
  return ⟨schema, document.program, document.states.countP (·.isUnusable)⟩

end Document

/-- Loads program text. -/
def Loaded.ofText (text : List Char) : Except LoadError Loaded :=
  match Relaxed.toJson text with
  | .error fault => .error (.syntaxFault fault)
  | .ok strict =>
      match Document.read strict with
      | .error fault => .error (.document fault)
      | .ok document =>
          match document.load with
          | .error error => .error (.schema error)
          | .ok loaded => .ok loaded

end ControlStore
