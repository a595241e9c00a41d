import ControlStore.Microcode.StateIndex
import ControlStore.NameMap
import ControlStore.Program

set_option autoImplicit false

/-!
The names of a program's states with a table of their codes kept beside them. Codes are dealt out in
ascending order, one to a state, and entered under the state's name.
-/
namespace ControlStore

/-- Names in the order of their states and the code of every name. -/
structure CodeTable where
  names : List String
  codes : NameMap UInt8

namespace CodeTable

/-- Every code, the smallest first. -/
def allCodes : List UInt8 := (List.range UInt8.size).map UInt8.ofNat

/-- Enters a code under the name of a state, unless the name has one. -/
def enter (codes : NameMap UInt8) (entry : UInt8 × State) : Except CompileError (NameMap UInt8) :=
  if (codes.find? entry.2.name).isSome then .error (.duplicateState entry.2.name)
  else .ok (codes.insert entry.2.name entry.1)

/-- The table of some states. There must be some, not too many, and no two of one name. -/
def build (states : List State) : Except CompileError CodeTable :=
  if states.isEmpty then .error .emptyProgram
  else if StateIndex.limit < states.length then
    .error (.tooManyStates states.length StateIndex.limit)
  else do
    let codes ← (allCodes.zip states).foldlM enter NameMap.empty
    return ⟨states.map (·.name), codes⟩

def size (table : CodeTable) : Nat := table.names.length

/-- The code of a name. -/
def code? (table : CodeTable) (name : String) : Option UInt8 := table.codes.find? name

def name? (table : CodeTable) (code : UInt8) : Option String := table.names[code.toNat]?

end CodeTable

end ControlStore
