import ControlStore.Microcode

set_option autoImplicit false

/-!
ROM images and their dumps. A decision ROM address that no state or no opcode stands behind holds
its own state code, so the machine stays where it is.
-/
namespace ControlStore

namespace Microcode

/-- The decision ROM byte at an address. -/
def decisionByte (m : Microcode) (address : Nat) : UInt8 :=
  let fields := Address.decode m.schema.geometry address
  (m.lookup? fields).getD fields.state

/-- The decision ROM, one next code per address. -/
def decisionRom (m : Microcode) : Array UInt8 :=
  (Array.range m.schema.geometry.romLength).map m.decisionByte

/-- The control ROM, one word per state that an address can hold. -/
def controlRom (m : Microcode) : Array Nat :=
  m.words.take (m.schema.geometry.controlLength m.index.size)

end Microcode

namespace Dump

def byteToken (byte : UInt8) : List Char := Hex.fixed 2 byte.toNat ++ [' ']

def wordToken (word : Nat) : List Char := Hex.fixed 8 word ++ [' ']

def decision (rom : Array UInt8) : String := String.ofList (rom.toList.flatMap byteToken)

def control (rom : Array Nat) : String := String.ofList (rom.toList.flatMap wordToken)

end Dump

namespace Microcode

def decisionDump (m : Microcode) : String := Dump.decision m.decisionRom

def controlDump (m : Microcode) : String := Dump.control m.controlRom

theorem decisionDump_eq (m : Microcode) : m.decisionDump = Dump.decision m.decisionRom := rfl

theorem controlDump_eq (m : Microcode) : m.controlDump = Dump.control m.controlRom := rfl

end Microcode

end ControlStore
