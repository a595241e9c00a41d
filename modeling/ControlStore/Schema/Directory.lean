import ControlStore.Schema

set_option autoImplicit false

/-!
The opcodes of a schema with two tables kept beside them: the position of every symbol, and the
position of every code, with one place for each code that fits. A look-up reads a table and then the
opcode at the position it found.
-/
namespace ControlStore

/-- Opcodes in order of declaration and their positions by symbol and by code. The tables hold
positions of opcodes only. -/
structure Directory where
  geometry : Geometry
  opcodes : Array Opcode
  bySymbol : NameMap Nat
  byCode : Array (Option Nat)
  bySymbol_lt : ∀ (symbol : String) (position : Nat),
    bySymbol.find? symbol = some position → position < opcodes.size
  byCode_lt : ∀ (code position : Nat),
    byCode[code]? = some (some position) → position < opcodes.size

namespace Directory

/-- No opcodes; the table of codes has a free place for every code that fits. -/
def empty (geometry : Geometry) : Directory where
  geometry := geometry
  opcodes := #[]
  bySymbol := NameMap.empty
  byCode := Array.replicate geometry.opcodeSpace none
  bySymbol_lt := by
    intro symbol position found
    cases found
  byCode_lt := by
    intro code position held
    rw [Array.getElem?_replicate] at held
    split at held <;> cases held

/-- Puts an opcode at the end and its position into both tables. -/
def enter (directory : Directory) (symbol : String) (code : Nat)
    (fits : code < directory.byCode.size) : Directory where
  geometry := directory.geometry
  opcodes := directory.opcodes.push ⟨symbol, UInt8.ofNat code⟩
  bySymbol := directory.bySymbol.insert symbol directory.opcodes.size
  byCode := directory.byCode.set code (some directory.opcodes.size) fits
  bySymbol_lt := by
    intro other position found
    rw [NameMap.find?_insert] at found
    rw [Array.size_push]
    split at found
    · cases found
      exact Nat.lt_succ_self _
    · exact Nat.lt_succ_of_lt (directory.bySymbol_lt other position found)
  byCode_lt := by
    intro other position held
    rw [Array.getElem?_set] at held
    rw [Array.size_push]
    split at held
    · cases held
      exact Nat.lt_succ_self _
    · exact Nat.lt_succ_of_lt (directory.byCode_lt other position held)

/-- Declares one more opcode, unless its symbol is known, the table of codes has no place for its
code, or the place is taken. -/
def insert (directory : Directory) (symbol : String) (code : Nat) : Except SchemaError Directory :=
  if (directory.bySymbol.find? symbol).isSome then .error (.duplicateOpcode symbol)
  else if fits : code < directory.byCode.size then
    match held : directory.byCode[code] with
    | some position =>
        have inside := directory.byCode_lt code position
          (by rw [Array.getElem?_eq_getElem fits, held])
        let earlier := directory.opcodes[position]
        .error (.duplicateCode earlier.code earlier.symbol symbol)
    | none => .ok (directory.enter symbol code fits)
  else .error (.codeOutOfRange symbol code directory.geometry.opcodeBits)

/-- Declares opcodes from left to right. -/
def insertAll (directory : Directory) (opcodes : List (String × Nat)) :
    Except SchemaError Directory :=
  opcodes.foldlM (fun held entry => held.insert entry.1 entry.2) directory

/-- The directory of a geometry and its opcodes. -/
def build (geometry : Geometry) (opcodes : List (String × Nat)) : Except SchemaError Directory :=
  if geometry.Valid then (empty geometry).insertAll opcodes
  else .error (.invalidGeometry geometry.stateBits geometry.opcodeBits)

/-- The position of a symbol. -/
def indexOf? (directory : Directory) (symbol : String) : Option Nat :=
  directory.bySymbol.find? symbol

/-- The position of a code; a code past the end of the table has none. -/
def indexOfCode? (directory : Directory) (code : UInt8) : Option Nat :=
  (directory.byCode[code.toNat]?).join

/-- The code of a symbol. -/
def codeOf (directory : Directory) (symbol : String) : Except SchemaError UInt8 :=
  match found : directory.indexOf? symbol with
  | some position =>
      have inside := directory.bySymbol_lt symbol position found
      .ok directory.opcodes[position].code
  | none => .error (.unknownOpcode symbol)

/-- The symbol of a code. -/
def symbolOf? (directory : Directory) (code : UInt8) : Option String :=
  match found : directory.indexOfCode? code with
  | some position =>
      have inside := directory.byCode_lt code.toNat position (Option.join_eq_some_iff.mp found)
      some directory.opcodes[position].symbol
  | none => none

end Directory

end ControlStore
