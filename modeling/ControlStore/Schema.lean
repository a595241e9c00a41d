import ControlStore.Geometry
import ControlStore.Record

set_option autoImplicit false

/-!
A schema is what a program is compiled against: the geometry, the opcodes in order of declaration
and a default for every signal. Symbols and codes are distinct and codes fit the opcode field, so
an opcode can be found by either.
-/
namespace ControlStore

/-- An instruction: its mnemonic and the code that stands for it in an address. -/
structure Opcode where
  symbol : String
  code : UInt8
deriving DecidableEq, Repr

/-- A geometry, opcodes with distinct symbols and distinct fitting codes, and signal defaults. -/
structure Schema where
  geometry : Geometry
  opcodes : List Opcode
  defaults : Assignment
  valid : geometry.Valid
  symbols_distinct : (opcodes.map (·.symbol)).Nodup
  codes_distinct : (opcodes.map (·.code)).Nodup
  codes_fit : ∀ opcode ∈ opcodes, opcode.code.toNat < geometry.opcodeSpace

namespace Schema

/-- The schema without opcodes, all defaults zero. -/
def bare (geometry : Geometry) (valid : geometry.Valid) : Schema where
  geometry := geometry
  opcodes := []
  defaults := Assignment.zero
  valid := valid
  symbols_distinct := List.nodup_nil
  codes_distinct := List.nodup_nil
  codes_fit := fun _ member => absurd member List.not_mem_nil

private theorem nodup_append_singleton {α : Type} {items : List α} {item : α}
    (distinct : items.Nodup) (fresh : item ∉ items) : (items ++ [item]).Nodup := by
  refine List.nodup_append.mpr ⟨distinct, List.pairwise_singleton _ _, ?_⟩
  intro first member second last same
  rw [List.mem_singleton] at last
  exact fresh (last ▸ same ▸ member)

/-- The opcode of a code. -/
def ofCode? (schema : Schema) (code : UInt8) : Option Opcode :=
  schema.opcodes.find? (·.code == code)

/-- Declares one more opcode. A repeated symbol is refused first, then a code that does not fit,
then a code that is taken. -/
def declare (schema : Schema) (symbol : String) (code : Nat) : Except SchemaError Schema :=
  if repeated : symbol ∈ schema.opcodes.map (·.symbol) then .error (.duplicateOpcode symbol)
  else if fits : code < schema.geometry.opcodeSpace then
    match taken : schema.ofCode? (UInt8.ofNat code) with
    | some earlier => .error (.duplicateCode earlier.code earlier.symbol symbol)
    | none => .ok
        { schema with
          opcodes := schema.opcodes ++ [⟨symbol, UInt8.ofNat code⟩]
          symbols_distinct := by
            rw [List.map_append]
            exact nodup_append_singleton schema.symbols_distinct repeated
          codes_distinct := by
            rw [List.map_append]
            refine nodup_append_singleton schema.codes_distinct ?_
            intro member
            obtain ⟨opcode, declared, same⟩ := List.mem_map.mp member
            have free := List.find?_eq_none.mp taken opcode declared
            exact free (beq_iff_eq.mpr same)
          codes_fit := by
            intro opcode member
            rcases List.mem_append.mp member with old | new
            · exact schema.codes_fit opcode old
            · rw [List.mem_singleton.mp new]
              have byte : code < 256 :=
                Nat.lt_of_lt_of_le fits (schema.geometry.opcodeSpace_le schema.valid)
              simpa only [UInt8.toNat_ofNat', Nat.reducePow, Nat.mod_eq_of_lt byte] using fits }
  else .error (.codeOutOfRange symbol code schema.geometry.opcodeBits)

/-- Declares opcodes from left to right. -/
def declareAll (schema : Schema) (opcodes : List (String × Nat)) : Except SchemaError Schema :=
  opcodes.foldlM (fun held entry => held.declare entry.1 entry.2) schema

/-- The schema of a geometry and its opcodes, all defaults zero. -/
def build (geometry : Geometry) (opcodes : List (String × Nat)) : Except SchemaError Schema :=
  if valid : geometry.Valid then (bare geometry valid).declareAll opcodes
  else .error (.invalidGeometry geometry.stateBits geometry.opcodeBits)

/-- Changes the default of a named signal. -/
def withDefault (schema : Schema) (name : String) (value : Nat) : Except SchemaError Schema :=
  match Signal.ofName? name with
  | some s => .ok { schema with defaults := schema.defaults.set s value }
  | none => .error (.unknownField name)

/-- Changes defaults from left to right. -/
def withDefaults (schema : Schema) (defaults : List (String × Nat)) : Except SchemaError Schema :=
  defaults.foldlM (fun held entry => held.withDefault entry.1 entry.2) schema

/-- The position of a symbol in the order of declaration. -/
def indexOf? (schema : Schema) (symbol : String) : Option Nat :=
  schema.opcodes.findIdx? (·.symbol == symbol)

/-- The position of a code in the order of declaration. -/
def indexOfCode? (schema : Schema) (code : UInt8) : Option Nat :=
  schema.opcodes.findIdx? (·.code == code)

/-- The code of a symbol. -/
def codeOf (schema : Schema) (symbol : String) : Except SchemaError UInt8 :=
  match schema.opcodes.find? (·.symbol == symbol) with
  | some opcode => .ok opcode.code
  | none => .error (.unknownOpcode symbol)

/-- The symbol of a code; a code without an opcode has none. -/
def symbolOf? (schema : Schema) (code : UInt8) : Option String :=
  (schema.ofCode? code).map (·.symbol)

end Schema

end ControlStore
