import ControlStore.Checked.Registry
import ControlStore.Proofs.CheckedAccess
import ControlStore.Proofs.OpcodeLookups

set_option autoImplicit false

/-!
A registry keeps its positions inside. It holds what a directory holds, whose tables are known to
give positions of opcodes only; built alike, it finds every opcode that its tables point at, has a
place for every code that fits, and keeps the code whole in its byte.
-/
namespace ControlStore.Checked.Registry

-- Powers are those of the core library, whatever else is imported beside this module.
attribute [local instance (2000)] instPowNat

variable {ε : Type} {directory : Directory} {registry : Registry} {schema : Schema}

/-- The registry of a directory and some defaults. -/
abbrev ofDirectory (directory : Directory) (defaults : Assignment) : Registry where
  geometry := directory.geometry
  opcodes := directory.opcodes
  bySymbol := directory.bySymbol
  byCode := directory.byCode
  defaults := defaults

/-- A registry holds a schema: its opcodes and tables are those of a directory of the schema, its
defaults those of the schema. -/
def Holds (registry : Registry) (schema : Schema) : Prop :=
  ∃ directory : Directory, directory.Describes schema ∧
    registry = ofDirectory directory schema.defaults

/-- Declaring one more opcode reads and writes places that are there, as long as all codes that have
a place are bytes. -/
theorem insert_ofDirectory (bytes : directory.byCode.size ≤ UInt8.size) (defaults : Assignment)
    (symbol : String) (code : Nat) :
    RunsAs (fun registry next => registry = ofDirectory next defaults)
      ((ofDirectory directory defaults).insert symbol code) (directory.insert symbol code) := by
  unfold insert Directory.insert
  dsimp only [ofDirectory]
  split
  · exact rfl
  · split
    · rename_i fits
      rw [read_of_lt fits, ok_bind]
      split
      · rename_i position held
        have inside := directory.byCode_lt code position
          (by rw [Array.getElem?_eq_getElem fits, held])
        simp only [read_of_lt inside]
        split
        · rename_i other also
          cases held.symm.trans also
          exact rfl
        · rename_i free
          cases held.symm.trans free
      · rename_i held
        rw [narrow_of_lt (Nat.lt_of_lt_of_le fits bytes), write_of_lt fits]
        split
        · rename_i other taken
          cases held.symm.trans taken
        · exact rfl
    · exact rfl

namespace Holds

theorem geometry_eq (holds : registry.Holds schema) : registry.geometry = schema.geometry := by
  obtain ⟨directory, described, rfl⟩ := holds
  exact described.geometry_eq

theorem defaults_eq (holds : registry.Holds schema) : registry.defaults = schema.defaults := by
  obtain ⟨directory, described, rfl⟩ := holds
  rfl

theorem opcodes_eq (holds : registry.Holds schema) : registry.opcodes.toList = schema.opcodes := by
  obtain ⟨directory, described, rfl⟩ := holds
  exact described.opcodes_eq

theorem size_opcodes (holds : registry.Holds schema) :
    registry.opcodes.size = schema.opcodes.length := by
  rw [← holds.opcodes_eq, Array.length_toList]

theorem size_byCode (holds : registry.Holds schema) :
    registry.byCode.size = schema.geometry.opcodeSpace := by
  obtain ⟨directory, described, rfl⟩ := holds
  exact described.size_eq

theorem indexOf?_eq (holds : registry.Holds schema) (symbol : String) :
    registry.indexOf? symbol = schema.indexOf? symbol := by
  obtain ⟨directory, described, rfl⟩ := holds
  exact described.indexOf?_eq symbol

theorem indexOfCode?_eq (holds : registry.Holds schema) (code : UInt8) :
    registry.indexOfCode? code = schema.indexOfCode? code := by
  obtain ⟨directory, described, rfl⟩ := holds
  exact described.indexOfCode?_eq code

theorem insert (holds : registry.Holds schema) (symbol : String) (code : Nat) :
    RunsAs Holds (registry.insert symbol code) (schema.declare symbol code) := by
  have bytes : registry.byCode.size ≤ UInt8.size :=
    holds.size_byCode ▸ schema.geometry.opcodeSpace_le schema.valid
  obtain ⟨directory, described, rfl⟩ := holds
  refine (insert_ofDirectory bytes schema.defaults symbol code).trans
    (described.insert symbol code) ?_
  intro next entered last declared same describes
  obtain ⟨-, defaults, -⟩ := Schema.declare_eq_ok_iff.mp declared
  exact ⟨entered, describes, defaults ▸ same⟩

theorem insertAll (holds : registry.Holds schema) (entries : List (String × Nat)) :
    RunsAs Holds (registry.insertAll entries) (schema.declareAll entries) := by
  induction entries generalizing registry schema with
  | nil => exact holds
  | cons entry rest ih =>
      unfold Registry.insertAll at ih ⊢
      rw [List.foldlM_cons, Schema.declareAll_cons]
      exact (holds.insert entry.1 entry.2).bind fun _ _ next => ih next

theorem withDefault (holds : registry.Holds schema) (name : String) (value : Nat) :
    RunsAs Holds (registry.withDefault name value) (schema.withDefault name value) := by
  obtain ⟨directory, described, rfl⟩ := holds
  unfold Registry.withDefault Schema.withDefault
  cases Signal.ofName? name with
  | none => exact rfl
  | some s => exact ⟨directory, { described with }, rfl⟩

theorem withDefaults (holds : registry.Holds schema) (defaults : List (String × Nat)) :
    RunsAs Holds (registry.withDefaults defaults) (schema.withDefaults defaults) := by
  induction defaults generalizing registry schema with
  | nil => exact holds
  | cons entry rest ih =>
      unfold Registry.withDefaults Schema.withDefaults at ih ⊢
      rw [List.foldlM_cons, List.foldlM_cons]
      exact (holds.withDefault entry.1 entry.2).bind fun _ _ next => ih next

/-- The position that a symbol has is one of an opcode. -/
theorem codeOf_eq (holds : registry.Holds schema) (symbol : String) :
    registry.codeOf symbol = tell (schema.codeOf symbol) := by
  obtain ⟨directory, described, rfl⟩ := holds
  rw [← described.codeOf_eq]
  unfold Directory.codeOf
  split
  · rename_i position found
    have located : (ofDirectory directory schema.defaults).indexOf? symbol = some position := found
    rw [Registry.codeOf, located]
    simp only [read_of_lt (directory.bySymbol_lt symbol position found)]
    rfl
  · rename_i absent
    have unknown : (ofDirectory directory schema.defaults).indexOf? symbol = none := absent
    rw [Registry.codeOf, unknown]
    rfl

/-- The position that a code has is one of an opcode. -/
theorem symbolOf?_eq (holds : registry.Holds schema) (code : UInt8) :
    (registry.symbolOf? code : Checked ε (Option String)) = .ok (schema.symbolOf? code) := by
  obtain ⟨directory, described, rfl⟩ := holds
  rw [← described.symbolOf?_eq]
  unfold Directory.symbolOf?
  split
  · rename_i position found
    have located : (ofDirectory directory schema.defaults).indexOfCode? code = some position :=
      found
    have inside := directory.byCode_lt code.toNat position (Option.join_eq_some_iff.mp found)
    rw [Registry.symbolOf?, located]
    simp only [read_of_lt inside]
    rfl
  · rename_i absent
    have unmapped : (ofDirectory directory schema.defaults).indexOfCode? code = none := absent
    rw [Registry.symbolOf?, unmapped]

end Holds

/-- A registry is built, or refused, as a schema is. The table of codes is made after the widths are
known to be those of bytes. -/
theorem build_runsAs (geometry : Geometry) (entries : List (String × Nat)) :
    RunsAs Holds (build geometry entries) (Schema.build geometry entries) := by
  unfold build Schema.build
  split
  · rename_i valid
    have room : geometry.opcodeBits < 64 := Nat.lt_of_le_of_lt valid.2.2 (by decide)
    rw [power_of_lt room, ok_bind, toNat_power room]
    have bare : (ofDirectory (.empty geometry) .zero).Holds (Schema.bare geometry valid) :=
      ⟨_, Directory.describes_empty geometry valid, rfl⟩
    exact bare.insertAll entries
  · exact rfl

end ControlStore.Checked.Registry
