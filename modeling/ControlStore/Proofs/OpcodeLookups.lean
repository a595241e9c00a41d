import ControlStore.Proofs.Lookup
import ControlStore.Proofs.Matched
import ControlStore.Proofs.OpcodeTable
import ControlStore.Schema.Directory

set_option autoImplicit false

/-!
Opcodes are found again where they were declared. The tables of a directory are changed with every
opcode that is declared; they answer as searching the list does, and refuse what it refuses.
-/
namespace ControlStore

-- Powers are those of the core library, whatever else is imported beside this module.
attribute [local instance (2000)] instPowNat

/-- The symbol of an opcode and its code as a number, as they are declared. -/
def Opcode.entry (opcode : Opcode) : String × Nat := (opcode.symbol, opcode.code.toNat)

/-- An item behind others that do not share its key is found at the end and hides none of them. -/
theorem findIdx?_key_append {α κ : Type} [DecidableEq κ] (key : α → κ) {items : List α} {item : α}
    (distinct : ((items ++ [item]).map key).Nodup) (wanted : κ) :
    (items ++ [item]).findIdx? (fun other => key other == wanted) =
      if key item = wanted then some items.length
      else items.findIdx? (fun other => key other == wanted) := by
  rw [List.findIdx?_append]
  by_cases last : key item = wanted
  · have absent : items.findIdx? (fun other => key other == wanted) = none := by
      rw [List.findIdx?_eq_none_iff]
      intro other member
      rw [List.map_append, List.nodup_append] at distinct
      rw [beq_eq_false_iff_ne, ← last]
      exact distinct.2.2 _ (List.mem_map_of_mem member) _ List.mem_cons_self
    rw [absent, if_pos last]
    simp [last]
  · rw [if_neg last]
    simp [last]

namespace Schema

variable {schema next : Schema} {opcode : Opcode}

theorem indexOf?_append (extended : next.opcodes = schema.opcodes ++ [opcode]) (symbol : String) :
    next.indexOf? symbol =
      if opcode.symbol = symbol then some schema.opcodes.length else schema.indexOf? symbol := by
  have distinct := next.symbols_distinct
  rw [extended] at distinct
  rw [indexOf?, extended]
  exact findIdx?_key_append _ distinct symbol

theorem indexOfCode?_append (extended : next.opcodes = schema.opcodes ++ [opcode]) (code : UInt8) :
    next.indexOfCode? code =
      if opcode.code = code then some schema.opcodes.length else schema.indexOfCode? code := by
  have distinct := next.codes_distinct
  rw [extended] at distinct
  rw [indexOfCode?, extended]
  exact findIdx?_key_append _ distinct code

/-- The opcode of a code is the one at its position. -/
theorem ofCode?_eq (schema : Schema) (code : UInt8) :
    schema.ofCode? code = (schema.indexOfCode? code).bind (schema.opcodes[·]?) :=
  List.find?_eq_bind_findIdx?_getElem?

end Schema

namespace Directory

/-- A directory holds the opcodes of a schema, and its tables tell the positions they have there. -/
structure Describes (directory : Directory) (schema : Schema) : Prop where
  geometry_eq : directory.geometry = schema.geometry
  opcodes_eq : directory.opcodes.toList = schema.opcodes
  size_eq : directory.byCode.size = schema.geometry.opcodeSpace
  indexOf?_eq : ∀ symbol, directory.indexOf? symbol = schema.indexOf? symbol
  indexOfCode?_eq : ∀ code, directory.indexOfCode? code = schema.indexOfCode? code

theorem describes_empty (geometry : Geometry) (valid : geometry.Valid) :
    (empty geometry).Describes (Schema.bare geometry valid) where
  geometry_eq := rfl
  opcodes_eq := rfl
  size_eq := Array.size_replicate
  indexOf?_eq := fun _ => rfl
  indexOfCode?_eq := by
    intro code
    rw [indexOfCode?, empty, Array.getElem?_replicate]
    split <;> rfl

namespace Describes

variable {directory : Directory} {schema : Schema}

theorem getElem?_opcodes (described : directory.Describes schema) (position : Nat) :
    schema.opcodes[position]? = directory.opcodes[position]? := by
  rw [← described.opcodes_eq, Array.getElem?_toList]

theorem isSome_iff (described : directory.Describes schema) (symbol : String) :
    (directory.bySymbol.find? symbol).isSome ↔ symbol ∈ schema.opcodes.map (·.symbol) := by
  have answer := described.indexOf?_eq symbol
  rw [indexOf?] at answer
  rw [answer, ← Decidable.not_iff_not, ← schema.indexOf?_eq_none_iff, Option.not_isSome_iff_eq_none]

theorem ofCode?_eq (described : directory.Describes schema) (code : UInt8) :
    schema.ofCode? code = (directory.indexOfCode? code).bind (directory.opcodes[·]?) := by
  rw [schema.ofCode?_eq, described.indexOfCode?_eq]
  exact congrArg _ (funext described.getElem?_opcodes)

/-- A code that has a place is kept whole in its byte. -/
theorem toNat_ofNat (described : directory.Describes schema) {code : Nat}
    (fits : code < directory.byCode.size) : (UInt8.ofNat code).toNat = code := by
  rw [described.size_eq] at fits
  exact schema.geometry.toNat_code schema.valid fits

theorem ofCode?_place (described : directory.Describes schema) {code : Nat}
    (fits : code < directory.byCode.size) :
    schema.ofCode? (UInt8.ofNat code) = directory.byCode[code].bind (directory.opcodes[·]?) := by
  rw [described.ofCode?_eq, indexOfCode?, described.toNat_ofNat fits,
    Array.getElem?_eq_getElem fits, Option.join_some]

/-- The tables change as the list does: the new opcode is found at the end, the others where they
were. -/
theorem enter {next : Schema} {symbol : String} {code : Nat}
    (described : directory.Describes schema) (fits : code < directory.byCode.size)
    (geometry : next.geometry = schema.geometry)
    (extended : next.opcodes = schema.opcodes ++ [⟨symbol, UInt8.ofNat code⟩]) :
    (directory.enter symbol code fits).Describes next := by
  have size : schema.opcodes.length = directory.opcodes.size := by
    rw [← described.opcodes_eq, Array.length_toList]
  refine ⟨described.geometry_eq.trans geometry.symm, ?_, ?_, ?_, ?_⟩
  · rw [Directory.enter, Array.toList_push, described.opcodes_eq, extended]
  · rw [Directory.enter, Array.size_set, described.size_eq, geometry]
  · intro other
    rw [indexOf?, Directory.enter, NameMap.find?_insert, Schema.indexOf?_append extended, size]
    exact congrArg _ (described.indexOf?_eq other)
  · intro other
    rw [indexOfCode?, Directory.enter, Array.getElem?_set, Schema.indexOfCode?_append extended,
      size, ← described.indexOfCode?_eq]
    by_cases same : UInt8.ofNat code = other
    · subst same
      rw [if_pos (described.toNat_ofNat fits).symm, if_pos rfl]
      rfl
    · have apart : code ≠ other.toNat := by
        intro equal
        exact same (by rw [equal, UInt8.ofNat_toNat])
      rw [if_neg apart, if_neg same]
      rfl

/-- Declaring one more opcode fails with the same fault, or keeps list and tables together. -/
theorem insert (described : directory.Describes schema) (symbol : String) (code : Nat) :
    Matched Eq Describes (directory.insert symbol code) (schema.declare symbol code) := by
  unfold Directory.insert Schema.declare
  split
  · rename_i repeated
    rw [dif_pos ((described.isSome_iff symbol).mp repeated)]
    exact rfl
  · rename_i fresh
    rw [dif_neg fun repeated => fresh ((described.isSome_iff symbol).mpr repeated)]
    split
    · rename_i fits
      have holder := described.ofCode?_place fits
      rw [dif_pos (described.size_eq ▸ fits)]
      split
      · rename_i position held
        have inside := directory.byCode_lt code position
          (by rw [Array.getElem?_eq_getElem fits, held])
        rw [held, Option.bind_some, Array.getElem?_eq_getElem inside] at holder
        split
        · rename_i earlier taken
          cases holder.symm.trans taken
          exact rfl
        · rename_i free
          cases holder.symm.trans free
      · rename_i held
        rw [held, Option.bind_none] at holder
        split
        · rename_i earlier taken
          cases holder.symm.trans taken
        · exact described.enter fits rfl rfl
    · rename_i wide
      rw [dif_neg (described.size_eq ▸ wide), described.geometry_eq]
      exact rfl

theorem insertAll (described : directory.Describes schema) (entries : List (String × Nat)) :
    Matched Eq Describes (directory.insertAll entries) (schema.declareAll entries) := by
  induction entries generalizing directory schema with
  | nil => exact described
  | cons entry rest ih =>
      unfold Directory.insertAll at ih ⊢
      rw [List.foldlM_cons, Schema.declareAll_cons]
      exact (described.insert entry.1 entry.2).bind fun _ _ next => ih next

theorem codeOf_eq (described : directory.Describes schema) (symbol : String) :
    directory.codeOf symbol = schema.codeOf symbol := by
  unfold Directory.codeOf
  split
  · rename_i position found
    have inside := directory.bySymbol_lt symbol position found
    have named := schema.indexOf?_eq_some_iff.mp ((described.indexOf?_eq symbol).symm.trans found)
    rw [described.getElem?_opcodes, Array.getElem?_eq_getElem inside, Option.map_some,
      Option.some.injEq] at named
    have located := (described.getElem?_opcodes position).trans (Array.getElem?_eq_getElem inside)
    subst named
    exact (schema.codeOf_eq_ok_iff.mpr (List.mem_of_getElem? located)).symm
  · rename_i absent
    rw [described.indexOf?_eq, schema.indexOf?_eq_none_iff] at absent
    unfold Schema.codeOf
    split
    · rename_i opcode found
      have named : opcode.symbol = symbol := by simpa using List.find?_some found
      exact absurd (named ▸ List.mem_map_of_mem (List.mem_of_find?_eq_some found)) absent
    · rfl

theorem symbolOf?_eq (described : directory.Describes schema) (code : UInt8) :
    directory.symbolOf? code = schema.symbolOf? code := by
  rw [Schema.symbolOf?, described.ofCode?_eq]
  unfold Directory.symbolOf?
  split
  · rename_i position found
    have inside := directory.byCode_lt code.toNat position (Option.join_eq_some_iff.mp found)
    have opcode : (directory.indexOfCode? code).bind (directory.opcodes[·]?) =
        some directory.opcodes[position] := by
      rw [found, Option.bind_some, Array.getElem?_eq_getElem inside]
    rw [opcode, Option.map_some]
  · rename_i absent
    rw [absent, Option.bind_none, Option.map_none]

end Describes

/-- A directory and a schema are built from the same opcodes, or refused for the same fault. -/
theorem build_matched (geometry : Geometry) (entries : List (String × Nat)) :
    Matched Eq Describes (build geometry entries) (Schema.build geometry entries) := by
  unfold build Schema.build
  split
  · rename_i valid
    exact (describes_empty geometry valid).insertAll entries
  · exact rfl

end Directory

/-! ### Accepted opcodes -/

namespace Schema

variable {geometry : Geometry} {entries : List (String × Nat)} {schema : Schema}

/-- Building keeps the entries as they were given: each code is whole in its byte. -/
theorem entries_of_build (accepted : build geometry entries = .ok schema) :
    schema.opcodes.map Opcode.entry = entries := by
  obtain ⟨rfl, -, opcodes, fit⟩ := build_eq_ok_iff.mp accepted
  rw [opcodes, List.map_map]
  refine (List.map_congr_left fun entry member => ?_).trans (List.map_id _)
  rw [Function.comp_apply, Opcode.entry, Opcode.ofEntry,
    schema.geometry.toNat_code schema.valid (fit entry member)]
  rfl

/-- A byte at which no code fits is the code of no opcode. -/
theorem indexOfCode?_of_le (schema : Schema) {code : UInt8}
    (wide : schema.geometry.opcodeSpace ≤ code.toNat) : schema.indexOfCode? code = none := by
  rw [schema.indexOfCode?_eq_none_iff]
  rintro opcode declared rfl
  exact absurd (schema.codes_fit opcode declared) (Nat.not_lt.mpr wide)

end Schema

/-- What is declared is found again, whatever defaults are set afterwards. Accepted opcodes are kept
in their order, with every code whole; a symbol and a code are found at the position where they were
declared and nowhere else, codes that do not fit nowhere, so that the symbol of a code and the code
of a symbol are each other's inverse. The tables of the directory answer the same. Setting one more
default changes the value of the signal it names and leaves all else. -/
theorem lookups_invert_declaration {geometry : Geometry} {entries defaults : List (String × Nat)}
    {built schema : Schema} (accepted : Schema.build geometry entries = .ok built)
    (defaulted : built.withDefaults defaults = .ok schema) :
    schema.opcodes.map Opcode.entry = entries ∧
    (∀ symbol i, schema.indexOf? symbol = some i ↔ (entries[i]?).map (·.1) = some symbol) ∧
    (∀ code i, schema.indexOfCode? code = some i ↔ (entries[i]?).map (·.2) = some code.toNat) ∧
    (∀ code, 2 ^ geometry.opcodeBits ≤ code.toNat → schema.indexOfCode? code = none) ∧
    (∀ symbol code, schema.symbolOf? code = some symbol ↔ schema.codeOf symbol = .ok code) ∧
    (∃ directory, Directory.build geometry entries = .ok directory ∧
      directory.opcodes.toList = schema.opcodes ∧
      (∀ symbol, directory.indexOf? symbol = schema.indexOf? symbol ∧
        directory.codeOf symbol = schema.codeOf symbol) ∧
      ∀ code, directory.indexOfCode? code = schema.indexOfCode? code ∧
        directory.symbolOf? code = schema.symbolOf? code) ∧
    ∀ name value changed, schema.withDefault name value = .ok changed →
      changed.geometry = schema.geometry ∧ changed.opcodes = schema.opcodes ∧
        ∃ s : Signal, s.name = name ∧
          ∀ t, changed.defaults.get t = if s = t then value else schema.defaults.get t := by
  obtain ⟨directory, filled, described⟩ :=
    (Directory.build_matched geometry entries).exists_ok_left accepted
  have kept := Schema.entries_of_build accepted
  obtain ⟨rfl, -⟩ := Schema.build_eq_ok_iff.mp accepted
  obtain ⟨a, rfl⟩ := Schema.exists_withDefaults defaulted
  refine ⟨kept, ?_, ?_, ?_, ?_, ⟨directory, filled, described.opcodes_eq, ?_, ?_⟩, ?_⟩
  · intro symbol i
    rw [Schema.indexOf?_eq_some_iff, ← kept, List.getElem?_map, Option.map_map]
    rfl
  · intro code i
    rw [Schema.indexOfCode?_eq_some_iff, ← kept, List.getElem?_map, Option.map_map]
    cases built.opcodes[i]? <;> simp [Opcode.entry, UInt8.toNat_inj]
  · intro code wide
    exact Schema.indexOfCode?_of_le _ wide
  · intro symbol code
    rw [Schema.symbolOf?_eq_some_iff, Schema.codeOf_eq_ok_iff]
  · intro symbol
    exact ⟨described.indexOf?_eq symbol, described.codeOf_eq symbol⟩
  · intro code
    exact ⟨described.indexOfCode?_eq code, described.symbolOf?_eq code⟩
  · intro name value changed success
    obtain ⟨s, named, rfl⟩ := Schema.withDefault_eq_ok_iff.mp success
    exact ⟨rfl, rfl, s, named, fun t => Assignment.get_set ..⟩

/-- Three opcodes under the standard geometry: `BEQ` stands last, 16 is the code of `ADD`, 255 does
not fit, and a default for `alu_op` leaves that of `b_select`. -/
theorem lookups_invert_declaration_branch : ∃ built schema directory,
    Schema.build .standard [("NOOP", 0x00), ("ADD", 0x10), ("BEQ", 0x40)] = .ok built ∧
      built.withDefaults [("b_select", 3)] = .ok schema ∧
      Directory.build .standard [("NOOP", 0x00), ("ADD", 0x10), ("BEQ", 0x40)] = .ok directory ∧
      schema.indexOf? "BEQ" = some 2 ∧ directory.indexOf? "BEQ" = some 2 ∧
      schema.indexOfCode? 0x10 = some 1 ∧ schema.indexOfCode? 0xFF = none ∧
      schema.codeOf "ADD" = .ok 0x10 ∧ schema.symbolOf? 0x10 = some "ADD" ∧
      ∀ changed, schema.withDefault "alu_op" 37 = .ok changed →
        changed.defaults.get .aluOp = 37 ∧ changed.defaults.get .bSelect = 3 := by
  let built : Schema :=
    { geometry := .standard
      opcodes := [⟨"NOOP", 0x00⟩, ⟨"ADD", 0x10⟩, ⟨"BEQ", 0x40⟩]
      defaults := Assignment.zero
      valid := by decide
      symbols_distinct := by decide
      codes_distinct := by decide
      codes_fit := by decide }
  have accepted : Schema.build .standard [("NOOP", 0x00), ("ADD", 0x10), ("BEQ", 0x40)] =
      .ok built := Schema.build_eq_ok_iff.mpr ⟨rfl, rfl, rfl, by decide⟩
  let schema : Schema := { built with defaults := Assignment.zero.set .bSelect 3 }
  have defaulted : built.withDefaults [("b_select", 3)] = .ok schema := rfl
  obtain ⟨-, symbols, codes, wide, inverse, ⟨directory, filled, -, tables, -⟩, changes⟩ :=
    lookups_invert_declaration accepted defaulted
  have last : schema.indexOf? "BEQ" = some 2 := (symbols "BEQ" 2).mpr rfl
  have add : schema.codeOf "ADD" = .ok 0x10 := rfl
  refine ⟨built, schema, directory, accepted, defaulted, filled, last,
    (tables "BEQ").1.trans last, (codes 0x10 1).mpr rfl, wide 0xFF (by decide), add,
    (inverse "ADD" 0x10).mpr add, ?_⟩
  intro changed success
  obtain ⟨-, -, s, named, values⟩ := changes "alu_op" 37 changed success
  cases Signal.name_injective (t := Signal.aluOp) named
  exact ⟨values .aluOp, values .bSelect⟩

end ControlStore
