import ControlStore.Proofs.OpcodeLookups
import Mathlib.Data.List.Nodup

set_option autoImplicit false

/-!
Which opcodes a schema can be built from, and what is told of the others. What is wrong with an
entry is said by the entries before it; building tells the fault of the first entry that has one.
-/
namespace ControlStore

-- Powers are those of the core library, whatever else is imported beside this module.
attribute [local instance (2000)] instPowNat

/-- A fold fails where the first of its steps does, after the steps before it went well. -/
theorem foldlM_eq_error_iff {ε σ α : Type} {step : σ → α → Except ε σ} {start : σ}
    {items : List α} {fault : ε} :
    items.foldlM step start = .error fault ↔
      ∃ i item held, items[i]? = some item ∧ (items.take i).foldlM step start = .ok held ∧
        step held item = .error fault := by
  induction items generalizing start with
  | nil =>
      constructor
      · intro impossible
        cases impossible
      · rintro ⟨i, item, held, located, -⟩
        cases located
  | cons head rest ih =>
      rw [List.foldlM_cons]
      cases first : step start head with
      | error told =>
          constructor
          · intro failed
            cases failed
            exact ⟨0, head, start, rfl, rfl, first⟩
          · rintro ⟨i, item, held, located, before, failed⟩
            cases i with
            | zero =>
                cases located
                cases before
                rw [first] at failed
                exact failed
            | succ i =>
                rw [List.take_succ_cons, List.foldlM_cons, first] at before
                cases before
      | ok next =>
          refine ih.trans ⟨?_, ?_⟩
          · rintro ⟨i, item, held, located, before, failed⟩
            refine ⟨i + 1, item, held, located, ?_, failed⟩
            rw [List.take_succ_cons, List.foldlM_cons, first]
            exact before
          · rintro ⟨i, item, held, located, before, failed⟩
            cases i with
            | zero =>
                cases located
                cases before
                cases first.symm.trans failed
            | succ i =>
                rw [List.take_succ_cons, List.foldlM_cons, first] at before
                exact ⟨i, item, held, located, before, failed⟩

namespace Schema

/-- What is wrong with a symbol and a code that are declared behind other entries: the symbol is not
new, or else the code has more bits than it may, or else an earlier symbol has it. -/
inductive EntryFault (bits : Nat) (before : List (String × Nat)) (symbol : String) (code : Nat) :
    SchemaError → Prop
  | repeated (known : symbol ∈ before.map (·.1)) :
      EntryFault bits before symbol code (.duplicateOpcode symbol)
  | wide (fresh : symbol ∉ before.map (·.1)) (exceeds : 2 ^ bits ≤ code) :
      EntryFault bits before symbol code (.codeOutOfRange symbol code bits)
  | taken (fresh : symbol ∉ before.map (·.1)) (fits : code < 2 ^ bits) {earlier : String}
      (holds : (earlier, code) ∈ before) :
      EntryFault bits before symbol code (.duplicateCode (UInt8.ofNat code) earlier symbol)

/-- The entry at a position has a fault. -/
def FaultAt (bits : Nat) (entries : List (String × Nat)) (i : Nat) (fault : SchemaError) : Prop :=
  ∃ symbol code, entries[i]? = some (symbol, code) ∧
    EntryFault bits (entries.take i) symbol code fault

/-- A code that fits is held by the opcode that was declared with it. -/
theorem ofCode?_ofNat (schema : Schema) {code : Nat} (fits : code < schema.geometry.opcodeSpace)
    {opcode : Opcode} :
    schema.ofCode? (UInt8.ofNat code) = some opcode ↔
      opcode ∈ schema.opcodes ∧ opcode.code.toNat = code := by
  rw [ofCode?, find?_key_eq_some_iff _ schema.codes_distinct, ← UInt8.toNat_inj,
    schema.geometry.toNat_code schema.valid fits]

/-- Declaring one more entry tells what is wrong with it behind those that are declared. -/
theorem declare_eq_error_iff (schema : Schema) {symbol : String} {code : Nat}
    {fault : SchemaError} :
    schema.declare symbol code = .error fault ↔
      EntryFault schema.geometry.opcodeBits (schema.opcodes.map Opcode.entry) symbol code
        fault := by
  have symbols : (schema.opcodes.map Opcode.entry).map (·.1) = schema.opcodes.map (·.symbol) :=
    List.map_map
  unfold declare
  constructor
  · intro failed
    split at failed
    · rename_i known
      cases failed
      exact .repeated (symbols ▸ known)
    · rename_i fresh
      split at failed
      · rename_i fits
        split at failed
        · rename_i earlier held
          cases failed
          obtain ⟨declared, rfl⟩ := (schema.ofCode?_ofNat fits).mp held
          have holds := List.mem_map_of_mem (f := Opcode.entry) declared
          have told := EntryFault.taken (symbols ▸ fresh) fits holds
          rwa [UInt8.ofNat_toNat] at told
        · cases failed
      · rename_i exceeds
        cases failed
        exact .wide (symbols ▸ fresh) (Nat.not_lt.mp exceeds)
  · intro told
    cases told with
    | repeated known => rw [dif_pos (symbols ▸ known)]
    | wide fresh exceeds =>
        have unfit : ¬ code < schema.geometry.opcodeSpace := Nat.not_lt.mpr exceeds
        rw [dif_neg (symbols ▸ fresh), dif_neg unfit]
    | taken fresh fits holds =>
        obtain ⟨opcode, declared, same⟩ := List.mem_map.mp holds
        obtain ⟨rfl, rfl⟩ := Prod.mk.inj same
        have fit : opcode.code.toNat < schema.geometry.opcodeSpace := fits
        have held := (schema.ofCode?_ofNat fit).mpr ⟨declared, rfl⟩
        rw [dif_neg (symbols ▸ fresh), dif_pos fit]
        split
        · rename_i other found
          cases held.symm.trans found
          rw [UInt8.ofNat_toNat]
        · rename_i free
          cases held.symm.trans free

/-! ### Entries -/

variable {geometry : Geometry} {entries : List (String × Nat)}

/-- Codes that fit are told apart by their bytes. -/
theorem nodup_bytes (valid : geometry.Valid)
    (fit : ∀ entry ∈ entries, entry.2 < geometry.opcodeSpace) :
    ((entries.map (·.2)).map UInt8.ofNat).Nodup ↔ (entries.map (·.2)).Nodup := by
  have whole : ∀ code ∈ entries.map (·.2), (UInt8.ofNat code).toNat = code := by
    intro code member
    obtain ⟨entry, listed, rfl⟩ := List.mem_map.mp member
    exact geometry.toNat_code valid (fit entry listed)
  constructor
  · intro distinct
    exact distinct.of_map _
  · intro distinct
    refine distinct.map_on fun first listed second alsoListed same => ?_
    rw [← whole first listed, same, whole second alsoListed]

/-- The schema of entries that go together. -/
def ofEntries (valid : geometry.Valid) (symbols : (entries.map (·.1)).Nodup)
    (codes : (entries.map (·.2)).Nodup)
    (fit : ∀ entry ∈ entries, entry.2 < geometry.opcodeSpace) : Schema where
  geometry := geometry
  opcodes := entries.map Opcode.ofEntry
  defaults := Assignment.zero
  valid := valid
  symbols_distinct := by
    rw [List.map_map]
    exact symbols
  codes_distinct := by
    have bytes := (nodup_bytes valid fit).mpr codes
    rw [List.map_map] at bytes ⊢
    exact bytes
  codes_fit := by
    intro opcode member
    obtain ⟨entry, listed, rfl⟩ := List.mem_map.mp member
    rw [Opcode.ofEntry, geometry.toNat_code valid (fit entry listed)]
    exact fit entry listed

/-- Entries that can be declared together. -/
theorem exists_build_iff :
    (∃ schema, build geometry entries = .ok schema) ↔
      geometry.Valid ∧ (entries.map (·.1)).Nodup ∧ (entries.map (·.2)).Nodup ∧
        ∀ entry ∈ entries, entry.2 < geometry.opcodeSpace := by
  constructor
  · rintro ⟨schema, accepted⟩
    obtain ⟨rfl, -, opcodes, fit⟩ := build_eq_ok_iff.mp accepted
    have symbols := schema.symbols_distinct
    have codes := schema.codes_distinct
    rw [opcodes, List.map_map] at symbols codes
    refine ⟨schema.valid, symbols, (nodup_bytes schema.valid fit).mp ?_, fit⟩
    rw [List.map_map]
    exact codes
  · rintro ⟨valid, symbols, codes, fit⟩
    exact ⟨ofEntries valid symbols codes fit, build_eq_ok_iff.mpr ⟨rfl, rfl, rfl, fit⟩⟩

/-- Under a valid geometry building fails at an entry with a fault behind entries that it takes. -/
theorem build_eq_error_iff (valid : geometry.Valid) {fault : SchemaError} :
    build geometry entries = .error fault ↔
      ∃ i, (∃ schema, build geometry (entries.take i) = .ok schema) ∧
        FaultAt geometry.opcodeBits entries i fault := by
  have steps (front : List (String × Nat)) : build geometry front =
      front.foldlM (fun held entry => held.declare entry.1 entry.2) (bare geometry valid) := by
    rw [build, dif_pos valid]
    rfl
  rw [steps, foldlM_eq_error_iff]
  constructor
  · rintro ⟨i, ⟨symbol, code⟩, schema, located, before, failed⟩
    rw [← steps] at before
    have told := schema.declare_eq_error_iff.mp failed
    rw [entries_of_build before, (build_eq_ok_iff.mp before).1] at told
    exact ⟨i, ⟨schema, before⟩, symbol, code, located, told⟩
  · rintro ⟨i, ⟨schema, before⟩, symbol, code, located, told⟩
    refine ⟨i, (symbol, code), schema, located, (steps _).symm.trans before, ?_⟩
    rw [← entries_of_build before, ← (build_eq_ok_iff.mp before).1] at told
    exact schema.declare_eq_error_iff.mpr told

theorem faultAt_take {bits i j : Nat} {fault : SchemaError} :
    FaultAt bits (entries.take i) j fault ↔ j < i ∧ FaultAt bits entries j fault := by
  unfold FaultAt
  by_cases before : j < i
  · rw [List.getElem?_take_of_lt before, List.take_take, Nat.min_eq_left (Nat.le_of_lt before)]
    exact (and_iff_right before).symm
  · refine iff_of_false ?_ fun both => before both.1
    rintro ⟨symbol, code, located, -⟩
    rw [List.getElem?_take, if_neg before] at located
    cases located

/-- Entries that are taken are taken without the last of them. -/
theorem exists_build_take (i : Nat) (taken : ∃ schema, build geometry entries = .ok schema) :
    ∃ schema, build geometry (entries.take i) = .ok schema := by
  obtain ⟨valid, symbols, codes, fit⟩ := exists_build_iff.mp taken
  have front := List.take_sublist i entries
  exact exists_build_iff.mpr ⟨valid, symbols.sublist (front.map _), codes.sublist (front.map _),
    fun entry listed => fit entry (front.subset listed)⟩

/-- Entries are taken up to a position exactly if none of them has a fault. -/
theorem exists_build_take_iff (valid : geometry.Valid) (i : Nat) :
    (∃ schema, build geometry (entries.take i) = .ok schema) ↔
      ∀ j < i, ∀ fault, ¬ FaultAt geometry.opcodeBits entries j fault := by
  constructor
  · rintro taken j before fault faulty
    have front := exists_build_take j taken
    have failed := (build_eq_error_iff valid).mpr ⟨j, front, faultAt_take.mpr ⟨before, faulty⟩⟩
    obtain ⟨schema, success⟩ := taken
    cases success.symm.trans failed
  · intro faultless
    cases result : build geometry (entries.take i) with
    | ok schema => exact ⟨schema, rfl⟩
    | error fault =>
        obtain ⟨j, -, faulty⟩ := (build_eq_error_iff valid).mp result
        obtain ⟨before, here⟩ := faultAt_take.mp faulty
        exact absurd here (faultless j before fault)

end Schema

/-- A schema is built exactly from a valid geometry and entries with distinct symbols and distinct
codes that fit. Of anything else an invalid geometry is told first, and else the fault of the first
entry that has one: a symbol that is not new before a code that does not fit, and that before a code
that an earlier symbol has. -/
theorem build_tells_first_fault (geometry : Geometry) (entries : List (String × Nat)) :
    ((∃ schema, Schema.build geometry entries = .ok schema) ↔
      ((1 ≤ geometry.stateBits ∧ geometry.stateBits ≤ 8) ∧
        1 ≤ geometry.opcodeBits ∧ geometry.opcodeBits ≤ 8) ∧
        (entries.map (·.1)).Nodup ∧ (entries.map (·.2)).Nodup ∧
        ∀ entry ∈ entries, entry.2 < 2 ^ geometry.opcodeBits) ∧
    ∀ fault, Schema.build geometry entries = .error fault ↔
      if geometry.Valid then
        ∃ i, Schema.FaultAt geometry.opcodeBits entries i fault ∧
          ∀ j < i, ∀ other, ¬ Schema.FaultAt geometry.opcodeBits entries j other
      else fault = .invalidGeometry geometry.stateBits geometry.opcodeBits := by
  refine ⟨Schema.exists_build_iff, fun fault => ?_⟩
  split
  · rename_i valid
    rw [Schema.build_eq_error_iff valid]
    refine exists_congr fun i => ?_
    rw [Schema.exists_build_take_iff valid, and_comm]
  · rename_i invalid
    rw [Schema.build, dif_neg invalid, Except.error.injEq]
    exact eq_comm

/-- A symbol that is repeated is told before its code, which does not fit, and before the entry
behind it, whose code is taken; an invalid geometry is told before all of them. -/
theorem build_tells_first_fault_repeated :
    Schema.build ⟨5, 7⟩ [("BZ", 0x41), ("ADD", 0x10), ("BZ", 0x100), ("BNZ", 0x41)] =
        .error (.duplicateOpcode "BZ") ∧
      Schema.build ⟨9, 7⟩ [("BZ", 0x41), ("BZ", 0x41)] = .error (.invalidGeometry 9 7) := by
  constructor
  · have front : ∃ schema, Schema.build ⟨5, 7⟩ [("BZ", 0x41), ("ADD", 0x10)] = .ok schema :=
      Schema.exists_build_iff.mpr (by decide)
    refine ((build_tells_first_fault _ _).2 _).mpr ?_
    rw [if_pos (by decide)]
    exact ⟨2, ⟨"BZ", 0x100, rfl, .repeated (by decide)⟩,
      (Schema.exists_build_take_iff (by decide) 2).mp front⟩
  · refine ((build_tells_first_fault _ _).2 _).mpr ?_
    rw [if_neg (by decide)]

end ControlStore
