import ControlStore.Proofs.FirstFault
import ControlStore.Schema

set_option autoImplicit false

/-!
What a schema that was built holds. Declaring appends, and since a schema keeps its symbols and
codes distinct, opcodes can be declared exactly if there is a schema that holds them and every code
fits. Defaults are set behind them and leave them as they are.
-/
namespace ControlStore

/-- A code that fits is kept whole in its byte. -/
theorem Geometry.toNat_code (g : Geometry) (valid : g.Valid) {code : Nat}
    (fits : code < g.opcodeSpace) : (UInt8.ofNat code).toNat = code :=
  UInt8.toNat_ofNat_of_lt' (Nat.lt_of_lt_of_le fits (g.opcodeSpace_le valid))

/-- The opcode of a symbol and its number. -/
def Opcode.ofEntry (entry : String × Nat) : Opcode := ⟨entry.1, UInt8.ofNat entry.2⟩

namespace Schema

/-- A schema is its geometry, its opcodes and its defaults. -/
theorem ext {first second : Schema} (geometry : first.geometry = second.geometry)
    (opcodes : first.opcodes = second.opcodes) (defaults : first.defaults = second.defaults) :
    first = second := by
  cases first
  cases second
  cases geometry
  cases opcodes
  cases defaults
  rfl

theorem declare_eq_ok_iff {schema next : Schema} {symbol : String} {code : Nat} :
    schema.declare symbol code = .ok next ↔
      next.geometry = schema.geometry ∧ next.defaults = schema.defaults ∧
        next.opcodes = schema.opcodes ++ [Opcode.ofEntry (symbol, code)] ∧
        code < schema.geometry.opcodeSpace := by
  unfold declare
  constructor
  · intro success
    split at success
    · cases success
    · split at success
      · rename_i fits
        split at success
        · cases success
        · cases success
          exact ⟨rfl, rfl, rfl, fits⟩
      · cases success
  · rintro ⟨geometry, defaults, opcodes, fits⟩
    have symbols := next.symbols_distinct
    have codes := next.codes_distinct
    rw [opcodes, List.map_append, List.nodup_append] at symbols codes
    split
    · rename_i repeated
      exact absurd rfl (symbols.2.2 symbol repeated symbol (by simp [Opcode.ofEntry]))
    · split
      · rename_i earlier taken
        have same : earlier.code = UInt8.ofNat code := by simpa using List.find?_some taken
        have member := List.mem_map_of_mem (f := Opcode.code) (List.mem_of_find?_eq_some taken)
        exact absurd same (codes.2.2 _ member _ (by simp [Opcode.ofEntry]))
      · exact congrArg Except.ok (ext geometry.symm opcodes.symm defaults.symm)

theorem declareAll_cons (schema : Schema) (entry : String × Nat) (rest : List (String × Nat)) :
    schema.declareAll (entry :: rest) =
      schema.declare entry.1 entry.2 >>= fun next => next.declareAll rest := rfl

theorem declareAll_eq_ok_iff {schema last : Schema} {entries : List (String × Nat)} :
    schema.declareAll entries = .ok last ↔
      last.geometry = schema.geometry ∧ last.defaults = schema.defaults ∧
        last.opcodes = schema.opcodes ++ entries.map Opcode.ofEntry ∧
        ∀ entry ∈ entries, entry.2 < schema.geometry.opcodeSpace := by
  induction entries generalizing schema with
  | nil =>
      simp only [declareAll, List.foldlM_nil, List.map_nil, List.append_nil, List.not_mem_nil,
        false_implies, implies_true, and_true]
      constructor
      · intro success
        cases success
        exact ⟨rfl, rfl, rfl⟩
      · rintro ⟨geometry, defaults, opcodes⟩
        exact congrArg Except.ok (ext geometry.symm opcodes.symm defaults.symm)
  | cons entry rest ih =>
      rw [declareAll_cons, bind_eq_ok_iff, List.map_cons, List.forall_mem_cons]
      constructor
      · rintro ⟨next, declared, behind⟩
        obtain ⟨geometry, defaults, opcodes, fits⟩ := declare_eq_ok_iff.mp declared
        obtain ⟨lastGeometry, lastDefaults, lastOpcodes, fit⟩ := ih.mp behind
        rw [geometry] at lastGeometry fit
        rw [opcodes, List.append_assoc] at lastOpcodes
        exact ⟨lastGeometry, lastDefaults.trans defaults, lastOpcodes, fits, fit⟩
      · rintro ⟨geometry, defaults, opcodes, fits, fit⟩
        -- The schema in between holds the first of the new opcodes, as the last one does.
        have split : last.opcodes =
            schema.opcodes ++ [Opcode.ofEntry entry] ++ rest.map Opcode.ofEntry := by
          rw [opcodes, List.append_assoc, List.singleton_append]
        have front : (schema.opcodes ++ [Opcode.ofEntry entry]).Sublist last.opcodes := by
          rw [split]
          exact List.sublist_append_left _ _
        let next : Schema :=
          { geometry := schema.geometry
            opcodes := schema.opcodes ++ [Opcode.ofEntry entry]
            defaults := schema.defaults
            valid := schema.valid
            symbols_distinct := last.symbols_distinct.sublist (front.map _)
            codes_distinct := last.codes_distinct.sublist (front.map _)
            codes_fit := fun opcode member => geometry ▸ last.codes_fit opcode (front.subset member) }
        exact ⟨next, declare_eq_ok_iff.mpr ⟨rfl, rfl, rfl, fits⟩,
          ih.mpr ⟨geometry, defaults, split, fit⟩⟩

/-- A schema is built from a geometry and opcodes exactly if it holds them, in their order, with no
default set, and every code fits. -/
theorem build_eq_ok_iff {geometry : Geometry} {entries : List (String × Nat)} {schema : Schema} :
    build geometry entries = .ok schema ↔
      schema.geometry = geometry ∧ schema.defaults = Assignment.zero ∧
        schema.opcodes = entries.map Opcode.ofEntry ∧
        ∀ entry ∈ entries, entry.2 < geometry.opcodeSpace := by
  unfold build
  split
  · exact declareAll_eq_ok_iff
  · rename_i invalid
    constructor
    · intro impossible
      cases impossible
    · rintro ⟨rfl, -⟩
      exact absurd schema.valid invalid

theorem withDefault_eq_ok_iff {schema changed : Schema} {name : String} {value : Nat} :
    schema.withDefault name value = .ok changed ↔
      ∃ s : Signal, s.name = name ∧
        changed = { schema with defaults := schema.defaults.set s value } := by
  unfold withDefault
  constructor
  · intro success
    split at success
    · rename_i s found
      cases success
      exact ⟨s, Signal.ofName?_eq_some_iff.mp found, rfl⟩
    · cases success
  · rintro ⟨s, rfl, rfl⟩
    rw [s.ofName?_name]

/-- Setting defaults leaves all else of a schema. -/
theorem exists_withDefaults {schema last : Schema} {defaults : List (String × Nat)}
    (success : schema.withDefaults defaults = .ok last) :
    ∃ a : Assignment, last = { schema with defaults := a } := by
  induction defaults generalizing schema with
  | nil =>
      cases success
      exact ⟨last.defaults, rfl⟩
  | cons entry rest ih =>
      obtain ⟨next, changed, behind⟩ := bind_eq_ok_iff.mp success
      obtain ⟨s, -, rfl⟩ := withDefault_eq_ok_iff.mp changed
      obtain ⟨a, kept⟩ := ih behind
      exact ⟨a, kept⟩

/-- Defaults change no opcode. -/
theorem opcodes_withDefaults {schema last : Schema} {defaults : List (String × Nat)}
    (success : schema.withDefaults defaults = .ok last) : last.opcodes = schema.opcodes := by
  obtain ⟨a, rfl⟩ := exists_withDefaults success
  rfl

end Schema

end ControlStore
