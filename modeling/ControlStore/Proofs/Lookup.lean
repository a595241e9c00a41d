import ControlStore.Microcode.StateIndex
import ControlStore.Schema

set_option autoImplicit false

/-!
Opcodes and states found by name and by code. Symbols, codes and state names are distinct, so a
search that takes the first hit finds the only one, and looking up is the inverse of reading off.
-/
namespace ControlStore

section Keyed

variable {α κ : Type} [BEq κ] [LawfulBEq κ] (key : α → κ) {items : List α}

/-- Among items with distinct keys the first position of a key is its only one. -/
theorem findIdx?_key_eq_some_iff (distinct : (items.map key).Nodup) (wanted : κ) (i : Nat) :
    items.findIdx? (fun item => key item == wanted) = some i ↔
      (items[i]?).map key = some wanted := by
  rw [List.findIdx?_eq_some_iff_getElem]
  constructor
  · intro found
    obtain ⟨inside, hit, -⟩ := found
    rw [List.getElem?_eq_getElem inside, Option.map_some, eq_of_beq hit]
  · intro found
    obtain ⟨item, located, same⟩ := Option.map_eq_some_iff.mp found
    obtain ⟨inside, rfl⟩ := List.getElem?_eq_some_iff.mp located
    refine ⟨inside, beq_iff_eq.mpr same, ?_⟩
    intro j before hit
    have earlier : (items.map key)[j]? = some wanted := by
      rw [List.getElem?_map, List.getElem?_eq_getElem (Nat.lt_trans before inside),
        Option.map_some, eq_of_beq hit]
    have here : (items.map key)[i]? = some wanted := by rw [List.getElem?_map, found]
    have bound : j < (items.map key).length := by
      rw [List.length_map]
      exact Nat.lt_trans before inside
    have equal := (List.getElem?_inj bound distinct).mp (earlier.trans here.symm)
    omega

/-- Among distinct items the first position of an item is its only one. -/
theorem idxOf?_eq_some_iff {keys : List κ} (distinct : keys.Nodup) (wanted : κ) (i : Nat) :
    keys.idxOf? wanted = some i ↔ keys[i]? = some wanted := by
  have keyed := findIdx?_key_eq_some_iff id (by rwa [List.map_id]) wanted i
  simpa only [List.idxOf?, id_eq, Option.map_id] using keyed

/-- Among items with distinct keys the first item of a key is its only one. -/
theorem find?_key_eq_some_iff (distinct : (items.map key).Nodup) (wanted : κ) (item : α) :
    items.find? (fun other => key other == wanted) = some item ↔
      item ∈ items ∧ key item = wanted := by
  constructor
  · intro found
    have hit := List.find?_some (p := fun other => key other == wanted) found
    exact ⟨List.mem_of_find?_eq_some found, eq_of_beq hit⟩
  · intro declared
    obtain ⟨member, same⟩ := declared
    obtain ⟨i, located⟩ := List.getElem?_of_mem member
    have first := (findIdx?_key_eq_some_iff key distinct wanted i).mpr
      (by rw [located, Option.map_some, same])
    rw [List.find?_eq_bind_findIdx?_getElem?, first, Option.bind_some, located]

end Keyed

namespace StateIndex

/-- An index is the list of its names. -/
theorem ext {first second : StateIndex} (names : first.names = second.names) : first = second := by
  cases first
  cases second
  cases names
  rfl

/-- A built index holds the names it was built from. -/
theorem names_of_build {names : List String} {index : StateIndex}
    (success : build names = .ok index) : index.names = names := by
  unfold build at success
  split at success
  · cases success
  · split at success
    · split at success
      · cases success
      · cases success
        rfl
    · cases success

/-- A name has a code exactly if the state of that code has the name. -/
theorem code?_eq_some_iff (index : StateIndex) {name : String} {code : UInt8} :
    index.code? name = some code ↔ index.names[code.toNat]? = some name := by
  have position (i : Nat) := idxOf?_eq_some_iff index.distinct name i
  constructor
  · intro found
    obtain ⟨i, located, same⟩ := Option.map_eq_some_iff.mp found
    have named := (position i).mp located
    have inside := (List.getElem?_eq_some_iff.mp named).1
    have small : i < UInt8.size := Nat.lt_of_lt_of_le inside index.bounded
    rw [← same, UInt8.toNat_ofNat_of_lt' small, named]
  · intro named
    rw [code?, (position code.toNat).mpr named, Option.map_some, UInt8.ofNat_toNat]

theorem code?_eq_none_iff (index : StateIndex) {name : String} :
    index.code? name = none ↔ name ∉ index.names := by
  rw [code?, Option.map_eq_none_iff, List.idxOf?_eq_none_iff]

theorem exists_code?_eq_some (index : StateIndex) {name : String} (declared : name ∈ index.names) :
    ∃ code, index.code? name = some code := by
  cases found : index.code? name with
  | none => exact absurd declared (index.code?_eq_none_iff.mp found)
  | some code => exact ⟨code, rfl⟩

end StateIndex

namespace Schema

theorem indexOf?_eq_some_iff (schema : Schema) {symbol : String} {i : Nat} :
    schema.indexOf? symbol = some i ↔ (schema.opcodes[i]?).map (·.symbol) = some symbol :=
  findIdx?_key_eq_some_iff _ schema.symbols_distinct symbol i

theorem indexOfCode?_eq_some_iff (schema : Schema) {code : UInt8} {i : Nat} :
    schema.indexOfCode? code = some i ↔ (schema.opcodes[i]?).map (·.code) = some code :=
  findIdx?_key_eq_some_iff _ schema.codes_distinct code i

theorem indexOf?_eq_none_iff (schema : Schema) {symbol : String} :
    schema.indexOf? symbol = none ↔ symbol ∉ schema.opcodes.map (·.symbol) := by
  simp only [indexOf?, List.findIdx?_eq_none_iff, beq_eq_false_iff_ne, List.mem_map, not_exists,
    not_and]

theorem indexOfCode?_eq_none_iff (schema : Schema) {code : UInt8} :
    schema.indexOfCode? code = none ↔ ∀ opcode ∈ schema.opcodes, opcode.code ≠ code := by
  simp only [indexOfCode?, List.findIdx?_eq_none_iff, beq_eq_false_iff_ne]

/-- A symbol has a code exactly if the two are declared as one opcode. -/
theorem codeOf_eq_ok_iff (schema : Schema) {symbol : String} {code : UInt8} :
    schema.codeOf symbol = .ok code ↔ ⟨symbol, code⟩ ∈ schema.opcodes := by
  have keyed := find?_key_eq_some_iff _ schema.symbols_distinct symbol
  unfold codeOf
  constructor
  · intro success
    split at success
    · rename_i opcode found
      cases success
      obtain ⟨member, same⟩ := (keyed opcode).mp found
      exact same ▸ member
    · cases success
  · intro member
    rw [(keyed _).mpr ⟨member, rfl⟩]

/-- A code has a symbol exactly if the two are declared as one opcode. -/
theorem symbolOf?_eq_some_iff (schema : Schema) {symbol : String} {code : UInt8} :
    schema.symbolOf? code = some symbol ↔ ⟨symbol, code⟩ ∈ schema.opcodes := by
  have keyed := find?_key_eq_some_iff _ schema.codes_distinct code
  unfold symbolOf? ofCode?
  constructor
  · intro found
    obtain ⟨opcode, located, named⟩ := Option.map_eq_some_iff.mp found
    obtain ⟨member, same⟩ := (keyed opcode).mp located
    subst named same
    exact member
  · intro member
    rw [(keyed _).mpr ⟨member, rfl⟩, Option.map_some]

theorem symbolOf?_eq_none_iff (schema : Schema) {code : UInt8} :
    schema.symbolOf? code = none ↔ ∀ opcode ∈ schema.opcodes, opcode.code ≠ code := by
  simp only [symbolOf?, ofCode?, Option.map_eq_none_iff, List.find?_eq_none, beq_iff_eq]

end Schema

end ControlStore
