import ControlStore.Microcode.CodeTable
import ControlStore.Proofs.Matched
import ControlStore.Proofs.ProgramFaults
import Mathlib.Data.List.Nodup

set_option autoImplicit false

/-!
State codes and names. Up to the 256th state the codes that are dealt out last as long as the
states, so that the table of codes has every name at the position where the list has it; codes and
names are then each other's inverse.
-/
namespace ControlStore

namespace CodeTable

/-- States with the codes of their positions, counted from a first one. -/
def dealt (first : Nat) (states : List State) : List (UInt8 × State) :=
  (states.zipIdx first).map fun entry => (UInt8.ofNat entry.2, entry.1)

theorem dealt_cons (first : Nat) (state : State) (rest : List State) :
    dealt first (state :: rest) = (UInt8.ofNat first, state) :: dealt (first + 1) rest := rfl

/-- As long as there are codes enough, every state is dealt its position. -/
theorem zip_allCodes {states : List State} (bounded : states.length ≤ StateIndex.limit) :
    allCodes.zip states = dealt 0 states := by
  have enough : allCodes.length = StateIndex.limit := by
    rw [allCodes, List.length_map, List.length_range]
    rfl
  apply List.ext_getElem
  · rw [dealt, List.length_zip, List.length_map, List.length_zipIdx, enough,
      Nat.min_eq_right bounded]
  · intro i _ _
    simp [allCodes, dealt]

/-- One more code is refused for a name that has one, and else found under its name. -/
theorem enter_cases (codes : NameMap UInt8) (code : UInt8) (state : State) :
    ((codes.find? state.name).isSome = true ∧
        enter codes (code, state) = .error (.duplicateState state.name)) ∨
      (codes.find? state.name = none ∧
        enter codes (code, state) = .ok (codes.insert state.name code)) := by
  unfold enter
  cases known : codes.find? state.name with
  | some held => exact Or.inl ⟨rfl, rfl⟩
  | none => exact Or.inr ⟨rfl, rfl⟩

/-- Entering codes one by one stops at the first name that occurred before, and else every name is
found with the code of its position. -/
theorem foldlM_enter (states : List State) (first : Nat) {seen : List String}
    {held : NameMap UInt8} (same : ∀ name, (held.find? name).isSome = true ↔ name ∈ seen) :
    (∃ name, StateIndex.firstRepeat? seen (states.map (·.name)) = some name ∧
        (dealt first states).foldlM enter held = .error (.duplicateState name)) ∨
      (StateIndex.firstRepeat? seen (states.map (·.name)) = none ∧
        ∃ codes, (dealt first states).foldlM enter held = .ok codes ∧
          ∀ name, codes.find? name = (((states.map (·.name)).idxOf? name).map
            fun i => UInt8.ofNat (first + i)).or (held.find? name)) := by
  induction states generalizing first seen held with
  | nil => exact Or.inr ⟨rfl, held, rfl, fun name => rfl⟩
  | cons state rest ih =>
      rw [List.map_cons, dealt_cons, List.foldlM_cons, StateIndex.firstRepeat?]
      rcases enter_cases held (UInt8.ofNat first) state with ⟨known, refused⟩ | ⟨new, entered⟩
      · rw [if_pos ((same _).mp known), refused]
        exact Or.inl ⟨state.name, rfl, rfl⟩
      · have absent : state.name ∉ seen := by
          rw [← same, new]
          decide
        have grown : ∀ name,
            ((held.insert state.name (UInt8.ofNat first)).find? name).isSome = true ↔
              name ∈ state.name :: seen := by
          intro name
          rw [NameMap.find?_insert, List.mem_cons, ← same name, eq_comm (a := name)]
          split
          · rename_i here
            simp [here]
          · rename_i other
            simp [other]
        rw [if_neg absent, entered]
        rcases ih (first + 1) grown with ⟨name, repeated, refused⟩ | ⟨fresh, codes, filled, found⟩
        · exact Or.inl ⟨name, repeated, refused⟩
        · refine Or.inr ⟨fresh, codes, filled, fun name => ?_⟩
          rw [found, NameMap.find?_insert, List.idxOf?_cons]
          by_cases here : state.name = name
          · have gone : (rest.map (·.name)).idxOf? name = none := by
              rw [List.idxOf?_eq_none_iff]
              intro again
              exact (StateIndex.firstRepeat?_eq_none fresh).2 name again (here ▸ List.mem_cons_self)
            simp [gone, here]
          · simp [here, Option.map_map, Function.comp_def, Nat.add_assoc, Nat.add_comm 1]

/-- A table holds the names of an index, each with the code that the index gives it. -/
structure Numbers (table : CodeTable) (index : StateIndex) : Prop where
  size_eq : table.size = index.size
  code?_eq : ∀ name, table.code? name = index.code? name
  name?_eq : ∀ code, table.name? code = index.name? code

/-- A table and an index are built from the same states, or refused for the same fault. -/
theorem build_matched (states : List State) :
    Matched Eq Numbers (build states) (StateIndex.build (states.map (·.name))) := by
  unfold build StateIndex.build
  have count : (states.map (·.name)).length = states.length := List.length_map _
  by_cases empty : states = []
  · subst empty
    exact rfl
  · have some : states.map (·.name) ≠ [] := by simpa using empty
    rw [if_neg (List.isEmpty_iff.not.mpr empty), dif_neg some]
    by_cases bounded : states.length ≤ StateIndex.limit
    · rw [if_neg (Nat.not_lt.mpr bounded), dif_pos (count ▸ bounded), zip_allCodes bounded]
      have nothing : ∀ name, ((NameMap.empty : NameMap UInt8).find? name).isSome = true ↔
          name ∈ ([] : List String) := by simp [NameMap.empty, NameMap.find?]
      rcases foldlM_enter states 0 nothing with
        ⟨name, repeated, refused⟩ | ⟨fresh, codes, filled, found⟩
      · rw [refused]
        split
        · rename_i other also
          cases repeated.symm.trans also
          exact rfl
        · rename_i fresh
          cases repeated.symm.trans fresh
      · rw [filled]
        split
        · rename_i other repeated
          cases fresh.symm.trans repeated
        · refine ⟨rfl, fun name => ?_, fun code => rfl⟩
          change codes.find? name = _
          rw [found, StateIndex.code?]
          simp [NameMap.empty, NameMap.find?]
    · rw [if_pos (Nat.not_le.mp bounded), dif_neg (count ▸ bounded), count]
      exact rfl

end CodeTable

/-- Codes and names are each other's inverse, up to the 256th state. States are numbered exactly if
there are some, no more than 256, and no two of one name. Their names are then kept in order, a name
has a code exactly if the state at the position of the code has the name, and a code has the name of
that state, or none past the end; every state has a code, and the last of 256 has the code 255. The
table of codes that are dealt out one by one is made of the same states, answers the same, and is
refused for the same fault. -/
theorem build_numbers_states (states : List State) :
    ((∃ index, StateIndex.build (states.map (·.name)) = .ok index) ↔
      (1 ≤ states.length ∧ states.length ≤ 256) ∧ (states.map (·.name)).Nodup) ∧
    (∀ index, StateIndex.build (states.map (·.name)) = .ok index →
      index.names = states.map (·.name) ∧ index.size = states.length ∧
      (∀ name code, index.code? name = some code ↔
        (states[code.toNat]?).map (·.name) = some name) ∧
      (∀ code, index.name? code = (states[code.toNat]?).map (·.name)) ∧
      (∀ state ∈ states, ∃ code, index.code? state.name = some code) ∧
      (states.length = 256 → ∀ last, states.getLast? = some last →
        index.code? last.name = some 255) ∧
      ∃ table, CodeTable.build states = .ok table ∧ table.Numbers index) ∧
    ∀ fault, CodeTable.build states = .error fault ↔
      StateIndex.build (states.map (·.name)) = .error fault := by
  have matched := CodeTable.build_matched states
  refine ⟨?_, ?_, matched.error_iff⟩
  · rw [StateIndex.exists_build_iff, List.length_map, ← and_assoc, Ne, List.map_eq_nil_iff,
      ← List.length_eq_zero_iff, ← Ne, ← Nat.pos_iff_ne_zero]
    exact Iff.rfl
  · intro index built
    have names := StateIndex.names_of_build built
    have located (code : UInt8) :
        index.names[code.toNat]? = (states[code.toNat]?).map (·.name) := by
      rw [names, List.getElem?_map]
    have coded (name : String) (code : UInt8) : index.code? name = some code ↔
        (states[code.toNat]?).map (·.name) = some name := by
      rw [index.code?_eq_some_iff, located]
    refine ⟨names, ?_, coded, located, ?_, ?_, matched.exists_ok_left built⟩
    · rw [StateIndex.size, names, List.length_map]
    · intro state member
      exact index.exists_code?_eq_some (names ▸ List.mem_map_of_mem member)
    · intro full last final
      rw [List.getLast?_eq_getElem?, full] at final
      exact (coded last.name 255).mpr (congrArg (Option.map State.name) final)

/-- A name of so many strokes. -/
def tally (strokes : Nat) : String := String.ofList (List.replicate strokes 'I')

/-- States that are named by one stroke, two strokes and so on. -/
def tallied (count : Nat) : List State :=
  (List.range count).map fun i => State.named (tally (i + 1))

theorem length_tallied (count : Nat) : (tallied count).length = count := by
  rw [tallied, List.length_map, List.length_range]

theorem getElem?_tallied {count i : Nat} (inside : i < count) :
    (tallied count)[i]? = some (State.named (tally (i + 1))) := by
  rw [tallied, List.getElem?_map, List.getElem?_range inside]
  rfl

theorem getLast?_tallied (count : Nat) :
    (tallied (count + 1)).getLast? = some (State.named (tally (count + 1))) := by
  rw [List.getLast?_eq_getElem?, length_tallied]
  exact getElem?_tallied (Nat.lt_succ_self count)

theorem tallied_names_nodup (count : Nat) : ((tallied count).map (·.name)).Nodup := by
  have strokes : ((tallied count).map (·.name)).map String.length =
      (List.range count).map Nat.succ := by
    simp [tallied, tally, State.named]
  refine List.Nodup.of_map String.length ?_
  rw [strokes]
  exact List.nodup_range.map fun _ _ => Nat.succ.inj

/-- With 256 tallies the last has the code 255, in the index and in the table of codes; a tally more
is refused. -/
theorem build_numbers_states_full :
    (∃ index table, StateIndex.build ((tallied 256).map (·.name)) = .ok index ∧
      CodeTable.build (tallied 256) = .ok table ∧ index.size = 256 ∧
      index.code? (tally 256) = some 255 ∧ table.code? (tally 256) = some 255 ∧
      index.name? 9 = some "IIIIIIIIII") ∧
    ¬ ∃ index, StateIndex.build ((tallied 257).map (·.name)) = .ok index := by
  constructor
  · obtain ⟨accepted, told, -⟩ := build_numbers_states (tallied 256)
    rw [length_tallied] at accepted told
    obtain ⟨index, built⟩ := accepted.mpr ⟨by decide, tallied_names_nodup 256⟩
    obtain ⟨-, size, -, names, -, last, table, filled, numbers⟩ := told index built
    have final := last rfl (State.named (tally 256)) (getLast?_tallied 255)
    refine ⟨index, table, built, filled, size, final, (numbers.code?_eq _).trans final, ?_⟩
    rw [names]
    exact congrArg (Option.map State.name) (getElem?_tallied (by decide))
  · rw [(build_numbers_states (tallied 257)).1, length_tallied]
    exact fun fits => absurd fits.1.2 (by decide)

end ControlStore
