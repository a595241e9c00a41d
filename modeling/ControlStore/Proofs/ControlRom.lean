import ControlStore.Microcode.Image
import ControlStore.Proofs.Compiled
import ControlStore.Proofs.ProgramFaults
import ControlStore.Proofs.WordFields

set_option autoImplicit false

/-!
The control ROM holds the control records: in the word of a state every signal has the value that
the record gives it, or else its default, as far as that fits the width of the signal.
-/
namespace ControlStore

namespace Record

theorem get_assign (a : Assignment) (name : String) (value : Value) (s : Signal) :
    (assign a name value).get s = if name = s.name then value.bits else a.get s := by
  unfold assign
  cases found : Signal.ofName? name with
  | none =>
      have differ : name ≠ s.name := by
        intro same
        rw [same, s.ofName?_name] at found
        cases found
      rw [if_neg differ]
  | some t =>
      have named : t.name = name := Signal.ofName?_eq_some_iff.mp found
      simp only [Assignment.get_set]
      by_cases same : t = s
      · rw [if_pos same, if_pos (by rw [← named, same])]
      · have differ : name ≠ s.name := fun equal => same (Signal.name_injective (named.trans equal))
        rw [if_neg same, if_neg differ]

/-- Names are distinct, so the one entry of a signal decides, wherever it stands. -/
private theorem get_foldl_assign (entries : List (String × Value)) (a : Assignment) (s : Signal)
    (ascending : entries.Pairwise (fun first second => first.1 < second.1)) :
    (entries.foldl (fun held entry => assign held entry.1 entry.2) a).get s =
      ((entries.find? (·.1 == s.name)).map (·.2.bits)).getD (a.get s) := by
  induction entries generalizing a with
  | nil => rfl
  | cons entry rest ih =>
      have tail := List.pairwise_cons.mp ascending
      rw [List.foldl_cons, ih (assign a entry.1 entry.2) tail.2, List.find?_cons, get_assign]
      by_cases here : entry.1 = s.name
      · have absent : rest.find? (·.1 == s.name) = none := by
          rw [List.find?_eq_none]
          intro other member same
          have above := tail.1 other member
          rw [here, ← eq_of_beq same] at above
          exact String.lt_irrefl _ above
        simp [absent, here]
      · have miss : (entry.1 == s.name) = false := beq_eq_false_iff_ne.mpr here
        rw [if_neg here, miss]

theorem get_overlay (record : Record) (defaults : Assignment) (s : Signal) :
    (record.overlay defaults).get s =
      ((record.find? s.name).map Value.bits).getD (defaults.get s) := by
  rw [overlay, get_foldl_assign record.entries defaults s record.ascending, NameMap.find?,
    Option.map_map]
  rfl

theorem word_eq_pack {record : Record} {defaults : Assignment} {state : String} {word : Nat}
    (success : record.word defaults state = .ok word) :
    word = ControlWord.pack (record.overlay defaults) := by
  obtain ⟨a, assigned, packed⟩ := map_eq_ok_iff.mp success
  unfold assignment at assigned
  split at assigned
  · cases assigned
  · cases assigned
    exact packed.symm

end Record

theorem Microcode.size_controlRom (m : Microcode) :
    m.controlRom.size = min (m.schema.geometry.controlLength m.index.size) m.words.size := by
  rw [controlRom, Array.take_eq_extract, Array.size_extract]
  omega

theorem Microcode.getElem?_controlRom (m : Microcode) {i : Nat}
    (inside : i < m.schema.geometry.controlLength m.index.size) :
    m.controlRom[i]? = m.words[i]? := by
  rw [controlRom, Array.take_eq_extract, Array.getElem?_extract, Nat.zero_add]
  by_cases bound : i < m.words.size
  · rw [if_pos (by omega)]
  · rw [if_neg (by omega), Array.getElem?_eq_none (by omega)]

/-- The control ROM is that of the schema, the number of states and the words. -/
theorem Microcode.controlRom_congr {first second : Microcode} (schema : second.schema = first.schema)
    (size : second.index.size = first.index.size) (words : second.words = first.words) :
    second.controlRom = first.controlRom := by
  rw [controlRom, controlRom, schema, size, words]

/-- There is a word for every state; the control ROM is the part of the words that the state field
can address. A word has 21 bits, and each signal in it is the value that the state's record gives to
the signal's name, or else the default, cut to the signal's width. -/
theorem controlRom_holds_records {schema : Schema} {program : Program} {m : Microcode}
    (success : compile schema program = .ok m) :
    m.words.size = program.size ∧
    m.controlRom.toList <+: m.words.toList ∧
    m.controlRom.size = min (2 ^ schema.geometry.stateBits) program.size ∧
    ∀ (i : Nat) (state : State), program.states[i]? = some state →
      ∃ word, m.words[i]? = some word ∧ word < 2 ^ 21 ∧
        ∀ s, ControlWord.extract word s =
          ((state.control.find? s.name).map Value.bits).getD (schema.defaults.get s) %
            2 ^ s.width := by
  have compiled := compiled_of_compile success
  refine ⟨compiled.words_size, ?_, ?_, ?_⟩
  · rw [Microcode.controlRom, Array.take_eq_extract, Array.toList_extract,
      List.extract_eq_take_drop, List.drop_zero]
    exact List.take_prefix _ _
  · rw [m.size_controlRom, compiled.schema_eq, compiled.words_size, compiled.index_size,
      Geometry.controlLength, Geometry.stateSpace]
    omega
  · intro i state located
    obtain ⟨word, held, packed⟩ := compiled.word_at i state located
    have same := Record.word_eq_pack packed
    refine ⟨word, held, same ▸ pack_lt _, ?_⟩
    intro s
    rw [same, extract_pack, Record.get_overlay]

/-- The pulse: of 37 the low four bits fit `alu_op`, the strobe is one, and of the default 7 two
bits fit `b_select`. -/
theorem controlRom_holds_records_pulse :
    ∃ m, compile Pulse.schema Pulse.program = .ok m ∧ m.controlRom.size = 3 ∧
      ∃ word, m.words[1]? = some word ∧ word < 2 ^ 21 ∧
        ControlWord.extract word .aluOp = 5 ∧ ControlWord.extract word .write = 1 ∧
        ControlWord.extract word .bSelect = 3 ∧ ControlWord.extract word .pcSelect = 0 := by
  obtain ⟨m, success⟩ := Pulse.compiles
  obtain ⟨-, -, size, words⟩ := controlRom_holds_records success
  obtain ⟨word, held, small, signals⟩ := words 1 Pulse.pulse rfl
  refine ⟨m, success, size, word, held, small, ?_, ?_, ?_, ?_⟩
  · rw [signals]
    decide
  · rw [signals]
    decide
  · rw [signals]
    decide
  · rw [signals]
    decide

end ControlStore
