import ControlStore.Proofs.ControlRom
import ControlStore.Proofs.OpcodeOrder
import ControlStore.Proofs.WordRoundTrip

set_option autoImplicit false

/-!
How far a default reaches. A new default for one signal is seen in that signal alone, and only in
the words of states whose record leaves the signal out; transitions and errors do not see it.
-/
namespace ControlStore

-- Powers are those of the core library, whatever else is imported beside this module.
attribute [local instance (2000)] instPowNat

/-! ### Records -/

theorem NameMap.find?_eq_none_iff {α : Type} {map : NameMap α} {name : String} :
    map.find? name = none ↔ name ∉ map.names := by
  simp only [NameMap.find?, NameMap.names, Option.map_eq_none_iff, List.find?_eq_none,
    List.mem_map, not_exists, not_and, beq_iff_eq]

namespace Record

/-- The default of a signal that the record gives is not seen. -/
theorem overlay_set_of_mem {record : Record} {s : Signal} (given : s.name ∈ record.names)
    (defaults : Assignment) (value : Nat) :
    record.overlay (defaults.set s value) = record.overlay defaults := by
  have present : record.find? s.name ≠ none := fun absent =>
    NameMap.find?_eq_none_iff.mp absent given
  ext t
  rw [get_overlay, get_overlay, Assignment.get_set]
  by_cases same : s = t
  · subst same
    cases found : record.find? s.name with
    | none => exact absurd found present
    | some held => rfl
  · rw [if_neg same]

/-- The default of a signal that the record leaves out is the signal's value. -/
theorem overlay_set_of_not_mem {record : Record} {s : Signal} (omitted : s.name ∉ record.names)
    (defaults : Assignment) (value : Nat) :
    record.overlay (defaults.set s value) = (record.overlay defaults).set s value := by
  have absent := NameMap.find?_eq_none_iff.mpr omitted
  ext t
  rw [get_overlay, Assignment.get_set, Assignment.get_set, get_overlay]
  by_cases same : s = t
  · subst same
    simp [absent]
  · rw [if_neg same, if_neg same]

/-- A new default in the word of a record: every other signal keeps its value, a word whose record
gives the signal is the same word, and in any other the signal has the new default as far as it
fits. -/
theorem word_set {record : Record} {s : Signal} {value : Nat} {defaults : Assignment}
    {state : String} {word word' : Nat} (first : record.word defaults state = .ok word)
    (second : record.word (defaults.set s value) state = .ok word') :
    (∀ t, t ≠ s → ControlWord.extract word' t = ControlWord.extract word t) ∧
      (s.name ∈ record.names → word' = word) ∧
      (s.name ∉ record.names → ControlWord.extract word' s = value % 2 ^ s.width) := by
  rw [word_eq_pack first, word_eq_pack second]
  by_cases given : s.name ∈ record.names
  · rw [overlay_set_of_mem given]
    exact ⟨fun _ _ => rfl, fun _ => rfl, fun omitted => absurd given omitted⟩
  · rw [overlay_set_of_not_mem given]
    refine ⟨?_, fun present => absurd present given, fun _ => ?_⟩
    · intro t apart
      rw [extract_pack_set, if_neg apart.symm]
    · rw [extract_pack_set, if_pos rfl]

end Record

/-! ### Compiled programs -/

/-- The decision ROM sees of the schema its geometry and its opcodes. -/
theorem Microcode.decisionRom_eq_of_defaults {m changed : Microcode} {defaults : Assignment}
    (schema : changed.schema = { m.schema with defaults := defaults })
    (tables : changed.tables = m.tables) : changed.decisionRom = m.decisionRom := by
  have byte : changed.decisionByte = m.decisionByte := by
    funext address
    simp only [decisionByte, lookup?, Schema.indexOfCode?, schema, tables]
  simp only [decisionRom, schema, byte]

/-- Two compilations of a program that differ in the default of a signal: the states move alike, and
only words of states that leave the signal out can differ, in that signal alone. -/
structure Microcode.Defaulted (program : Program) (s : Signal) (value : Nat)
    (m changed : Microcode) : Prop where
  index_eq : changed.index = m.index
  tables_eq : changed.tables = m.tables
  decisionRom_eq : changed.decisionRom = m.decisionRom
  words_size : m.words.size = program.size ∧ changed.words.size = program.size
  word_at : ∀ (i : Nat) (state : State), program.states[i]? = some state →
    ∃ word word', m.words[i]? = some word ∧ changed.words[i]? = some word' ∧
      (∀ t, t ≠ s → ControlWord.extract word' t = ControlWord.extract word t) ∧
      (s.name ∈ state.control.names → word' = word) ∧
      (s.name ∉ state.control.names → ControlWord.extract word' s = value % 2 ^ s.width)

theorem Compiled.defaulted {schema : Schema} {program : Program} {s : Signal} {value : Nat}
    {m changed : Microcode} (compiled : Compiled schema program m)
    (also : Compiled { schema with defaults := schema.defaults.set s value } program changed) :
    m.Defaulted program s value changed := by
  have index := compiled.index_eq also
  have tables : changed.tables = m.tables := by
    apply Array.ext_getElem?
    intro i
    rw [compiled.getElem?_tables, also.getElem?_tables, index]
    rfl
  have schemas : changed.schema =
      { m.schema with defaults := schema.defaults.set s value } := by
    rw [also.schema_eq, compiled.schema_eq]
  refine
    { index_eq := index
      tables_eq := tables
      decisionRom_eq := Microcode.decisionRom_eq_of_defaults schemas tables
      words_size := ⟨compiled.words_size, also.words_size⟩
      word_at := ?_ }
  intro i state located
  obtain ⟨word, held, packed⟩ := compiled.word_at i state located
  obtain ⟨word', held', packed'⟩ := also.word_at i state located
  exact ⟨word, word', held, held', Record.word_set packed packed'⟩

/-- A default can be set for every signal, and it reaches only the states that leave the signal
out. With and without it, compiling a program fails with the same error, or both give the same
tables and the same decision ROM. Every signal but the one has the same value in all words; the word
of a state whose record gives the signal is the same, and in all other words the signal has the
default, cut to its width. -/
theorem compile_withDefault (schema : Schema) (s : Signal) (value : Nat) (program : Program) :
    ∃ changed, schema.withDefault s.name value = .ok changed ∧
      Matched Eq (Microcode.Defaulted program s value)
        (compile schema program) (compile changed program) := by
  let changed : Schema := { schema with defaults := schema.defaults.set s value }
  refine ⟨changed, Schema.withDefault_eq_ok_iff.mpr ⟨s, rfl, rfl⟩, ?_⟩
  have told := reports_compile changed program
  have same : program.faults changed = program.faults schema :=
    Program.faults_congr (fun _ => Iff.rfl) program
  rw [same] at told
  have matched := Matched.of_reports (reports_compile schema program) told
  rcases matched.error_or_ok with ⟨fault, fault', failed, also, same⟩ | ⟨m, n, success, also, -⟩
  · rw [failed, also]
    exact same
  · rw [success, also]
    exact (compiled_of_compile success).defaulted (compiled_of_compile also)

/-- The pulse generator with the default 53 for `alu_op`: four bits of it fit into the word of the
idle state, which leaves the signal out; the pulse gives it, and its word stays. -/
theorem compile_withDefault_pulse : ∃ changed m n,
    Pulse.schema.withDefault "alu_op" 53 = .ok changed ∧
      compile Pulse.schema Pulse.program = .ok m ∧ compile changed Pulse.program = .ok n ∧
      n.decisionRom = m.decisionRom ∧ n.words[1]? = m.words[1]? ∧
      ∃ word, n.words[0]? = some word ∧ ControlWord.extract word .aluOp = 5 := by
  obtain ⟨changed, defaulted, matched⟩ :=
    compile_withDefault Pulse.schema .aluOp 53 Pulse.program
  obtain ⟨m, success⟩ := Pulse.compiles
  obtain ⟨n, also, differ⟩ := matched.exists_ok success
  obtain ⟨word, word', held, held', -, given, -⟩ := differ.word_at 1 Pulse.pulse rfl
  obtain ⟨idle, idle', -, shown, -, -, omitted⟩ := differ.word_at 0 Pulse.idle rfl
  refine ⟨changed, m, n, defaulted, success, also, differ.decisionRom_eq, ?_, idle', shown, ?_⟩
  · rw [held, held', given (by decide)]
  · rw [omitted (by decide)]
    decide

end ControlStore
