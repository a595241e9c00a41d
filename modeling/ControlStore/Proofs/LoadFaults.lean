import ControlStore.Proofs.ControlRom
import ControlStore.Proofs.DocumentParts
import ControlStore.Proofs.OpcodeFaults
import ControlStore.Proofs.Utf8Order

set_option autoImplicit false

/-!
What loading tells of a text with several faults. The stages of loading come one after the other,
and each has an order of its own: opcodes and defaults are judged in the order of the bytes of their
names, wherever they stand in the text.
-/
namespace ControlStore

-- Powers are those of the core library, whatever else is imported beside this module.
attribute [local instance (2000)] instPowNat

/-! ### Positions -/

namespace NameMap

variable {α : Type} {map : NameMap α} {name other : String} {value value' : α} {i j : Nat}

theorem find?_of_position (located : map.entries[i]? = some (name, value)) :
    map.find? name = some value :=
  find?_eq_some_iff.mpr (List.mem_of_getElem? located)

theorem exists_position (found : map.find? name = some value) :
    ∃ i : Nat, map.entries[i]? = some (name, value) :=
  List.mem_iff_getElem?.mp (find?_eq_some_iff.mp found)

/-- Entries stand in the order of their names. -/
theorem lt_of_position_lt (located : map.entries[i]? = some (name, value))
    (located' : map.entries[j]? = some (other, value')) (before : i < j) : name < other := by
  obtain ⟨inside, here⟩ := List.getElem?_eq_some_iff.mp located
  obtain ⟨inside', there⟩ := List.getElem?_eq_some_iff.mp located'
  have ascending := List.pairwise_iff_getElem.mp map.ascending i j inside inside' before
  rwa [here, there] at ascending

theorem position_lt_iff (located : map.entries[i]? = some (name, value))
    (located' : map.entries[j]? = some (other, value')) : i < j ↔ name < other := by
  constructor
  · exact lt_of_position_lt located located'
  · intro below
    rcases Nat.lt_trichotomy i j with before | same | behind
    · exact before
    · subst same
      cases located.symm.trans located'
      exact absurd below (String.lt_irrefl _)
    · exact absurd (lt_of_position_lt located' located behind) (String.lt_asymm below)

/-- In front of an entry stand those of smaller names. -/
theorem mem_take_iff (located : map.entries[i]? = some (name, value)) :
    (other, value') ∈ map.entries.take i ↔ map.find? other = some value' ∧ other < name := by
  rw [List.mem_iff_getElem?]
  constructor
  · rintro ⟨j, front⟩
    rw [List.getElem?_take] at front
    split at front
    · rename_i before
      exact ⟨find?_of_position front, lt_of_position_lt front located before⟩
    · cases front
  · rintro ⟨found, below⟩
    obtain ⟨j, front⟩ := exists_position found
    refine ⟨j, ?_⟩
    rw [List.getElem?_take, if_pos ((position_lt_iff front located).mpr below), front]

end NameMap

namespace Document

/-! ### Opcodes -/

/-- What is wrong with the opcode of a symbol: its code has more bits than it may, or else an opcode
of a smaller symbol has the code. -/
inductive OpcodeFault (bits : Nat) (opcodes : NameMap Nat) (symbol : String) :
    SchemaError → Prop where
  | wide {code : Nat} : opcodes.find? symbol = some code → 2 ^ bits ≤ code →
      OpcodeFault bits opcodes symbol (.codeOutOfRange symbol code bits)
  | taken {code : Nat} {smaller : String} : opcodes.find? symbol = some code → code < 2 ^ bits →
      Utf8Before smaller symbol → opcodes.find? smaller = some code →
      OpcodeFault bits opcodes symbol (.duplicateCode (UInt8.ofNat code) smaller symbol)

def FaultyOpcode (bits : Nat) (opcodes : NameMap Nat) (symbol : String) : Prop :=
  ∃ fault, OpcodeFault bits opcodes symbol fault

section

variable {bits i : Nat} {opcodes : NameMap Nat} {symbol : String} {code : Nat}
  {fault : SchemaError}

theorem OpcodeFault.exists_code (faulty : OpcodeFault bits opcodes symbol fault) :
    ∃ code, opcodes.find? symbol = some code := by
  cases faulty with
  | wide found => exact ⟨_, found⟩
  | taken found => exact ⟨_, found⟩

/-- No symbol is repeated among the opcodes of a document, and the earlier are the smaller ones. -/
theorem entryFault_iff (located : opcodes.entries[i]? = some (symbol, code)) :
    Schema.EntryFault bits (opcodes.entries.take i) symbol code fault ↔
      OpcodeFault bits opcodes symbol fault := by
  have found := NameMap.find?_of_position located
  have fresh : symbol ∉ (opcodes.entries.take i).map (·.1) := by
    intro known
    obtain ⟨⟨other, value⟩, front, same⟩ := List.mem_map.mp known
    have below := ((NameMap.mem_take_iff located).mp front).2
    rw [show other = symbol from same] at below
    exact String.lt_irrefl _ below
  constructor
  · intro faulty
    cases faulty with
    | repeated known => exact absurd known fresh
    | wide _ exceeds => exact .wide found exceeds
    | taken _ fits holds =>
        obtain ⟨held, below⟩ := (NameMap.mem_take_iff located).mp holds
        exact .taken found fits (utf8Before_iff.mpr below) held
  · intro faulty
    cases faulty with
    | wide found' exceeds =>
        cases found.symm.trans found'
        exact .wide fresh exceeds
    | taken found' fits below held =>
        cases found.symm.trans found'
        have front := (NameMap.mem_take_iff located).mpr ⟨held, utf8Before_iff.mp below⟩
        exact .taken fresh fits front

theorem faultAt_iff : Schema.FaultAt bits opcodes.entries i fault ↔
    ∃ symbol code, opcodes.entries[i]? = some (symbol, code) ∧
      OpcodeFault bits opcodes symbol fault := by
  refine exists_congr fun symbol => exists_congr fun code => and_congr_right fun located => ?_
  exact entryFault_iff located

variable {geometry : Geometry}

/-- Building tells the fault of the smallest faulty symbol. -/
theorem build_eq_error_iff (valid : geometry.Valid) :
    Schema.build geometry opcodes.entries = .error fault ↔
      ∃ symbol, Utf8First (FaultyOpcode geometry.opcodeBits opcodes) symbol ∧
        OpcodeFault geometry.opcodeBits opcodes symbol fault := by
  rw [Schema.build_eq_error_iff valid]
  simp only [Schema.exists_build_take_iff valid, faultAt_iff]
  constructor
  · rintro ⟨i, faultless, symbol, code, located, faulty⟩
    refine ⟨symbol, ⟨⟨fault, faulty⟩, ?_⟩, faulty⟩
    rintro smaller below ⟨other, faulty'⟩
    obtain ⟨code', found⟩ := faulty'.exists_code
    obtain ⟨j, located'⟩ := NameMap.exists_position found
    have before := (NameMap.position_lt_iff located' located).mpr (utf8Before_iff.mp below)
    exact faultless j before other ⟨smaller, code', located', faulty'⟩
  · rintro ⟨symbol, first, faulty⟩
    obtain ⟨code, found⟩ := faulty.exists_code
    obtain ⟨i, located⟩ := NameMap.exists_position found
    refine ⟨i, ?_, symbol, code, located, faulty⟩
    rintro j before other ⟨smaller, code', located', faulty'⟩
    have below := (NameMap.position_lt_iff located' located).mp before
    exact first.none_before smaller (utf8Before_iff.mpr below) ⟨other, faulty'⟩

/-- A schema is built from opcodes none of which is faulty. -/
theorem exists_build_iff (valid : geometry.Valid) :
    (∃ schema, Schema.build geometry opcodes.entries = .ok schema) ↔
      ∀ symbol, ¬ FaultyOpcode geometry.opcodeBits opcodes symbol := by
  have whole : (∃ schema, Schema.build geometry (opcodes.entries.take opcodes.entries.length) =
      .ok schema) ↔ _ := Schema.exists_build_take_iff valid opcodes.entries.length
  rw [List.take_length] at whole
  simp only [whole, faultAt_iff]
  constructor
  · rintro faultless symbol ⟨fault, faulty⟩
    obtain ⟨code, found⟩ := faulty.exists_code
    obtain ⟨i, located⟩ := NameMap.exists_position found
    obtain ⟨inside, -⟩ := List.getElem?_eq_some_iff.mp located
    exact faultless i inside fault ⟨symbol, code, located, faulty⟩
  · rintro faultless i - fault ⟨symbol, code, -, faulty⟩
    exact faultless symbol ⟨fault, faulty⟩

end

end Document

/-! ### Defaults -/

namespace Schema

theorem withDefault_eq_error_iff {schema : Schema} {name : String} {value : Nat}
    {error : SchemaError} : schema.withDefault name value = .error error ↔
      (∀ s : Signal, s.name ≠ name) ∧ error = .unknownField name := by
  unfold withDefault
  cases found : Signal.ofName? name with
  | none =>
      have unknown (s : Signal) : s.name ≠ name := by
        rintro rfl
        rw [s.ofName?_name] at found
        cases found
      rw [Except.error.injEq, iff_true_intro unknown, true_and]
      exact eq_comm
  | some s =>
      refine iff_of_false (fun impossible => nomatch impossible) ?_
      rintro ⟨unknown, -⟩
      exact unknown s (Signal.ofName?_eq_some_iff.mp found)

/-- The defaults of a record, one after the other. -/
theorem withDefaults_eq_ok_iff {schema last : Schema} {entries : List (String × Value)} :
    schema.withDefaults (entries.map fun entry => (entry.1, entry.2.bits)) = .ok last ↔
      (∀ entry ∈ entries, ∃ s : Signal, s.name = entry.1) ∧
        last = { schema with
          defaults := entries.foldl (fun a entry => Record.assign a entry.1 entry.2)
            schema.defaults } := by
  induction entries generalizing schema with
  | nil => simp [withDefaults, pure, Except.pure, eq_comm]
  | cons entry rest ih =>
      change schema.withDefault entry.1 entry.2.bits >>= (fun next => next.withDefaults _) = _ ↔ _
      rw [bind_eq_ok_iff, List.forall_mem_cons, List.foldl_cons]
      simp only [withDefault_eq_ok_iff, ih]
      have assigned {s : Signal} (named : s.name = entry.1) :
          Record.assign schema.defaults entry.1 entry.2 = schema.defaults.set s entry.2.bits := by
        rw [Record.assign, ← named, s.ofName?_name]
      constructor
      · rintro ⟨_, ⟨s, named, rfl⟩, known, rfl⟩
        exact ⟨⟨⟨s, named⟩, known⟩, by rw [assigned named]⟩
      · rintro ⟨⟨⟨s, named⟩, known⟩, rfl⟩
        exact ⟨_, ⟨s, named, rfl⟩, known, by rw [assigned named]⟩

/-- Of several names that are no signal's the first is told. -/
theorem withDefaults_eq_error_iff {schema : Schema} {entries : List (String × Value)}
    {error : SchemaError} :
    schema.withDefaults (entries.map fun entry => (entry.1, entry.2.bits)) = .error error ↔
      ∃ (i : Nat) (entry : String × Value), entries[i]? = some entry ∧
        (∀ before ∈ entries.take i, ∃ s : Signal, s.name = before.1) ∧
        (∀ s : Signal, s.name ≠ entry.1) ∧ error = .unknownField entry.1 := by
  have steps (front : List (String × Value)) :
      front.foldlM (fun held entry => held.withDefault entry.1 entry.2.bits) schema =
        schema.withDefaults (front.map fun entry => (entry.1, entry.2.bits)) := by
    rw [withDefaults, List.foldlM_map]
  rw [← steps, foldlM_eq_error_iff]
  simp only [steps, withDefaults_eq_ok_iff, withDefault_eq_error_iff]
  constructor
  · rintro ⟨i, entry, held, located, ⟨known, -⟩, unknown⟩
    exact ⟨i, entry, located, known, unknown⟩
  · rintro ⟨i, entry, located, known, unknown⟩
    exact ⟨i, entry, _, located, ⟨known, rfl⟩, unknown⟩

end Schema

namespace Document

/-- A default is given for a name that is no signal's. -/
def UnknownDefault (defaults : NameMap Value) (name : String) : Prop :=
  name ∈ defaults.names ∧ ∀ s : Signal, s.name ≠ name

/-- The smallest name that is no signal's is told. -/
theorem withDefaults_eq_error_iff {schema : Schema} {defaults : NameMap Value}
    {error : SchemaError} :
    schema.withDefaults (defaults.entries.map fun entry => (entry.1, entry.2.bits)) =
        .error error ↔
      ∃ name, Utf8First (UnknownDefault defaults) name ∧ error = .unknownField name := by
  rw [Schema.withDefaults_eq_error_iff]
  constructor
  · rintro ⟨i, ⟨name, value⟩, located, known, unknown, rfl⟩
    have member : name ∈ defaults.names :=
      List.mem_map_of_mem (f := Prod.fst) (List.mem_of_getElem? located)
    refine ⟨name, ⟨⟨member, unknown⟩, ?_⟩, rfl⟩
    rintro smaller below ⟨given, unknown'⟩
    obtain ⟨⟨_, value'⟩, listed, rfl⟩ := List.mem_map.mp given
    have found := NameMap.find?_eq_some_iff.mpr listed
    have front := (NameMap.mem_take_iff located).mpr ⟨found, utf8Before_iff.mp below⟩
    obtain ⟨s, named⟩ := known _ front
    exact unknown' s named
  · rintro ⟨name, ⟨⟨given, unknown⟩, none_before⟩, rfl⟩
    obtain ⟨⟨_, value⟩, listed, rfl⟩ := List.mem_map.mp given
    obtain ⟨i, located⟩ := List.mem_iff_getElem?.mp listed
    refine ⟨i, _, located, ?_, unknown, rfl⟩
    rintro ⟨smaller, value'⟩ front
    by_contra unknown'
    obtain ⟨found, below⟩ := (NameMap.mem_take_iff located).mp front
    have member : smaller ∈ defaults.names :=
      List.mem_map_of_mem (f := Prod.fst) (NameMap.find?_eq_some_iff.mp found)
    exact none_before smaller (utf8Before_iff.mpr below)
      ⟨member, fun s named => unknown' ⟨s, named⟩⟩

theorem exists_withDefaults_iff {schema : Schema} {defaults : NameMap Value} :
    (∃ last, schema.withDefaults
        (defaults.entries.map fun entry => (entry.1, entry.2.bits)) = .ok last) ↔
      ∀ name, ¬ UnknownDefault defaults name := by
  simp only [Schema.withDefaults_eq_ok_iff, exists_and_left, exists_eq, and_true]
  constructor
  · rintro known name ⟨given, unknown⟩
    obtain ⟨entry, listed, rfl⟩ := List.mem_map.mp given
    obtain ⟨s, named⟩ := known entry listed
    exact unknown s named
  · intro known entry listed
    by_contra unknown
    exact known entry.1 ⟨List.mem_map_of_mem listed, fun s named => unknown ⟨s, named⟩⟩

/-! ### Answers -/

/-- The geometry that a document gives, or the one of programs that give none. -/
def shape (document : Document) : Geometry := document.geometry.getD ⟨5, 7⟩

/-- State codes and opcodes have one to eight bits. -/
def Sized (document : Document) : Prop :=
  (1 ≤ document.shape.stateBits ∧ document.shape.stateBits ≤ 8) ∧
    1 ≤ document.shape.opcodeBits ∧ document.shape.opcodeBits ≤ 8

/-- What is given for a signal, and the default that it has. -/
inductive DefaultOf : Option Value → Nat → Prop where
  | absent : DefaultOf none 0
  | off : DefaultOf (some (.flag false)) 0
  | on : DefaultOf (some (.flag true)) 1
  | level (value : Nat) : DefaultOf (some (.level value)) value

/-- What is loaded from a document: opcodes in the order of their symbols, states in the order of
the document. Every transition that is given and cannot be used is counted. -/
structure LoadsAs (document : Document) (loaded : Loaded) : Prop where
  geometry : loaded.schema.geometry = document.shape
  opcodes : loaded.schema.opcodes =
    document.opcodes.entries.map fun entry => ⟨entry.1, UInt8.ofNat entry.2⟩
  defaults : ∀ s : Signal,
    DefaultOf (document.defaults.find? s.name) (loaded.schema.defaults.get s)
  states : List.Forall₂ StateEntry.Becomes document.states loaded.program.states
  warnings : loaded.warnings = (document.states.zip loaded.program.states).countP
    fun pair => pair.1.next.isSome && pair.2.next.isNone

/-- The answer to a document. Each kind of fault is told only if there is none of the kinds before
it, and of faults of one kind the one of the smallest name. -/
inductive Judged (document : Document) : Except LoadError Loaded → Prop where
  | geometry : ¬ document.Sized →
      Judged document (.error (.schema
        (.invalidGeometry document.shape.stateBits document.shape.opcodeBits)))
  | opcode {symbol : String} {fault : SchemaError} : document.Sized →
      Utf8First (FaultyOpcode document.shape.opcodeBits document.opcodes) symbol →
      OpcodeFault document.shape.opcodeBits document.opcodes symbol fault →
      Judged document (.error (.schema fault))
  | default {name : String} : document.Sized →
      (∀ symbol, ¬ FaultyOpcode document.shape.opcodeBits document.opcodes symbol) →
      Utf8First (UnknownDefault document.defaults) name →
      Judged document (.error (.schema (.unknownField name)))
  | loaded {loaded : Loaded} : document.Sized →
      (∀ symbol, ¬ FaultyOpcode document.shape.opcodeBits document.opcodes symbol) →
      (∀ name, ¬ UnknownDefault document.defaults name) → document.LoadsAs loaded →
      Judged document (.ok loaded)

variable {document : Document}

theorem defaultOf_iff {given : Option Value} {value : Nat} :
    DefaultOf given value ↔ (given.map Value.bits).getD 0 = value := by
  constructor
  · rintro ⟨⟩ <;> rfl
  · rintro rfl
    rcases given with _ | (_ | _) | value
    · exact .absent
    · exact .off
    · exact .on
    · exact .level value

/-- A transition that is given and cannot be used is none of its state. -/
theorem countP_isUnusable (entries : List StateEntry) :
    entries.countP (·.isUnusable) = (entries.zip (entries.map (·.state))).countP
      fun pair => pair.1.next.isSome && pair.2.next.isNone := by
  have unusable (entry : StateEntry) :
      entry.isUnusable = (entry.next.isSome && entry.state.next.isNone) := by
    unfold StateEntry.isUnusable StateEntry.state
    cases entry.next <;> rfl
  induction entries with
  | nil => rfl
  | cons entry rest ih =>
      rw [List.map_cons, List.zip_cons_cons, List.countP_cons, List.countP_cons, ih, unusable]

theorem LoadsAs.unique {first second : Loaded} (here : document.LoadsAs first)
    (there : document.LoadsAs second) : first = second := by
  have defaults : first.schema.defaults = second.schema.defaults := by
    ext s
    exact (defaultOf_iff.mp (here.defaults s)).symm.trans (defaultOf_iff.mp (there.defaults s))
  have schema : first.schema = second.schema :=
    Schema.ext (here.geometry.trans there.geometry.symm) (here.opcodes.trans there.opcodes.symm)
      defaults
  have states : first.program.states = second.program.states :=
    (forall₂_becomes_iff.mp here.states).symm.trans (forall₂_becomes_iff.mp there.states)
  have warnings : first.warnings = second.warnings := by
    rw [here.warnings, there.warnings, states]
  obtain ⟨_, ⟨_⟩, _⟩ := first
  obtain ⟨_, ⟨_⟩, _⟩ := second
  cases schema
  cases states
  cases warnings
  rfl

section

variable {bare last : Schema} {fault : SchemaError}

theorem load_of_build_error
    (failed : Schema.build document.shape document.opcodes.entries = .error fault) :
    document.load = .error fault := by
  change ((Schema.build document.shape document.opcodes.entries >>= _) >>= _) = _
  rw [failed]
  rfl

theorem load_of_build
    (built : Schema.build document.shape document.opcodes.entries = .ok bare) :
    document.load =
      (bare.withDefaults (document.defaults.entries.map fun entry => (entry.1, entry.2.bits)) >>=
        fun last => .ok ⟨last, document.program, document.states.countP (·.isUnusable)⟩) := by
  change ((Schema.build document.shape document.opcodes.entries >>= _) >>= _) = _
  rw [built]
  rfl

theorem loadsAs_of_build
    (built : Schema.build document.shape document.opcodes.entries = .ok bare)
    (defaulted : bare.withDefaults (document.defaults.entries.map fun entry =>
      (entry.1, entry.2.bits)) = .ok last) :
    document.LoadsAs ⟨last, document.program, document.states.countP (·.isUnusable)⟩ := by
  obtain ⟨geometry, defaults, opcodes, -⟩ := Schema.build_eq_ok_iff.mp built
  obtain ⟨-, rfl⟩ := Schema.withDefaults_eq_ok_iff.mp defaulted
  have states := forall₂_becomes_iff.mpr (rfl : document.states.map (·.state) = _)
  refine ⟨geometry, opcodes, fun s => defaultOf_iff.mpr ?_, states, countP_isUnusable _⟩
  change _ = (Record.overlay bare.defaults document.defaults).get s
  rw [Record.get_overlay, defaults, Assignment.get_zero]

end

/-- The answer to a document is the one it is judged by, and no other. -/
theorem load_eq_iff {answer : Except LoadError Loaded} :
    document.load.mapError .schema = answer ↔ Judged document answer := by
  constructor
  · rintro rfl
    -- A document is sized just if its shape is valid, by definition.
    by_cases valid : document.Sized
    · cases built : Schema.build document.shape document.opcodes.entries with
      | error fault =>
          obtain ⟨symbol, first, faulty⟩ := (build_eq_error_iff valid).mp built
          rw [load_of_build_error built]
          exact .opcode valid first faulty
      | ok bare =>
          have clean := (exists_build_iff valid).mp ⟨bare, built⟩
          rw [load_of_build built]
          cases defaulted : bare.withDefaults (document.defaults.entries.map fun entry =>
              (entry.1, entry.2.bits)) with
          | error fault =>
              obtain ⟨name, first, rfl⟩ := withDefaults_eq_error_iff.mp defaulted
              exact .default valid clean first
          | ok last =>
              have known := exists_withDefaults_iff.mp ⟨last, defaulted⟩
              exact .loaded valid clean known (loadsAs_of_build built defaulted)
    · have failed : Schema.build document.shape document.opcodes.entries =
          .error (.invalidGeometry document.shape.stateBits document.shape.opcodeBits) :=
        dif_neg valid
      rw [load_of_build_error failed]
      exact .geometry valid
  · intro judged
    cases judged with
    | geometry invalid => rw [load_of_build_error (dif_neg invalid), Except.mapError]
    | opcode valid first faulty =>
        rw [load_of_build_error ((build_eq_error_iff valid).mpr ⟨_, first, faulty⟩),
          Except.mapError]
    | default valid clean first =>
        obtain ⟨bare, built⟩ := (exists_build_iff valid).mpr clean
        rw [load_of_build built, withDefaults_eq_error_iff.mpr ⟨_, first, rfl⟩]
        rfl
    | loaded valid clean known loads =>
        obtain ⟨bare, built⟩ := (exists_build_iff valid).mpr clean
        obtain ⟨last, defaulted⟩ := exists_withDefaults_iff.mpr known
        have same := (loadsAs_of_build built defaulted).unique loads
        rw [load_of_build built, defaulted, ← same]
        rfl

theorem Judged.ne_duplicateOpcode {symbol : String} :
    ¬ Judged document (.error (.schema (.duplicateOpcode symbol))) := by
  intro judged
  cases judged with
  | opcode _ _ faulty => cases faulty

end Document

/-- Loading answers a text stage by stage. A text that cannot be made strict is answered by its
fault of syntax, and strict text in which no document is written by a fault of documents. A document
is judged by its schema: an invalid geometry is told before any opcode, the smallest symbol with a
fault before any default, the smallest unknown name of a default before success; that a symbol is
repeated is never told. -/
theorem Loaded.ofText_tells_first_fault (text : List Char) :
    (∀ fault, Relaxed.toJson text = .error fault → ofText text = .error (.syntaxFault fault)) ∧
      (∀ strict, Relaxed.toJson text = .ok strict →
        ((¬ ∃ document, Document.WrittenIn strict document) →
          ∃ fault, ofText text = .error (.document fault)) ∧
        ∀ document, Document.WrittenIn strict document →
          ∀ answer, ofText text = answer ↔ Document.Judged document answer) ∧
      ∀ symbol, ofText text ≠ .error (.schema (.duplicateOpcode symbol)) := by
  refine ⟨fun fault => ofText_of_syntaxFault, fun strict translated => ⟨?_, ?_⟩, ?_⟩
  · intro unwritten
    cases found : Document.read strict with
    | error fault => exact ⟨fault, ofText_of_unread translated found⟩
    | ok document =>
        have written := Document.read_eq_ok_iff_writtenIn.mp found
        exact absurd ⟨document, written⟩ unwritten
  · intro document written answer
    have reads : Document.Reads text document :=
      ⟨strict, translated, Document.read_eq_ok_iff_writtenIn.mpr written⟩
    rw [reads.ofText_eq, Document.load_eq_iff]
  · intro symbol told
    cases translated : Relaxed.toJson text with
    | error fault => cases (ofText_of_syntaxFault translated).symm.trans told
    | ok strict =>
        cases found : Document.read strict with
        | error fault => cases (ofText_of_unread translated found).symm.trans told
        | ok document =>
            have reads : Document.Reads text document := ⟨strict, translated, found⟩
            rw [reads.ofText_eq] at told
            exact Document.Judged.ne_duplicateOpcode (Document.load_eq_iff.mp told)

/-- A symbol whose first code is too wide and whose last one is taken, beside an unknown default. -/
def Document.severalFaults : List Char :=
  ("\x7b\x22states\x22:[],\x22defaults\x22:\x7b\x22halt\x22:true\x7d," ++
    "\x22opcodes\x22:\x7b\x22B\x22:300,\x22A\x22:4,\x22B\x22:4\x7d\x7d").toList

/-- States of one name, of which one follows an unknown state with an unknown control value, and one
with a transition that is none. -/
def Document.looseStates : List Char :=
  ("\x7bopcodes:\x7bA:4\x7d,defaults:\x7bwrite:true\x7d,states:[" ++
    "\x7bname:\x27S\x27,control:\x7bhalt:3\x7d,next:\x27T\x27\x7d," ++
    "\x7bname:\x27S\x27,next:[\x7bzero:true,state:\x27S\x27\x7d]\x7d," ++
    "\x7bname:\x27R\x27,next:7\x7d]\x7d").toList

def Document.looseProgram : List State :=
  [⟨"S", .ofList [("halt", .level 3)], some (.always "T")⟩,
    ⟨"S", .empty, some (.guarded [⟨none, some true, none, "S"⟩])⟩, ⟨"R", .empty, none⟩]

theorem Loaded.ofText_tells_first_fault_several :
    (∃ strict document, Relaxed.toJson Document.severalFaults = .ok strict ∧
      Document.WrittenIn strict document ∧
      Document.Judged document (.error (.schema (.duplicateCode 4 "A" "B")))) ∧
    ∃ strict document loaded, Relaxed.toJson Document.looseStates = .ok strict ∧
      Document.WrittenIn strict document ∧ Document.Judged document (.ok loaded) ∧
      loaded.program.states = Document.looseProgram ∧ loaded.warnings = 1 := by
  have judged {text : List Char} {answer : Except LoadError Loaded}
      (strict : (Relaxed.toJson text).isOk = true) (told : ofText text = answer)
      (readable : ∀ fault, answer ≠ .error (.document fault)) :
      ∃ strict document, Relaxed.toJson text = .ok strict ∧
        Document.WrittenIn strict document ∧ Document.Judged document answer := by
    obtain ⟨strict, translated⟩ := exists_ok_of_isOk strict
    obtain ⟨-, stages, -⟩ := ofText_tells_first_fault text
    obtain ⟨unread, judged⟩ := stages strict translated
    by_cases written : ∃ document, Document.WrittenIn strict document
    · obtain ⟨document, written⟩ := written
      exact ⟨strict, document, translated, written, (judged document written _).mp told⟩
    · obtain ⟨fault, other⟩ := unread written
      exact absurd (told.symm.trans other) (readable fault)
  constructor
  · have told : ofText Document.severalFaults = .error (.schema (.duplicateCode 4 "A" "B")) :=
      fault?_eq_some_iff.mp (by decide +kernel)
    exact judged (by decide +kernel) told nofun
  · obtain ⟨loaded, success⟩ : ∃ loaded, ofText Document.looseStates = .ok loaded :=
      exists_ok_of_isOk (by decide +kernel)
    obtain ⟨strict, document, translated, written, answer⟩ :=
      judged (by decide +kernel) success nofun
    have shown : (ofText Document.looseStates).toOption.map
        (fun loaded => (loaded.program.states, loaded.warnings)) =
          some (Document.looseProgram, 1) := by decide +kernel
    rw [success] at shown
    obtain ⟨states, warnings⟩ := Prod.mk.inj (Option.some.inj shown)
    exact ⟨strict, document, loaded, translated, written, answer, states, warnings⟩

end ControlStore
