import ControlStore.Proofs.MemberRuns
import ControlStore.Proofs.TransitionForms

set_option autoImplicit false

/-!
Numbers, texts, control values, geometries and states are read exactly if a tree gives them.
-/
namespace ControlStore

namespace Document

-- Powers are those of the core library, whatever else is imported beside this module.
attribute [local instance (2000)] instPowNat

open Json (Tree Elements Members Text)

/-! ### Plain values -/

theorem natural_iff {number : Int} :
    0 ≤ number ∧ number < numberLimit ↔ ∃ value : Nat, number = value ∧ value < 2 ^ (32 : Nat) := by
  constructor
  · rintro ⟨positive, below⟩
    obtain ⟨value, rfl⟩ := Int.eq_ofNat_of_zero_le positive
    exact ⟨value, rfl, Int.ofNat_lt.mp below⟩
  · rintro ⟨value, rfl, below⟩
    exact ⟨Int.natCast_nonneg _, Int.ofNat_lt.mpr below⟩

theorem readNumber_exact : Exact readNumber NumberOf := by
  intro tree value
  constructor
  · intro success
    cases tree with
    | number spelling =>
        obtain ⟨number, found, success⟩ := bind_eq_ok_iff.mp success
        have read := lift_eq_ok_iff.mp found
        cases number with
        | integer number =>
            dsimp only at success
            split at success
            · obtain ⟨value, rfl, below⟩ := natural_iff.mp ‹_›
              cases success
              exact .number read below
            · cases success
        | decimal => cases success
    | _ => exact absurd success refuse_ne_ok
  · rintro ⟨found, below⟩
    refine bind_eq_ok_iff.mpr ⟨_, lift_eq_ok_iff.mpr found, ?_⟩
    exact if_pos (natural_iff.mpr ⟨_, rfl, below⟩)

theorem readText_exact : Exact readText TextOf := by
  intro tree content
  constructor
  · intro success
    cases tree with
    | text text => exact .text (lift_eq_ok_iff.mp success)
    | _ => exact absurd success refuse_ne_ok
  · rintro ⟨found⟩
    exact lift_eq_ok_iff.mpr found

/-- Lists and maps are no control values, so the depth to which they may be nested does not matter. -/
theorem readControlValue_exact (depth : Nat) : Exact (readControlValue depth) ControlValueOf := by
  intro tree control
  constructor
  · intro success
    obtain ⟨value, found, success⟩ := bind_eq_ok_iff.mp success
    have read := lift_eq_ok_iff.mp found
    cases tree with
    | flag on =>
        cases read
        cases success
        exact .flag on
    | number spelling =>
        obtain ⟨number, spelled, rfl⟩ := map_eq_ok_iff.mp read
        cases number with
        | integer number =>
            dsimp only [controlValue?] at success
            split_ifs at success with bounds
            obtain ⟨value, rfl, below⟩ := natural_iff.mp bounds
            cases success
            exact .level (.number spelled below)
        | decimal => cases success
    | text text =>
        obtain ⟨_, -, rfl⟩ := map_eq_ok_iff.mp read
        cases success
    | list elements | map members =>
        cases depth with
        | zero => cases read
        | succ depth =>
            obtain ⟨_, -, rfl⟩ := map_eq_ok_iff.mp read
            cases success
    | null =>
        cases read
        cases success
    | broken fault => cases read
  · intro given
    cases given with
    | flag on => exact bind_eq_ok_iff.mpr ⟨_, lift_eq_ok_iff.mpr (by rw [Tree.value]), rfl⟩
    | @level _ value number =>
        obtain ⟨spelled, below⟩ := number
        have read : Tree.value depth (.number _) = .ok (.number (.integer value)) :=
          map_eq_ok_iff.mpr ⟨_, spelled, rfl⟩
        refine bind_eq_ok_iff.mpr ⟨_, lift_eq_ok_iff.mpr read, ?_⟩
        rw [controlValue?, if_pos (natural_iff.mpr ⟨_, rfl, below⟩)]
        rfl

theorem readNext_exact : Exact readNext GivenNext := by
  intro tree given
  constructor
  · intro success
    by_cases null : tree = .null
    · subst null
      cases success
      exact .null
    · rw [readNext.eq_2 _ null, lift_eq_ok_iff] at success
      obtain ⟨value, found, rfl⟩ := map_eq_ok_iff.mp success
      exact .value null found
  · intro here
    cases here with
    | null => rfl
    | value noNull found =>
        rw [readNext.eq_2 _ noNull, lift_eq_ok_iff]
        exact map_eq_ok_iff.mpr ⟨_, found, rfl⟩

/-! ### Geometries -/

theorem geometryStep_iff (held : GeometryFields) (name : String) (tree : Tree)
    (next : GeometryFields) : GeometryStep held name tree next ↔
      Among (fun name tree => name ∉ Expected.geometry.fields → tree.skipFault? = none)
        (Beside (FieldStep "state_bits" readNumber) (FieldStep "opcode_bits" readNumber))
        held name tree next := by
  constructor
  · intro step
    cases step with
    | stateBits found =>
        exact ⟨fun unknown => absurd (by decide) unknown, .given rfl rfl found, .other (by decide)⟩
    | opcodeBits found =>
        exact ⟨fun unknown => absurd (by decide) unknown, .other (by decide), .given rfl rfl found⟩
    | other isState isOpcode passed => exact ⟨fun _ => passed, .other isState, .other isOpcode⟩
  · obtain ⟨stateBits, opcodeBits⟩ := held
    obtain ⟨stateBits', opcodeBits'⟩ := next
    rintro ⟨passed, first, second⟩
    by_cases isState : name = "state_bits"
    · subst isState
      simp (disch := decide) only [fieldStep_given, fieldStep_other] at first second
      obtain ⟨rfl, _, found, rfl⟩ := first
      subst second
      exact .stateBits found
    · by_cases isOpcode : name = "opcode_bits"
      · subst isOpcode
        simp (disch := decide) only [fieldStep_given, fieldStep_other] at first second
        obtain ⟨rfl, _, found, rfl⟩ := second
        subst first
        exact .opcodeBits found
      · rw [fieldStep_other isState] at first
        rw [fieldStep_other isOpcode] at second
        subst first second
        exact .other isState isOpcode (passed (by simp [Expected.fields, isState, isOpcode]))

theorem geometry_givenBy_iff {geometry : Geometry} {fields : List (String × Tree)} :
    geometry.GivenBy fields ↔
      (fields.lookup "state_bits").map readNumber = some (.ok geometry.stateBits) ∧
        (fields.lookup "opcode_bits").map readNumber = some (.ok geometry.opcodeBits) := by
  rw [← requiredField_iff readNumber_exact, ← requiredField_iff readNumber_exact]
  exact ⟨fun given => ⟨given.stateBits, given.opcodeBits⟩, fun ⟨one, two⟩ => ⟨one, two⟩⟩

theorem readGeometry_map_iff {members : Members} {geometry : Geometry} :
    readGeometry (.map members) = .ok geometry ↔
      GeometryOf (.map members) (some geometry) := by
  refine (readGeometryMembers_reader.eq_ok_iff (none, none)).trans ?_
  simp only [steps_congr geometryStep_iff, steps_among_iff, steps_beside_iff, steps_field_none]
  constructor
  · rintro ⟨entries, ⟨_, _⟩, names, ⟨passed, ⟨one, first⟩, two, second⟩, finished⟩
    obtain ⟨_, needed, finished⟩ := bind_eq_ok_iff.mp finished
    obtain ⟨_, needed', same⟩ := bind_eq_ok_iff.mp finished
    cases same
    obtain rfl := need_eq_ok_iff.mp needed
    obtain rfl := need_eq_ok_iff.mp needed'
    exact .map names (by simpa [Expected.fields] using ⟨one, two⟩) passed
      (geometry_givenBy_iff.mpr ⟨first, second⟩)
  · intro given
    cases given with
    | map names single passed given =>
        obtain ⟨first, second⟩ := geometry_givenBy_iff.mp given
        have once := by simpa [Expected.fields] using single
        exact ⟨_, (some _, some _), names, ⟨passed, ⟨once.1, first⟩, once.2, second⟩, rfl⟩

theorem tail_tail_eq_nil_iff {trees : List Tree} : trees.tail.tail = [] ↔ trees.length ≤ 2 := by
  rw [← List.length_eq_zero_iff, List.length_tail, List.length_tail]
  omega

theorem geometry_lookup (trees : List Tree) :
    (Expected.geometry.fields.zip trees).lookup "state_bits" = trees.head? ∧
      (Expected.geometry.fields.zip trees).lookup "opcode_bits" = trees.tail.head? := by
  rcases trees with _ | ⟨_, _ | ⟨_, _⟩⟩ <;> exact ⟨rfl, rfl⟩

theorem readGeometry_list_iff {elements : Elements} {geometry : Geometry} :
    readGeometry (.list elements) = .ok geometry ↔
      GeometryOf (.list elements) (some geometry) := by
  constructor
  · intro success
    obtain ⟨⟨_, behind⟩, first, success⟩ := bind_eq_ok_iff.mp success
    obtain ⟨⟨_, rest⟩, second, success⟩ := bind_eq_ok_iff.mp success
    obtain ⟨_, closed, same⟩ := bind_eq_ok_iff.mp success
    cases same
    have ended := endFault?_listed_iff.mp (check_eq_ok_iff.mp closed)
    obtain ⟨_, later, none, two⟩ := nextField_listed_iff.mp ⟨_, second, ended⟩
    obtain ⟨trees, listed, rfl, one⟩ := nextField_listed_iff.mp ⟨_, first, later⟩
    rw [readElement_required readNumber_exact] at one two
    have lookup := geometry_lookup trees
    rw [← lookup.1] at one
    rw [← lookup.2] at two
    exact .list (.list listed (tail_tail_eq_nil_iff.mp none)) ⟨one, two⟩
  · intro given
    cases given with
    | list fields given =>
        obtain ⟨one, two⟩ := given
        cases fields with
        | @list _ trees listed short =>
            have lookup := geometry_lookup trees
            rw [lookup.1, ← readElement_required readNumber_exact] at one
            rw [lookup.2, ← readElement_required readNumber_exact] at two
            have none := tail_tail_eq_nil_iff.mpr short
            obtain ⟨_, first, behind⟩ := nextField_listed_iff.mpr ⟨trees, listed, rfl, one⟩
            obtain ⟨_, second, ended⟩ := nextField_listed_iff.mpr ⟨_, behind, none, two⟩
            refine bind_eq_ok_iff.mpr ⟨_, first, bind_eq_ok_iff.mpr ⟨_, second, ?_⟩⟩
            exact bind_eq_ok_iff.mpr ⟨(), check_eq_ok_iff.mpr (endFault?_listed_iff.mpr ended), rfl⟩

theorem readGeometryOption_exact : Exact readGeometryOption GeometryOf := by
  intro tree given
  constructor
  · intro success
    cases tree with
    | null =>
        cases success
        exact .null
    | map members =>
        obtain ⟨geometry, found, rfl⟩ := map_eq_ok_iff.mp success
        exact readGeometry_map_iff.mp found
    | list elements =>
        obtain ⟨geometry, found, rfl⟩ := map_eq_ok_iff.mp success
        exact readGeometry_list_iff.mp found
    | _ =>
        obtain ⟨geometry, found, -⟩ := map_eq_ok_iff.mp success
        exact absurd found refuse_ne_ok
  · intro shaped
    cases shaped with
    | null => rfl
    | map names single passed given =>
        have found := readGeometry_map_iff.mpr (.map names single passed given)
        exact map_eq_ok_iff.mpr ⟨_, found, rfl⟩
    | list fields given =>
        have found := readGeometry_list_iff.mpr (.list fields given)
        exact map_eq_ok_iff.mpr ⟨_, found, rfl⟩

/-! ### States -/

theorem readControl_exact : Exact readControl (MapOf ControlValueOf) :=
  readMap_exact (readControlValue_exact _)

theorem stateStep_iff (held : StateFields) (name : String) (tree : Tree) (next : StateFields) :
    StateStep held name tree next ↔
      Among (fun name _ => name ∈ Expected.state.fields)
        (Beside (FieldStep "name" readText)
          (Beside (FieldStep "control" readControl) (FieldStep "next" readNext)))
        held name tree next := by
  constructor
  · intro step
    cases step with
    | name found =>
        have known : "name" ∈ Expected.state.fields := by decide
        exact ⟨known, .given rfl rfl found, .other (by decide), .other (by decide)⟩
    | control found =>
        have known : "control" ∈ Expected.state.fields := by decide
        exact ⟨known, .other (by decide), .given rfl rfl found, .other (by decide)⟩
    | next found =>
        have known : "next" ∈ Expected.state.fields := by decide
        exact ⟨known, .other (by decide), .other (by decide), .given rfl rfl found⟩
  · obtain ⟨content, control, given⟩ := held
    obtain ⟨content', control', given'⟩ := next
    rintro ⟨known, first, second, third⟩
    have named : name = "name" ∨ name = "control" ∨ name = "next" := by
      simpa [Expected.fields] using known
    rcases named with rfl | rfl | rfl <;>
      simp (disch := decide) only [fieldStep_given, fieldStep_other] at first second third
    · obtain ⟨rfl, _, found, rfl⟩ := first
      subst second third
      exact .name found
    · obtain ⟨rfl, _, found, rfl⟩ := second
      subst first third
      exact .control found
    · obtain ⟨rfl, _, found, rfl⟩ := third
      subst first second
      exact .next found

/-- The members of a state give each of its fields at most once. -/
theorem steps_state_none {entries : List (String × Tree)} {last : StateFields} :
    Steps StateStep (none, none, none) entries last ↔
      ((entries.map (·.1)).Nodup ∧ ∀ entry ∈ entries, entry.1 ∈ Expected.state.fields) ∧
      (entries.lookup "name").map readText = last.1.map .ok ∧
      (entries.lookup "control").map readControl = last.2.1.map .ok ∧
      (entries.lookup "next").map readNext = last.2.2.map .ok := by
  simp only [steps_congr stateStep_iff, steps_among_iff, steps_beside_iff, steps_field_none,
    nodup_fields_iff]
  constructor
  · rintro ⟨known, ⟨one, name⟩, ⟨two, control⟩, three, next⟩
    exact ⟨⟨known, by simp [Expected.fields, one, two, three]⟩, name, control, next⟩
  · rintro ⟨⟨known, single⟩, name, control, next⟩
    exact ⟨known, ⟨single _ (by decide), name⟩, ⟨single _ (by decide), control⟩,
      single _ (by decide), next⟩

theorem readState_map_iff {members : Members} {entry : StateEntry} :
    readState (.map members) = .ok entry ↔ StateOf (.map members) entry := by
  refine (readStateMembers_reader.eq_ok_iff (none, none, none)).trans ?_
  constructor
  · rintro ⟨fields, ⟨name, control, next⟩, names, steps, finished⟩
    obtain ⟨⟨distinct, known⟩, one, two, three⟩ := steps_state_none.mp steps
    obtain ⟨_, needed, same⟩ := bind_eq_ok_iff.mp finished
    cases same
    obtain rfl := need_eq_ok_iff.mp needed
    exact .fields (.map names distinct known)
      { name := (requiredField_iff readText_exact).mpr one
        control := (optionalField_iff readControl_exact).mpr ⟨control, two, rfl⟩
        next := (optionalField_iff readNext_exact).mpr ⟨next, three, rfl⟩ }
  · rintro ⟨part, given⟩
    obtain ⟨control, two, controlled⟩ := (optionalField_iff readControl_exact).mp given.control
    obtain ⟨next, three, followed⟩ := (optionalField_iff readNext_exact).mp given.next
    have one := (requiredField_iff readText_exact).mp given.name
    cases part with
    | map names distinct known =>
        have steps : Steps StateStep (none, none, none) _ (some entry.name, control, next) :=
          steps_state_none.mpr ⟨⟨distinct, known⟩, one, two, three⟩
        cases entry
        cases controlled
        cases followed
        exact ⟨_, _, names, steps, rfl⟩

theorem state_lookup (trees : List Tree) :
    (Expected.state.fields.zip trees).lookup "name" = trees.head? ∧
      (Expected.state.fields.zip trees).lookup "control" = trees.tail.head? ∧
      (Expected.state.fields.zip trees).lookup "next" = trees.tail.tail.head? := by
  rcases trees with _ | ⟨_, _ | ⟨_, _ | ⟨_, _⟩⟩⟩ <;> exact ⟨rfl, rfl, rfl⟩

theorem tail_tail_tail_eq_nil_iff {trees : List Tree} :
    trees.tail.tail.tail = [] ↔ trees.length ≤ 3 := by
  rw [tail_tail_eq_nil_iff, List.length_tail]
  omega

theorem readState_list_iff {elements : Elements} {entry : StateEntry} :
    readState (.list elements) = .ok entry ↔ StateOf (.list elements) entry := by
  constructor
  · intro success
    obtain ⟨⟨_, behind⟩, first, success⟩ := bind_eq_ok_iff.mp success
    obtain ⟨⟨_, last⟩, second, success⟩ := bind_eq_ok_iff.mp success
    obtain ⟨⟨_, rest⟩, third, success⟩ := bind_eq_ok_iff.mp success
    obtain ⟨_, closed, same⟩ := bind_eq_ok_iff.mp success
    cases same
    have ended := endFault?_listed_iff.mp (check_eq_ok_iff.mp closed)
    obtain ⟨_, listed, none, three⟩ := nextField_listed_iff.mp ⟨_, third, ended⟩
    obtain ⟨_, later, rfl, two⟩ := nextField_listed_iff.mp ⟨_, second, listed⟩
    obtain ⟨trees, whole, rfl, one⟩ := nextField_listed_iff.mp ⟨_, first, later⟩
    rw [readElement_required readText_exact] at one
    rw [readElement_optional readControl_exact] at two
    rw [readElement_optional readNext_exact] at three
    have lookup := state_lookup trees
    rw [← lookup.1] at one
    rw [← lookup.2.1] at two
    rw [← lookup.2.2] at three
    exact .fields (.list whole (tail_tail_tail_eq_nil_iff.mp none)) ⟨one, two, three⟩
  · rintro ⟨part, one, two, three⟩
    cases part with
    | @list _ trees whole short =>
        have lookup := state_lookup trees
        rw [lookup.1, ← readElement_required readText_exact] at one
        rw [lookup.2.1, ← readElement_optional readControl_exact] at two
        rw [lookup.2.2, ← readElement_optional readNext_exact] at three
        have none := tail_tail_tail_eq_nil_iff.mpr short
        obtain ⟨_, first, later⟩ := nextField_listed_iff.mpr ⟨trees, whole, rfl, one⟩
        obtain ⟨_, second, listed⟩ := nextField_listed_iff.mpr ⟨_, later, rfl, two⟩
        obtain ⟨_, third, ended⟩ := nextField_listed_iff.mpr ⟨_, listed, none, three⟩
        refine bind_eq_ok_iff.mpr ⟨_, first, bind_eq_ok_iff.mpr ⟨_, second, ?_⟩⟩
        refine bind_eq_ok_iff.mpr ⟨_, third, bind_eq_ok_iff.mpr ⟨(), ?_, rfl⟩⟩
        exact check_eq_ok_iff.mpr (endFault?_listed_iff.mpr ended)

theorem readState_exact : Exact readState StateOf := by
  intro tree entry
  cases tree with
  | map members => exact readState_map_iff
  | list elements => exact readState_list_iff
  | _ =>
      constructor
      · exact fun success => absurd success refuse_ne_ok
      · rintro ⟨⟨⟩, -⟩

end Document

theorem StateEntry.becomes_iff {entry : StateEntry} {state : State} :
    entry.Becomes state ↔ entry.state = state := by
  constructor
  · rintro ⟨name, control, next⟩
    cases state
    cases name
    cases control
    rw [StateEntry.state, bind_ofJson?_eq_iff.mpr next]
  · rintro rfl
    exact ⟨rfl, rfl, bind_ofJson?_eq_iff.mp rfl⟩

theorem forall₂_becomes_iff {entries : List StateEntry} {states : List State} :
    List.Forall₂ StateEntry.Becomes entries states ↔ entries.map (·.state) = states := by
  rw [← List.forall₂_eq_eq_eq, List.forall₂_map_left_iff]
  simp only [← StateEntry.becomes_iff]

end ControlStore
