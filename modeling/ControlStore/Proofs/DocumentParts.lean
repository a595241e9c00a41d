import ControlStore.Proofs.HeldDocuments
import ControlStore.Proofs.StateParts

set_option autoImplicit false

/-!
A document is read from a text exactly if it is written in it.
-/
namespace ControlStore.Document

open Json (Tree Elements Members)

theorem readOpcodes_exact : Exact readOpcodes (MapOf NumberOf) := readMap_exact readNumber_exact

theorem readDefaults_exact : Exact readDefaults (MapOf ControlValueOf) :=
  readMap_exact (readControlValue_exact _)

theorem readStates_exact : Exact (readList readState) (ListOf StateOf) :=
  readList_exact readState_exact

/-- A member of a document is for one of the fields, and the others stay. -/
theorem documentStep_iff (held : DocumentFields) (name : String) (tree : Tree)
    (next : DocumentFields) : DocumentStep held name tree next ↔
      Among (fun name _ => name ∈ Expected.document.fields)
        (Beside (FieldStep "geometry" readGeometryOption)
          (Beside (FieldStep "opcodes" readOpcodes)
            (Beside (FieldStep "defaults" readDefaults)
              (FieldStep "states" (readList readState)))))
        held name tree next := by
  obtain ⟨geometry, opcodes, defaults, states⟩ := held
  obtain ⟨geometry', opcodes', defaults', states'⟩ := next
  constructor
  · intro step
    cases step with
    | geometry found =>
        have known : "geometry" ∈ Expected.document.fields := by decide
        exact ⟨known, .given rfl rfl found, .other (by decide), .other (by decide),
          .other (by decide)⟩
    | opcodes found =>
        have known : "opcodes" ∈ Expected.document.fields := by decide
        exact ⟨known, .other (by decide), .given rfl rfl found, .other (by decide),
          .other (by decide)⟩
    | defaults found =>
        have known : "defaults" ∈ Expected.document.fields := by decide
        exact ⟨known, .other (by decide), .other (by decide), .given rfl rfl found,
          .other (by decide)⟩
    | states found =>
        have known : "states" ∈ Expected.document.fields := by decide
        exact ⟨known, .other (by decide), .other (by decide), .other (by decide),
          .given rfl rfl found⟩
  · rintro ⟨known, first, second, third, fourth⟩
    have named : name = "geometry" ∨ name = "opcodes" ∨ name = "defaults" ∨ name = "states" := by
      simpa [Expected.fields] using known
    rcases named with rfl | rfl | rfl | rfl <;>
      simp (disch := decide) only [fieldStep_given, fieldStep_other] at first second third fourth
    · obtain ⟨rfl, _, found, rfl⟩ := first
      subst second third fourth
      exact .geometry found
    · obtain ⟨rfl, _, found, rfl⟩ := second
      subst first third fourth
      exact .opcodes found
    · obtain ⟨rfl, _, found, rfl⟩ := third
      subst first second fourth
      exact .defaults found
    · obtain ⟨rfl, _, found, rfl⟩ := fourth
      subst first second third
      exact .states found

/-- The members of a document give each of its fields at most once. -/
theorem steps_document_none {entries : List (String × Tree)} {last : DocumentFields} :
    Steps DocumentStep (none, none, none, none) entries last ↔
      ((entries.map (·.1)).Nodup ∧ ∀ entry ∈ entries, entry.1 ∈ Expected.document.fields) ∧
      (entries.lookup "geometry").map readGeometryOption = last.1.map .ok ∧
      (entries.lookup "opcodes").map readOpcodes = last.2.1.map .ok ∧
      (entries.lookup "defaults").map readDefaults = last.2.2.1.map .ok ∧
      (entries.lookup "states").map (readList readState) = last.2.2.2.map .ok := by
  simp only [steps_congr documentStep_iff, steps_among_iff, steps_beside_iff, steps_field_none,
    nodup_fields_iff]
  constructor
  · rintro ⟨known, ⟨one, geometry⟩, ⟨two, opcodes⟩, ⟨three, defaults⟩, four, states⟩
    exact ⟨⟨known, by simp [Expected.fields, one, two, three, four]⟩, geometry, opcodes, defaults,
      states⟩
  · rintro ⟨⟨known, single⟩, geometry, opcodes, defaults, states⟩
    exact ⟨known, ⟨single _ (by decide), geometry⟩, ⟨single _ (by decide), opcodes⟩,
      ⟨single _ (by decide), defaults⟩, single _ (by decide), states⟩

theorem ofTree_map_iff {members : Members} {document : Document} :
    ofTree (.map members) = .ok document ↔ DocumentOf (.map members) document := by
  refine (readDocumentMembers_reader.eq_ok_iff (none, none, none, none)).trans ?_
  constructor
  · rintro ⟨fields, ⟨geometry, opcodes, defaults, states⟩, names, steps, finished⟩
    obtain ⟨⟨distinct, known⟩, one, two, three, four⟩ := steps_document_none.mp steps
    obtain ⟨_, needed, finished⟩ := bind_eq_ok_iff.mp finished
    obtain ⟨_, given, same⟩ := bind_eq_ok_iff.mp finished
    cases same
    obtain rfl := need_eq_ok_iff.mp needed
    obtain rfl := need_eq_ok_iff.mp given
    exact .fields (.map names distinct known)
      { geometry := (optionalField_iff readGeometryOption_exact).mpr ⟨geometry, one, rfl⟩
        opcodes := (requiredField_iff readOpcodes_exact).mpr two
        defaults := (optionalField_iff readDefaults_exact).mpr ⟨defaults, three, rfl⟩
        states := (requiredField_iff readStates_exact).mpr four }
  · rintro ⟨part, given⟩
    obtain ⟨geometry, one, shaped⟩ := (optionalField_iff readGeometryOption_exact).mp given.geometry
    obtain ⟨defaults, three, valued⟩ := (optionalField_iff readDefaults_exact).mp given.defaults
    have two := (requiredField_iff readOpcodes_exact).mp given.opcodes
    have four := (requiredField_iff readStates_exact).mp given.states
    cases part with
    | map names distinct known =>
        have steps : Steps DocumentStep (none, none, none, none) _
            (geometry, some document.opcodes, defaults, some document.states) :=
          steps_document_none.mpr ⟨⟨distinct, known⟩, one, two, three, four⟩
        cases document
        cases shaped
        cases valued
        exact ⟨_, _, names, steps, rfl⟩

/-- A document written as a list has all its fields if it has the last of them. -/
theorem exists_four_of_last {trees : List Tree} (short : trees.length ≤ 4)
    {states : Tree} (last : (Expected.document.fields.zip trees).lookup "states" = some states) :
    ∃ first second third fourth, trees = [first, second, third, fourth] := by
  rcases trees with _ | ⟨first, _ | ⟨second, _ | ⟨third, _ | ⟨fourth, _ | ⟨fifth, rest⟩⟩⟩⟩⟩
  · simp at last
  · simp [Expected.fields, List.lookup_cons] at last
  · simp [Expected.fields, List.lookup_cons] at last
  · simp [Expected.fields, List.lookup_cons] at last
  · exact ⟨first, second, third, fourth, rfl⟩
  · simp only [List.length_cons] at short
    omega

theorem ofTree_list_iff {elements : Elements} {document : Document} :
    ofTree (.list elements) = .ok document ↔ DocumentOf (.list elements) document := by
  rw [ofTree_list_eq_ok_iff]
  simp only [readGeometryOption_exact _ _, readOpcodes_exact _ _, readDefaults_exact _ _,
    readStates_exact _ _]
  constructor
  · rintro ⟨first, second, third, fourth, rfl, one, two, three, four⟩
    have listed : Listed (.item first (.item second (.item third (.item fourth (.done .closed)))))
        [first, second, third, fourth] := .item (.item (.item (.item .done)))
    exact .fields (.list listed (Nat.le_refl 4)) ⟨.given one, .given two, .given three, .given four⟩
  · rintro ⟨part, ⟨one, two, three, four⟩⟩
    obtain ⟨_, last, -⟩ := four.exists_some
    cases part with
    | list listed short =>
        obtain ⟨first, second, third, fourth, rfl⟩ := exists_four_of_last short last
        simp only [listed_cons_iff, listed_nil_iff] at listed
        obtain ⟨_, rfl, _, rfl, _, rfl, _, rfl, rfl⟩ := listed
        exact ⟨first, second, third, fourth, rfl, optionalField_some.mp one,
          requiredField_some.mp two, optionalField_some.mp three, requiredField_some.mp four⟩

/-- A document is read from a tree exactly if the tree is the document. -/
theorem ofTree_exact : Exact ofTree DocumentOf := by
  intro tree document
  cases tree with
  | map members => exact ofTree_map_iff
  | list elements => exact ofTree_list_iff
  | _ =>
      constructor
      · exact fun success => absurd success refuse_ne_ok
      · rintro ⟨⟨⟩, -⟩

/-- A document is read from a text exactly if it is written in it. -/
theorem read_eq_ok_iff_writtenIn {text : List Char} {document : Document} :
    Document.read text = .ok document ↔ WrittenIn text document := by
  rw [read_eq_ok_iff, ofTree_exact]
  constructor
  · rintro ⟨given, whole⟩
    exact ⟨_, Prod.ext rfl whole, given⟩
  · rintro ⟨tree, whole, given⟩
    rw [whole]
    exact ⟨given, rfl⟩

end ControlStore.Document
