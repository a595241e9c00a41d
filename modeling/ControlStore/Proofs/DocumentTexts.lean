import ControlStore.Document.Read
import ControlStore.Proofs.Matched
import ControlStore.Proofs.TreeTexts
import Mathlib.Tactic.SplitIfs

set_option autoImplicit false

/-!
The quoted texts of a document. A document is read from a tree whose texts may be replaced: as long
as each replaced text is read alike, the documents are the same and the faults alike.
-/
namespace ControlStore

namespace Matched

variable {ε ε' α α' : Type} {faults : ε → ε' → Prop} {values : α → α' → Prop}

theorem ite {p : Prop} [Decidable p] {first second : Except ε α} {first' second' : Except ε' α'}
    (holds : p → Matched faults values first first')
    (fails : ¬p → Matched faults values second second') :
    Matched faults values (if p then first else second) (if p then first' else second') := by
  split_ifs with decided
  · exact holds decided
  · exact fails decided

end Matched

namespace Json

/-- A replacement of texts under which each is read and passed over alike. -/
structure Harmless (told : Fault → Fault → Prop) (f : Text → Text) : Prop where
  alike : ∀ fault, told fault fault
  read : ∀ quoted : Text, Matched told Eq quoted.read (f quoted).read
  skip : ∀ quoted : Text, Option.Rel told quoted.skip (f quoted).skip

variable {told : Fault → Fault → Prop} {f : Text → Text}

/-! ### Values -/

mutual

theorem Tree.value_matched (harmless : Harmless told f) (tree : Tree) (depth : Nat) :
    Matched told Eq (tree.value depth) ((tree.mapText f).value depth) := by
  match tree, depth with
  | .null, _ | .flag _, _ => exact rfl
  | .number spelling, _ => exact Matched.refl harmless.alike _
  | .broken fault, _ => exact harmless.alike fault
  | .text quoted, _ => exact (harmless.read quoted).map_eq Value.text
  | .list _, 0 | .map _, 0 => exact harmless.alike _
  | .list elements, depth + 1 =>
      exact (elements.values_matched harmless depth).map_eq Value.list
  | .map members, depth + 1 =>
      exact (members.values_matched harmless depth).map_eq Value.map

theorem Elements.values_matched (harmless : Harmless told f) (elements : Elements) (depth : Nat) :
    Matched told Eq (elements.values depth) ((elements.mapText f).values depth) := by
  match elements with
  | .done _ => exact Matched.refl harmless.alike _
  | .item tree rest =>
      refine (tree.value_matched harmless depth).bind_eq fun value => ?_
      exact (rest.values_matched harmless depth).map_eq (value :: ·)

theorem Members.values_matched (harmless : Harmless told f) (members : Members) (depth : Nat) :
    Matched told Eq (members.values depth) ((members.mapText f).values depth) := by
  match members with
  | .done _ => exact Matched.refl harmless.alike _
  | .entry key tree rest =>
      refine (harmless.read key).bind_eq fun name => ?_
      refine (tree.value_matched harmless depth).bind_eq fun value => ?_
      exact (rest.values_matched harmless depth).map_eq ((name, value) :: ·)

end

/-! ### Passed over -/

theorem or_like {α : Type} {like : α → α → Prop} {first second first' second' : Option α}
    (here : Option.Rel like first second) (behind : Option.Rel like first' second') :
    Option.Rel like (first.or first') (second.or second') := by
  cases here with
  | none => exact behind
  | some same => exact .some same

theorem Harmless.same (harmless : Harmless told f) (fault : Option Fault) :
    Option.Rel told fault fault := by
  cases fault with
  | none => exact .none
  | some fault => exact .some (harmless.alike fault)

mutual

theorem Tree.skipFault?_like (harmless : Harmless told f) (tree : Tree) :
    Option.Rel told tree.skipFault? (tree.mapText f).skipFault? := by
  match tree with
  | .null | .flag _ => exact .none
  | .number _ => exact harmless.same _
  | .broken fault => exact .some (harmless.alike fault)
  | .text quoted => exact harmless.skip quoted
  | .list elements => exact elements.skipFault?_like harmless
  | .map members => exact members.skipFault?_like harmless

theorem Elements.skipFault?_like (harmless : Harmless told f) (elements : Elements) :
    Option.Rel told elements.skipFault? (elements.mapText f).skipFault? := by
  match elements with
  | .done _ => exact harmless.same _
  | .item tree rest => exact or_like (tree.skipFault?_like harmless) (rest.skipFault?_like harmless)

theorem Members.skipFault?_like (harmless : Harmless told f) (members : Members) :
    Option.Rel told members.skipFault? (members.mapText f).skipFault? := by
  match members with
  | .done _ => exact harmless.same _
  | .entry key tree rest =>
      exact or_like (harmless.skip key)
        (or_like (tree.skipFault?_like harmless) (rest.skipFault?_like harmless))

end

end Json

namespace Document

open Json (Tree Elements Members Text Harmless)

variable {told : Json.Fault → Json.Fault → Prop} {f : Text → Text} {α β : Type}

/-! ### Parts -/

/-- Faults of documents that are the same but for a fault of the text itself. -/
inductive Alike (told : Json.Fault → Json.Fault → Prop) : Fault → Fault → Prop where
  | json {fault fault' : Json.Fault} : told fault fault' → Alike told (.json fault) (.json fault')
  | same (fault : Fault) : Alike told fault fault

/-- A reader of trees that takes replaced texts for the texts themselves. -/
def Blind (told : Json.Fault → Json.Fault → Prop) (f : Text → Text)
    (read : Tree → Except Fault α) : Prop :=
  ∀ tree, Matched (Alike told) Eq (read tree) (read (tree.mapText f))

theorem lift_matched {first second : Except Json.Fault α} (matched : Matched told Eq first second) :
    Matched (Alike told) Eq (lift first) (lift second) := by
  rcases matched.error_or_ok with ⟨fault, fault', rfl, rfl, told⟩ | ⟨value, value', rfl, rfl, same⟩
  · exact .json told
  · exact same

theorem check_matched {first second : Option Json.Fault} (like : Option.Rel told first second) :
    Matched (Alike told) Eq (check first) (check second) := by
  cases like with
  | none => exact rfl
  | some same => exact Alike.json same

theorem same_matched (result : Except Fault α) : Matched (Alike told) Eq result result :=
  Matched.refl .same result

theorem found_matched (harmless : Harmless told f) (tree : Tree) :
    Matched told Eq (found tree) (found (tree.mapText f)) := by
  cases tree with
  | text quoted => exact (harmless.read quoted).map_eq Found.text
  | list | map => exact rfl
  | null | flag | number | broken => exact Matched.refl harmless.alike _

theorem refuse_blind (harmless : Harmless told f) (expected : Expected) :
    Blind told f (@refuse α expected) := by
  intro tree
  refine (lift_matched (found_matched harmless tree)).bind_eq fun found => ?_
  exact same_matched _

theorem readNumber_blind (harmless : Harmless told f) : Blind told f readNumber := by
  intro tree
  cases tree with
  | number => exact same_matched _
  | _ => exact refuse_blind harmless .number _

theorem readText_blind (harmless : Harmless told f) : Blind told f readText := by
  intro tree
  cases tree with
  | text quoted => exact lift_matched (harmless.read quoted)
  | _ => exact refuse_blind harmless .text _

theorem readControlValue_blind (harmless : Harmless told f) (depth : Nat) :
    Blind told f (readControlValue depth) := by
  intro tree
  refine (lift_matched (tree.value_matched harmless depth)).bind_eq fun value => ?_
  exact same_matched _

theorem readEntries_matched (harmless : Harmless told f) {read : Tree → Except Fault α}
    (blind : Blind told f read) (held : NameMap α) (members : Members) :
    Matched (Alike told) Eq (readEntries read held members)
      (readEntries read held (members.mapText f)) := by
  induction held, members using readEntries.induct with
  | case1 held ending => exact same_matched _
  | case2 held key tree rest ih =>
      refine (lift_matched (harmless.read key)).bind_eq fun name => ?_
      refine (blind tree).bind_eq fun value => ?_
      exact ih name value

theorem readMap_blind (harmless : Harmless told f) {read : Tree → Except Fault α}
    (blind : Blind told f read) : Blind told f (readMap read) := by
  intro tree
  cases tree with
  | map members => exact readEntries_matched harmless blind .empty members
  | _ => exact refuse_blind harmless .map _

theorem readItems_matched {read : Tree → Except Fault α} (blind : Blind told f read)
    (elements : Elements) :
    Matched (Alike told) Eq (readItems read elements) (readItems read (elements.mapText f)) := by
  induction elements using readItems.induct with
  | case1 ending => exact same_matched _
  | case2 tree rest ih =>
      refine (blind tree).bind_eq fun value => ?_
      exact ih.map_eq (value :: ·)

theorem readList_blind (harmless : Harmless told f) {read : Tree → Except Fault α}
    (blind : Blind told f read) : Blind told f (readList read) := by
  intro tree
  cases tree with
  | list elements => exact readItems_matched blind elements
  | _ => exact refuse_blind harmless .list _

/-! ### Fields -/

theorem once_matched {read : Tree → Except Fault α} (blind : Blind told f read) (name : String)
    (held : Option α) (tree : Tree) :
    Matched (Alike told) Eq (once name held (read tree)) (once name held (read (tree.mapText f))) :=
  .ite (fun _ => Alike.same _) fun _ => (blind tree).map_eq some

/-! ### Parts written as lists -/

theorem nextField_matched {read : Tree → Except Fault α} (blind : Blind told f read)
    (absent : Except Fault α) (elements : Elements) :
    Matched (Alike told) (fun first second => first.1 = second.1 ∧ first.2.mapText f = second.2)
      (nextField read absent elements) (nextField read absent (elements.mapText f)) := by
  cases elements with
  | item tree rest => exact (blind tree).map fun _ _ same => ⟨same, rfl⟩
  | done ending =>
      cases ending with
      | closed => exact (same_matched absent).map fun _ _ same => ⟨same, rfl⟩
      | _ => exact Alike.same _

/-- After a field of a list comes what is read of the elements behind it. -/
theorem nextField_bind {read : Tree → Except Fault α} (blind : Blind told f read)
    {absent : Except Fault α} {elements : Elements} {next : α × Elements → Except Fault β}
    (continued : ∀ value rest,
      Matched (Alike told) Eq (next (value, rest)) (next (value, rest.mapText f))) :
    Matched (Alike told) Eq (nextField read absent elements >>= next)
      (nextField read absent (elements.mapText f) >>= next) := by
  refine (nextField_matched blind absent elements).bind ?_
  rintro ⟨value, rest⟩ ⟨_, _⟩ ⟨rfl, rfl⟩
  exact continued value rest

theorem endFault?_matched (elements : Elements) :
    Matched (Alike told) Eq (check elements.endFault?) (check (elements.mapText f).endFault?) := by
  have same : (elements.mapText f).endFault? = elements.endFault? := by cases elements <;> rfl
  rw [same]
  exact same_matched _

/-! ### Geometry -/

theorem readGeometryMembers_entry (stateBits opcodeBits : Option Nat) (key : Text) (tree : Tree)
    (rest : Members) :
    readGeometryMembers stateBits opcodeBits (.entry key tree rest) =
      lift key.read >>= fun name =>
        if name = "state_bits" then
          once "state_bits" stateBits (readNumber tree) >>= fun stateBits =>
            readGeometryMembers stateBits opcodeBits rest
        else if name = "opcode_bits" then
          once "opcode_bits" opcodeBits (readNumber tree) >>= fun opcodeBits =>
            readGeometryMembers stateBits opcodeBits rest
        else check tree.skipFault? >>= fun _ => readGeometryMembers stateBits opcodeBits rest := by
  rw [readGeometryMembers]
  refine bind_congr fun name => ?_
  split
  · rfl
  · rfl
  · rename_i noState noOpcode
    rw [if_neg noState, if_neg noOpcode]

theorem readGeometryMembers_matched (harmless : Harmless told f) (members : Members)
    (stateBits opcodeBits : Option Nat) :
    Matched (Alike told) Eq (readGeometryMembers stateBits opcodeBits members)
      (readGeometryMembers stateBits opcodeBits (members.mapText f)) := by
  match members with
  | .done ending => exact same_matched _
  | .entry key tree rest =>
      have behind := readGeometryMembers_matched harmless rest
      rw [Members.mapText, readGeometryMembers_entry, readGeometryMembers_entry]
      refine (lift_matched (harmless.read key)).bind_eq fun name => ?_
      refine .ite (fun _ => ?_) fun _ => .ite (fun _ => ?_) fun _ => ?_
      · refine (once_matched (readNumber_blind harmless) _ _ tree).bind_eq fun held => ?_
        exact behind held opcodeBits
      · refine (once_matched (readNumber_blind harmless) _ _ tree).bind_eq fun held => ?_
        exact behind stateBits held
      · exact (check_matched (tree.skipFault?_like harmless)).bind_eq fun _ =>
          behind stateBits opcodeBits

theorem readGeometry_blind (harmless : Harmless told f) : Blind told f readGeometry := by
  intro tree
  cases tree with
  | map members => exact readGeometryMembers_matched harmless members none none
  | list elements =>
      refine nextField_bind (readNumber_blind harmless) fun stateBits elements => ?_
      refine nextField_bind (readNumber_blind harmless) fun opcodeBits elements => ?_
      exact (endFault?_matched elements).bind_eq fun _ => same_matched _
  | _ => exact refuse_blind harmless .geometry _

theorem readGeometryOption_blind (harmless : Harmless told f) :
    Blind told f readGeometryOption := by
  intro tree
  cases tree with
  | null => exact rfl
  | _ => exact (readGeometry_blind harmless _).map_eq some

/-! ### States -/

theorem readControl_blind (harmless : Harmless told f) : Blind told f readControl :=
  readMap_blind harmless (readControlValue_blind harmless _)

theorem readNext_blind (harmless : Harmless told f) : Blind told f readNext := by
  intro tree
  have valued := lift_matched ((tree.value_matched harmless stateDepth).map_eq some)
  cases tree with
  | null => exact rfl
  | _ => exact valued

theorem readStateMembers_entry (name : Option String) (control : Option Record)
    (next : Option (Option Json.Value)) (key : Text) (tree : Tree) (rest : Members) :
    readStateMembers name control next (.entry key tree rest) =
      lift key.read >>= fun field =>
        if field = "name" then
          once "name" name (readText tree) >>= fun name => readStateMembers name control next rest
        else if field = "control" then
          once "control" control (readControl tree) >>= fun control =>
            readStateMembers name control next rest
        else if field = "next" then
          once "next" next (readNext tree) >>= fun next => readStateMembers name control next rest
        else throw (.unknownField field .state) := by
  rw [readStateMembers]
  refine bind_congr fun field => ?_
  split
  · rfl
  · rfl
  · rfl
  · rename_i noName noControl noNext
    rw [if_neg noName, if_neg noControl, if_neg noNext]

theorem readStateMembers_matched (harmless : Harmless told f) (members : Members)
    (name : Option String) (control : Option Record) (next : Option (Option Json.Value)) :
    Matched (Alike told) Eq (readStateMembers name control next members)
      (readStateMembers name control next (members.mapText f)) := by
  match members with
  | .done ending => exact same_matched _
  | .entry key tree rest =>
      have behind := readStateMembers_matched harmless rest
      rw [Members.mapText, readStateMembers_entry, readStateMembers_entry]
      refine (lift_matched (harmless.read key)).bind_eq fun field => ?_
      refine .ite (fun _ => ?_) fun _ => .ite (fun _ => ?_) fun _ => .ite (fun _ => ?_) fun _ => ?_
      · refine (once_matched (readText_blind harmless) _ _ tree).bind_eq fun held => ?_
        exact behind held control next
      · refine (once_matched (readControl_blind harmless) _ _ tree).bind_eq fun held => ?_
        exact behind name held next
      · refine (once_matched (readNext_blind harmless) _ _ tree).bind_eq fun held => ?_
        exact behind name control held
      · exact same_matched _

theorem readState_blind (harmless : Harmless told f) : Blind told f readState := by
  intro tree
  cases tree with
  | map members => exact readStateMembers_matched harmless members none none none
  | list elements =>
      refine nextField_bind (readText_blind harmless) fun name elements => ?_
      refine nextField_bind (readControl_blind harmless) fun control elements => ?_
      refine nextField_bind (readNext_blind harmless) fun next elements => ?_
      exact (endFault?_matched elements).bind_eq fun _ => same_matched _
  | _ => exact refuse_blind harmless .state _

/-! ### Documents -/

theorem readDocumentMembers_entry (geometry : Option (Option Geometry))
    (opcodes : Option (NameMap Nat)) (defaults : Option (NameMap Value))
    (states : Option (List StateEntry)) (key : Text) (tree : Tree) (rest : Members) :
    readDocumentMembers geometry opcodes defaults states (.entry key tree rest) =
      lift key.read >>= fun field =>
        if field = "geometry" then
          once "geometry" geometry (readGeometryOption tree) >>= fun geometry =>
            readDocumentMembers geometry opcodes defaults states rest
        else if field = "opcodes" then
          once "opcodes" opcodes (readOpcodes tree) >>= fun opcodes =>
            readDocumentMembers geometry opcodes defaults states rest
        else if field = "defaults" then
          once "defaults" defaults (readDefaults tree) >>= fun defaults =>
            readDocumentMembers geometry opcodes defaults states rest
        else if field = "states" then
          once "states" states (readList readState tree) >>= fun states =>
            readDocumentMembers geometry opcodes defaults states rest
        else throw (.unknownField field .document) := by
  rw [readDocumentMembers]
  refine bind_congr fun field => ?_
  split
  · rfl
  · rfl
  · rfl
  · rfl
  · rename_i noGeometry noOpcodes noDefaults noStates
    rw [if_neg noGeometry, if_neg noOpcodes, if_neg noDefaults, if_neg noStates]

theorem readOpcodes_blind (harmless : Harmless told f) : Blind told f readOpcodes :=
  readMap_blind harmless (readNumber_blind harmless)

theorem readDefaults_blind (harmless : Harmless told f) : Blind told f readDefaults :=
  readMap_blind harmless (readControlValue_blind harmless _)

theorem readStates_blind (harmless : Harmless told f) : Blind told f (readList readState) :=
  readList_blind harmless (readState_blind harmless)

theorem readDocumentMembers_matched (harmless : Harmless told f) (members : Members)
    (geometry : Option (Option Geometry)) (opcodes : Option (NameMap Nat))
    (defaults : Option (NameMap Value)) (states : Option (List StateEntry)) :
    Matched (Alike told) Eq (readDocumentMembers geometry opcodes defaults states members)
      (readDocumentMembers geometry opcodes defaults states (members.mapText f)) := by
  match members with
  | .done ending => exact same_matched _
  | .entry key tree rest =>
      have behind := readDocumentMembers_matched harmless rest
      rw [Members.mapText, readDocumentMembers_entry, readDocumentMembers_entry]
      refine (lift_matched (harmless.read key)).bind_eq fun field => ?_
      refine .ite (fun _ => ?_) fun _ => .ite (fun _ => ?_) fun _ => .ite (fun _ => ?_) fun _ =>
        .ite (fun _ => ?_) fun _ => ?_
      · refine (once_matched (readGeometryOption_blind harmless) _ _ tree).bind_eq fun held => ?_
        exact behind held opcodes defaults states
      · refine (once_matched (readOpcodes_blind harmless) _ _ tree).bind_eq fun held => ?_
        exact behind geometry held defaults states
      · refine (once_matched (readDefaults_blind harmless) _ _ tree).bind_eq fun held => ?_
        exact behind geometry opcodes held states
      · refine (once_matched (readStates_blind harmless) _ _ tree).bind_eq fun held => ?_
        exact behind geometry opcodes defaults held
      · exact same_matched _

theorem ofTree_blind (harmless : Harmless told f) : Blind told f ofTree := by
  intro tree
  cases tree with
  | map members => exact readDocumentMembers_matched harmless members none none none none
  | list elements =>
      refine nextField_bind (readGeometryOption_blind harmless) fun geometry elements => ?_
      refine nextField_bind (readOpcodes_blind harmless) fun opcodes elements => ?_
      refine nextField_bind (readDefaults_blind harmless) fun defaults elements => ?_
      refine nextField_bind (readStates_blind harmless) fun states elements => ?_
      exact (endFault?_matched elements).bind_eq fun _ => same_matched _
  | _ => exact refuse_blind harmless .document _

end Document

end ControlStore
