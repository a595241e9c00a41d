import ControlStore.Json.Tree

set_option autoImplicit false

/-!
Trees that are the same but for the order of members. In every map, members of different names may
change places; elements of lists, endings and everything else stay where they are.
-/
namespace ControlStore.Json

/-- Two keys of the same name, however they are spelled. -/
def Text.SameName (first second : Text) : Prop :=
  ∃ name, first.read = .ok name ∧ second.read = .ok name

/-- Elements whose values are related one by one. -/
inductive Elements.Reordered (R : Tree → Tree → Prop) : Elements → Elements → Prop where
  | done (ending : Ending) : Elements.Reordered R (.done ending) (.done ending)
  | item {value value' : Tree} {rest rest' : Elements} : R value value' →
      Elements.Reordered R rest rest' →
      Elements.Reordered R (.item value rest) (.item value' rest')

/-- Members whose values are related, in any order that a series of exchanges of neighbours brings
about. Members of the same name keep their order. -/
inductive Members.Reordered (R : Tree → Tree → Prop) : Members → Members → Prop where
  | done (ending : Ending) : Members.Reordered R (.done ending) (.done ending)
  | entry (key : Text) {value value' : Tree} {rest rest' : Members} : R value value' →
      Members.Reordered R rest rest' →
      Members.Reordered R (.entry key value rest) (.entry key value' rest')
  | swap {first second : Text} {value value' other other' : Tree} {rest rest' : Members} :
      ¬ first.SameName second → R value value' → R other other' →
      Members.Reordered R rest rest' →
      Members.Reordered R (.entry first value (.entry second other rest))
        (.entry second other' (.entry first value' rest'))
  | trans {one two three : Members} : Members.Reordered R one two →
      Members.Reordered R two three → Members.Reordered R one three

/-- Trees that differ only in the order of members, at any depth. -/
inductive Tree.Reordered : Tree → Tree → Prop where
  | same (tree : Tree) : Tree.Reordered tree tree
  | list {elements elements' : Elements} : Elements.Reordered Tree.Reordered elements elements' →
      Tree.Reordered (.list elements) (.list elements')
  | map {members members' : Members} : Members.Reordered Tree.Reordered members members' →
      Tree.Reordered (.map members) (.map members')

end ControlStore.Json
