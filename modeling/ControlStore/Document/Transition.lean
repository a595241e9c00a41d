import ControlStore.Json.Value
import ControlStore.Program

set_option autoImplicit false

/-!
Transitions as documents write them: a text names the state that always follows, a list holds
clauses. A clause is a map of its restrictions and its target, or a list of them in that order.
Anything else is no transition.
-/
namespace ControlStore

/-- An optional part: absent or `null`, or a value of the right form. -/
def optionalPart? {α : Type} (read : Json.Value → Option α) : Option Json.Value → Option (Option α)
  | none => some none
  | some .null => some none
  | some value => (read value).map some

namespace Clause

def parts : List String := ["opcodes", "zero", "negative", "state"]

/-- The clause of some parts; the target must be there. -/
def ofParts? (opcodes zero negative target : Option Json.Value) : Option Clause := do
  let opcodes ← optionalPart? (·.texts?) opcodes
  let zero ← optionalPart? (·.flag?) zero
  let negative ← optionalPart? (·.flag?) negative
  let target ← target.bind (·.text?)
  return ⟨opcodes, zero, negative, target⟩

/-- The clause that a value stands for. -/
def ofJson? : Json.Value → Option Clause
  | .map members =>
      if members.all (fun member => parts.contains member.1) then
        let part := Json.Value.member? members
        ofParts? (part "opcodes") (part "zero") (part "negative") (part "state")
      else none
  | .list [opcodes, zero, negative, target] =>
      ofParts? (some opcodes) (some zero) (some negative) (some target)
  | _ => none

end Clause

/-- The transition that a value stands for. -/
def Transition.ofJson? : Json.Value → Option Transition
  | .text target => some (.always target)
  | .list items => .guarded <$> items.mapM Clause.ofJson?
  | _ => none

end ControlStore
