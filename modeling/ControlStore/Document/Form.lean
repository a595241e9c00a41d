import ControlStore.Document.Transition
import Mathlib.Data.List.Forall2

set_option autoImplicit false

/-!
The forms of transitions and what they stand for. A clause has four parts, of which only the target
must be there; as a map it has no key but those of its parts, and of a repeated key the last value
counts.
-/
namespace ControlStore

/-- A part that need not be there is absent, `null` or a value that gives something. -/
inductive OptionalPart {α : Type} (Gives : Json.Value → α → Prop) :
    Option Json.Value → Option α → Prop where
  | absent : OptionalPart Gives none none
  | null : OptionalPart Gives (some .null) none
  | given {value : Json.Value} {content : α} : Gives value content →
      OptionalPart Gives (some value) (some content)

/-- The parts of a clause. -/
structure ClauseParts (clause : Clause) (opcodes zero negative target : Option Json.Value) :
    Prop where
  opcodes : OptionalPart (fun value symbols => value = .list (symbols.map .text)) opcodes
    clause.opcodes
  zero : OptionalPart (fun value on => value = .flag on) zero clause.zero
  negative : OptionalPart (fun value on => value = .flag on) negative clause.negative
  target : target = some (.text clause.target)

/-- The clause that a value gives. -/
inductive ClauseOf : Json.Value → Clause → Prop where
  | map {members : List (String × Json.Value)} {clause : Clause} :
      (∀ member ∈ members, member.1 ∈ ["opcodes", "zero", "negative", "state"]) →
      ClauseParts clause (members.reverse.lookup "opcodes") (members.reverse.lookup "zero")
        (members.reverse.lookup "negative") (members.reverse.lookup "state") →
      ClauseOf (.map members) clause
  | list {opcodes zero negative target : Json.Value} {clause : Clause} :
      ClauseParts clause (some opcodes) (some zero) (some negative) (some target) →
      ClauseOf (.list [opcodes, zero, negative, target]) clause

/-- The transition that a value gives. -/
inductive TransitionOf : Json.Value → Transition → Prop where
  | always (target : String) : TransitionOf (.text target) (.always target)
  | guarded {items : List Json.Value} {clauses : List Clause} :
      List.Forall₂ ClauseOf items clauses → TransitionOf (.list items) (.guarded clauses)

/-- What is given for a transition and is none. -/
inductive NoTransition : Option Json.Value → Prop where
  | absent : NoTransition none
  | null : NoTransition (some .null)
  /-- A value that is neither a text nor a list of clauses. -/
  | unusable {value : Json.Value} : (∀ target, value ≠ .text target) →
      (∀ items, value = .list items → ∃ item ∈ items, ∀ clause, ¬ ClauseOf item clause) →
      NoTransition (some value)

/-- The transition of a state for which something is given. -/
inductive NextOf : Option Json.Value → Option Transition → Prop where
  | transition {value : Json.Value} {transition : Transition} : TransitionOf value transition →
      NextOf (some value) (some transition)
  | nothing {given : Option Json.Value} : NoTransition given → NextOf given none

end ControlStore
