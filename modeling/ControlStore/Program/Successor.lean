import ControlStore.Program

set_option autoImplicit false

/-!
What a program means before any code or table exists: which named state follows which.
-/
namespace ControlStore

/-- The target of the first clause that accepts, or the state's own name. -/
def Clause.firstTarget (own : String) (clauses : List Clause) (symbol : String)
    (zero negative : Bool) : String :=
  ((clauses.find? (·.accepts symbol zero negative)).map (·.target)).getD own

/-- The name of the state that follows; a state without a transition has no successor. -/
def State.successor? (state : State) (symbol : String) (zero negative : Bool) : Option String :=
  state.next.map fun
    | .always target => target
    | .guarded clauses => Clause.firstTarget state.name clauses symbol zero negative

/-- The first state of a name. -/
def Program.state? (program : Program) (name : String) : Option State :=
  program.states.find? (·.name == name)

/-- The successor of a named state. -/
def Program.successor? (program : Program) (name symbol : String) (zero negative : Bool) :
    Option String :=
  (program.state? name).bind (·.successor? symbol zero negative)

end ControlStore
