import ControlStore.Assignment
import ControlStore.NameMap

set_option autoImplicit false

/-!
Control records: values given to signals by name, and what they come to over defaults.
-/
namespace ControlStore

/-- A value written in a control record or as a default. -/
inductive Value where
  | flag (on : Bool)
  | level (value : Nat)
deriving DecidableEq, Repr

/-- The bits of a value; a strobe that is on is one. -/
def Value.bits : Value → Nat
  | .flag on => on.toNat
  | .level value => value

/-- The control values that a state gives by name. The names are not checked yet. -/
abbrev Record := NameMap Value

namespace Record

/-- The first name, in ascending order, that is no signal. -/
def unknownName? (record : Record) : Option String :=
  record.names.find? fun name => (Signal.ofName? name).isNone

/-- Gives a named signal a value; a name that is no signal changes nothing. -/
def assign (a : Assignment) (name : String) (value : Value) : Assignment :=
  match Signal.ofName? name with
  | some s => a.set s value.bits
  | none => a

/-- The defaults, overridden by the values of the record. -/
def overlay (defaults : Assignment) (record : Record) : Assignment :=
  record.entries.foldl (fun a entry => assign a entry.1 entry.2) defaults

end Record

end ControlStore
