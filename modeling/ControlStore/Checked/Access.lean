set_option autoImplicit false

/-!
Computations whose accesses are checked. A place that an array does not have, a front that is longer
than the array, a shift that leaves nothing of a register, and a number that a byte cannot hold each
end a computation, and are kept apart from the faults that it tells.
-/
namespace ControlStore

/-- An access that cannot be made, or a number that is not kept whole. -/
inductive AccessFault where
  | outside (place size : Nat)
  | tooLong (length size : Nat)
  | tooFar (distance width : Nat)
  | tooWide (value : Nat)
deriving DecidableEq, Repr

/-- What ends a computation early: an access that cannot be made, or a fault that it tells. -/
inductive Stop (ε : Type) where
  | access (fault : AccessFault)
  | told (fault : ε)
deriving DecidableEq, Repr

/-- A computation whose accesses are checked. -/
abbrev Checked (ε : Type) : Type → Type := Except (Stop ε)

namespace Checked

variable {ε α : Type}

/-- A computation without accesses, as part of one that has some. -/
def tell (result : Except ε α) : Checked ε α := result.mapError Stop.told

/-- The item at a place. -/
def read (items : Array α) (place : Nat) : Checked ε α :=
  if inside : place < items.size then .ok items[place]
  else .error (.access (.outside place items.size))

/-- The array with another item at a place. -/
def write (items : Array α) (place : Nat) (item : α) : Checked ε (Array α) :=
  if inside : place < items.size then .ok (items.set place item)
  else .error (.access (.outside place items.size))

/-- The first items of an array. -/
def front (items : Array α) (length : Nat) : Checked ε (Array α) :=
  if length ≤ items.size then .ok (items.take length)
  else .error (.access (.tooLong length items.size))

def shiftLeft {width : Nat} (word : BitVec width) (distance : Nat) : Checked ε (BitVec width) :=
  if distance < width then .ok (word <<< distance) else .error (.access (.tooFar distance width))

def shiftRight {width : Nat} (word : BitVec width) (distance : Nat) : Checked ε (BitVec width) :=
  if distance < width then .ok (word >>> distance) else .error (.access (.tooFar distance width))

/-- The byte of a number. -/
def narrow (value : Nat) : Checked ε UInt8 :=
  if value < UInt8.size then .ok (UInt8.ofNat value) else .error (.access (.tooWide value))

/-- A power of two, shifted into place in a register. -/
def power (bits : Nat) : Checked ε (BitVec 64) := shiftLeft 1 bits

end Checked

end ControlStore
