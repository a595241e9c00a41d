import ControlStore.Json.Fault

set_option autoImplicit false

/-!
Numbers of JSON. A spelling is first cut into its parts; an integer of 64 bits is then read as
such and every other number as a decimal, which must stay within the range of doubles.
-/
namespace ControlStore.Json

-- Powers are those of the core library, whatever else is imported beside this module.
attribute [local instance (2000)] instPowNat

/-- The parts of a spelled number: sign, whole digits, fraction digits and exponent. -/
structure Literal where
  negative : Bool
  whole : List Char
  fraction : Option (List Char)
  exponent : Option Int
deriving DecidableEq, Repr

/-- A number that was read. A decimal is its sign, its digits and a power of ten. -/
inductive Number where
  | integer (value : Int)
  | decimal (negative : Bool) (digits : Nat) (exponent : Int)
deriving DecidableEq, Repr

def digitValue (c : Char) : Nat := c.toNat - '0'.toNat

/-- The number that decimal digits denote, behind digits already read. -/
def decimalFrom (value : Nat) (digits : List Char) : Nat :=
  digits.foldl (fun held c => held * 10 + digitValue c) value

def decimalValue (digits : List Char) : Nat := decimalFrom 0 digits

namespace Literal

/-- A sign and the rest. -/
def takeSign : List Char → Bool × List Char
  | '-' :: rest => (true, rest)
  | rest => (false, rest)

/-- The digits at the front and the rest. -/
def takeDigits (text : List Char) : List Char × List Char :=
  (text.takeWhile Char.isDigit, text.dropWhile Char.isDigit)

/-- Digits of a whole number: at least one, and no zero before others. -/
def wholeAllowed : List Char → Bool
  | [] => false
  | ['0'] => true
  | '0' :: _ => false
  | _ => true

/-- A fraction and the rest, or `none` for a point without digits. -/
def takeFraction : List Char → Option (Option (List Char) × List Char)
  | '.' :: rest =>
      let (digits, rest) := takeDigits rest
      if digits = [] then none else some (some digits, rest)
  | rest => some (none, rest)

/-- A sign of an exponent and the rest. -/
def takeExponentSign : List Char → Bool × List Char
  | '-' :: rest => (true, rest)
  | '+' :: rest => (false, rest)
  | rest => (false, rest)

/-- An exponent that ends the text, or `none` if it has no digits or something follows. -/
def readExponent : List Char → Option (Option Int)
  | [] => some none
  | mark :: rest =>
      let (negative, rest) := takeExponentSign rest
      let (digits, rest) := takeDigits rest
      if (mark == 'e' || mark == 'E') && digits != [] && rest == [] then
        let size : Int := decimalValue digits
        some (some (if negative then -size else size))
      else none

def parse? (spelling : List Char) : Option Literal := do
  let (negative, rest) := takeSign spelling
  let (whole, rest) := takeDigits rest
  if wholeAllowed whole then
    let (fraction, rest) ← takeFraction rest
    let exponent ← readExponent rest
    return ⟨negative, whole, fraction, exponent⟩
  else none

/-! ### Range -/

/-- Appends digits to a number as long as it stays below `2 ^ 64`, and counts them. -/
def fill (value : Nat) : List Char → Nat × Nat
  | [] => (value, 0)
  | c :: rest =>
      let next := value * 10 + digitValue c
      if next < 2 ^ (64 : Nat) then
        let (filled, count) := fill next rest
        (filled, count + 1)
      else (value, 0)

/-- The first 64 bits of a literal's digits and the power of ten behind them. Whole digits that do
not fit raise the power; fraction digits that do not fit are dropped. -/
def scaled (literal : Literal) : Nat × Int :=
  let (front, taken) := fill 0 literal.whole
  let (filled, more) := fill front (literal.fraction.getD [])
  (filled, ((literal.whole.length - taken : Nat) : Int) - more + literal.exponent.getD 0)

/-- The double nearest to a natural number; of two the one with an even last bit. -/
def nearestDouble (value : Nat) : Nat :=
  if value < 2 ^ (53 : Nat) then value
  else
    let unit := 2 ^ (Nat.log2 value - 52)
    let below := value / unit
    let past := value % unit
    if unit < 2 * past ∨ (unit = 2 * past ∧ below % 2 = 1) then (below + 1) * unit
    else below * unit

/-- The least number that is nearer to `2 ^ 1024` than to the largest double. -/
def doubleLimit : Nat := 2 ^ (1024 : Nat) - 2 ^ (970 : Nat)

/-- The largest power of ten that is multiplied in one step. -/
def maxPower : Int := 308

/-- Whether a literal is too large for a double. -/
def overflows (literal : Literal) : Bool :=
  let (digits, power) := literal.scaled
  if digits = 0 ∨ power < 0 then false
  else if maxPower < power then true
  else doubleLimit ≤ nearestDouble digits * nearestDouble (10 ^ power.toNat)

/-! ### Value -/

/-- The integer of a literal without fraction and exponent, if it fits 64 bits. There is no
negative zero among the integers. -/
def integer? (literal : Literal) : Option Int :=
  if literal.fraction.isSome || literal.exponent.isSome then none
  else
    let size := decimalValue literal.whole
    if literal.negative then
      if 0 < size ∧ size ≤ 2 ^ (63 : Nat) then some (-size) else none
    else if size < 2 ^ (64 : Nat) then some size else none

/-- The number of a literal. -/
def number (literal : Literal) : Number :=
  match literal.integer? with
  | some value => .integer value
  | none =>
      let fraction := literal.fraction.getD []
      .decimal literal.negative (decimalFrom (decimalValue literal.whole) fraction)
        (literal.exponent.getD 0 - fraction.length)

end Literal

namespace Number

/-- Reads a spelled number. -/
def read (spelling : List Char) : Except Fault Number :=
  match Literal.parse? spelling with
  | none => .error .badNumber
  | some literal =>
      if literal.integer?.isNone && literal.overflows then .error .numberOutOfRange
      else .ok literal.number

/-- The fault of a number that is passed over: only its form is checked. -/
def skip (spelling : List Char) : Option Fault :=
  if (Literal.parse? spelling).isSome then none else some .badNumber

end Number

end ControlStore.Json
