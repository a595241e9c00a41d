import ControlStore.Proofs.QuotedText
import ControlStore.Proofs.TreeTexts
import Mathlib.Data.List.TakeWhile

set_option autoImplicit false

/-!
What is written is read back. The escapes of a written text mean its characters again, and decimal
digits, of which the first is no zero unless it is the only one, are read as the number they write.
-/
namespace ControlStore.Json

-- Powers and sums are those of the core library, whatever else is imported beside this module.
attribute [local instance (2000)] instPowNat Zero.ofOfNat0

/-! ### Texts -/

namespace Text

/-- A printable character other than a backslash is a piece. -/
theorem pieces_cons {room : Nat} {c : Char} (plain : c ≠ '\\') (printable : ¬ c.toNat < 32)
    (rest : List Char) : pieces room (c :: rest) = .char c :: pieces room rest := by
  have whole := pieces.eq_6 room c rest (fun _ _ _ _ _ escape _ => plain escape)
    (fun _ escape _ => plain escape) (fun _ _ escape _ => plain escape)
    (fun escape _ => plain escape)
  rw [whole, if_neg printable]

/-- A code unit that is no surrogate is a character of its own. -/
theorem join_unit_cons {code : Nat} (low : code < 0xD800) (rest : List Piece) :
    join (.unit code :: rest) = (Char.ofNat code :: ·) <$> join rest := by
  have noTrailing : isTrailing code = false := by
    rw [isTrailing, decide_eq_false (by omega)]
    rfl
  have noLeading : isLeading code = false := by
    rw [isLeading, decide_eq_false (by omega)]
    rfl
  rcases rest with _ | ⟨c | next | fault, behind⟩ <;> simp [join, noTrailing, noLeading]

/-- An escape means its character, whatever stands behind it. -/
theorem join_pieces_escape (room : Nat) (c : Char) (body : List Char) :
    join (pieces room (escape c ++ body)) = (c :: ·) <$> join (pieces room body) := by
  have form := escaped c
  generalize escape c = spelling at form ⊢
  cases form with
  | @short mark meant =>
      have noCode := (ne_of_shortEscape? meant).2
      have cut : pieces room ('\\' :: mark :: body) = .char c :: pieces room body := by
        rw [pieces.eq_4 _ _ _ (fun _ _ _ _ _ code _ => noCode code) noCode, meant]
      rw [List.cons_append, List.singleton_append, cut, join]
  | code control =>
      obtain ⟨p, q, r, s, digits⟩ : ∃ p q r s,
          (Hex.fixed 4 c.toNat).map Char.toLower = [p, q, r, s] := ⟨_, _, _, _, rfl⟩
      have read := read?_code control
      rw [digits] at read
      have cut : pieces room ('\\' :: 'u' :: p :: q :: r :: s :: body) =
          .unit c.toNat :: pieces room body := by rw [pieces, read]
      rw [digits]
      change join (pieces room ('\\' :: 'u' :: p :: q :: r :: s :: body)) = _
      rw [cut, join_unit_cons (by omega), Char.ofNat_toNat]
  | plain _ noEscape printable =>
      rw [List.singleton_append, pieces_cons noEscape printable, join]

theorem join_pieces_spell (room : Nat) (text : List Char) :
    join (pieces room (spell text)) = .ok text := by
  induction text with
  | nil => rfl
  | cons c rest ih =>
      rw [spell, List.flatMap_cons, ← spell, join_pieces_escape, ih]
      rfl

/-- A text that is spelled out and closed is read as itself. -/
theorem read_spell (text : List Char) {room : Nat} (closed : room ≠ 0) :
    read ⟨spell text, room⟩ = .ok (String.ofList text) :=
  read_eq_ok_iff.mpr ⟨closed, text, join_pieces_spell room text, rfl⟩

end Text

/-! ### Numbers -/

theorem decimalValue_toDigits (value : Nat) : decimalValue (Nat.toDigits 10 value) = value := by
  calc decimalValue (Nat.toDigits 10 value)
      = Nat.ofDigitChars 10 (Nat.toDigits 10 value) 0 := by
        rw [Nat.ofDigitChars_eq_foldl, decimalValue, decimalFrom]
        simp only [digitValue, Nat.mul_comm]
    _ = value := Nat.ofDigitChars_ten_toDigits

/-- The first digit of a positive number is no zero. -/
theorem toDigits_eq_cons {value : Nat} (positive : 0 < value) :
    ∃ first rest, Nat.toDigits 10 value = first :: rest ∧ first ≠ '0' := by
  induction value using Nat.strongRecOn with
  | ind value ih =>
      by_cases small : value < 10
      · have digits : ∀ digit < 10, 0 < digit → Nat.digitChar digit ≠ '0' := by decide
        exact ⟨_, [], Nat.toDigits_of_lt_base small, digits value small positive⟩
      · obtain ⟨first, rest, front, noZero⟩ := ih (value / 10) (by omega) (by omega)
        refine ⟨first, rest ++ [(value % 10).digitChar], ?_, noZero⟩
        rw [Nat.toDigits_of_base_le (by decide) (by omega), front, List.cons_append]

namespace Literal

theorem wholeAllowed_toDigits (value : Nat) : wholeAllowed (Nat.toDigits 10 value) = true := by
  by_cases zero : value = 0
  · subst zero
    rfl
  · obtain ⟨first, rest, digits, noZero⟩ := toDigits_eq_cons (Nat.pos_of_ne_zero zero)
    have noZeros (behind : List Char) : first :: rest ≠ '0' :: behind :=
      fun same => noZero (List.cons.inj same).1
    rw [digits, wholeAllowed.eq_4 _ (List.cons_ne_nil first rest) (noZeros []) noZeros]

/-- Digits of a whole number are all of a literal. -/
theorem parse?_digits {digits : List Char} (allowed : wholeAllowed digits = true)
    (inside : ∀ c ∈ digits, c.isDigit = true) : parse? digits = some ⟨false, digits, none, none⟩ := by
  have unsigned : takeSign digits = (false, digits) := by
    refine takeSign.eq_2 digits ?_
    rintro rest rfl
    exact absurd (inside '-' List.mem_cons_self) (by decide)
  have taken : takeDigits digits = (digits, []) := by
    rw [takeDigits, List.takeWhile_eq_self_iff.mpr inside, List.dropWhile_eq_nil_iff.mpr inside]
  simp only [parse?, unsigned, taken, allowed, if_true]
  rfl

end Literal

/-- The decimal digits of a number of 64 bits are read as that number. -/
theorem Number.read_toDigits {value : Nat} (fits : value < 2 ^ (64 : Nat)) :
    Number.read (Nat.toDigits 10 value) = .ok (.integer value) := by
  have parsed := Literal.parse?_digits (Literal.wholeAllowed_toDigits value)
    fun c => Nat.isDigit_of_mem_toDigits (by decide) (by decide)
  have integer : Literal.integer? ⟨false, Nat.toDigits 10 value, none, none⟩ = some (value : Int) := by
    simp only [Literal.integer?, decimalValue_toDigits, Option.isSome_none, Bool.or_self,
      Bool.false_eq_true, if_false, fits, if_true]
  rw [read, parsed]
  dsimp only
  rw [Literal.number, integer]
  rfl

/-! ### Values -/

/-- The value that a lexeme of its own is read as: a text or a number. -/
inductive Lexeme.Holds : Lexeme → Value → Prop where
  | text {quoted : Text} {content : String} : quoted.read = .ok content →
      Holds (.text quoted) (.text content)
  | number {spelling : List Char} {number : Number} : Number.read spelling = .ok number →
      Holds (.number spelling) (.number number)

/-- The tree of such a lexeme, before any others. -/
theorem Lexeme.Holds.exists_tree {lexeme : Lexeme} {value : Value} (holds : lexeme.Holds value) :
    ∃ tree : Tree, (∀ depth, tree.value depth = .ok value) ∧
      ∀ steps behind, Tree.readFrom (steps + 1) (lexeme :: behind) = (tree, behind) := by
  cases holds with
  | @text quoted content success =>
      refine ⟨.text quoted, fun depth => ?_, fun steps behind => rfl⟩
      rw [Tree.value, success]
      rfl
  | @number spelling number success =>
      refine ⟨.number spelling, fun depth => ?_, fun steps behind => rfl⟩
      rw [Tree.value, success]
      rfl

variable {text : List Char} {lexeme : Lexeme} {value : Value}

/-- A text of one lexeme holds the value of the lexeme. -/
theorem Lexeme.Holds.read (holds : lexeme.Holds value)
    (scanned : (Lexeme.scan text).map (Lexeme.mapText Text.settle) = [lexeme]) :
    Value.read text = .ok value := by
  obtain ⟨tree, valued, built⟩ := holds.exists_tree
  have whole : Tree.read [lexeme] = (tree, []) := built _ []
  rw [Value.read_eq_ok_iff_map fun _ _ => Text.read_settle, scanned, whole]
  exact ⟨valued maxDepth, rfl⟩

/-- A text of a map with one member holds the member's key and value. -/
theorem Lexeme.Holds.read_member {key : Lexeme} {name : String} (named : key.Holds (.text name))
    (holds : lexeme.Holds value)
    (scanned : (Lexeme.scan text).map (Lexeme.mapText Text.settle) =
      [.openMap, key, .colon, lexeme, .closeMap]) :
    Value.read text = .ok (.map [(name, value)]) := by
  rcases named with @⟨quoted, _, success⟩
  obtain ⟨tree, valued, built⟩ := holds.exists_tree
  have members (steps : Nat) :
      Members.readFrom (steps + 2) [.text quoted, .colon, lexeme, .closeMap] =
        (.entry quoted tree (.done .closed), []) := by
    rw [Members.readFrom, built]
  have whole : Tree.read [.openMap, .text quoted, .colon, lexeme, .closeMap] =
      (.map (.entry quoted tree (.done .closed)), []) :=
    congrArg (fun read => (Tree.map read.1, read.2)) (members 9)
  rw [Value.read_eq_ok_iff_map fun _ _ => Text.read_settle, scanned, whole]
  refine ⟨?_, rfl⟩
  simp only [Tree.value, maxDepth, Members.values, success, valued]
  rfl

/-- What stands behind a text does not matter. -/
theorem Lexeme.Holds.of_settle (holds : (lexeme.mapText Text.settle).Holds value) :
    lexeme.Holds value := by
  cases lexeme with
  | text quoted =>
      rcases holds with ⟨success⟩
      exact .text (Text.read_settle.mp success)
  | number spelling => exact holds
  | _ => cases holds

end ControlStore.Json
