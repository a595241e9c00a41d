import ControlStore.Json.Text
import ControlStore.Relaxed.Spelling
import ControlStore.Proofs.FirstFault
import ControlStore.Proofs.HexDigits
import Mathlib.Tactic.SplitIfs

set_option autoImplicit false

/-!
Quoted texts of JSON: how characters are spelled in them, and which of them can be read. The bodies
of these are bodies of relaxed double-quoted texts too, and what they mean does not depend on what
stands behind them.
-/
namespace ControlStore.Json.Text

open Relaxed (QuotedBody)

/-! ### Escapes -/

/-- How a character is spelled in quotes: by a short escape, by its code or plainly. -/
inductive Escaped (c : Char) : List Char → Prop where
  | short {mark : Char} : shortEscape? mark = some c → Escaped c ['\\', mark]
  | code : c.toNat < 32 → Escaped c ('\\' :: 'u' :: (Hex.fixed 4 c.toNat).map Char.toLower)
  | plain : c ≠ '"' → c ≠ '\\' → ¬ c.toNat < 32 → Escaped c [c]

theorem escaped (c : Char) : Escaped c (escape c) := by
  unfold escape
  split_ifs with quote backslash backspace tab newline feed cr control
  · rw [quote]
    exact .short rfl
  · rw [backslash]
    exact .short rfl
  · rw [backspace]
    exact .short rfl
  · rw [tab]
    exact .short rfl
  · rw [newline]
    exact .short rfl
  · rw [feed]
    exact .short rfl
  · rw [cr]
    exact .short rfl
  · exact .code control
  · exact .plain quote backslash control

/-- The mark of a short escape is no newline and begins no code. -/
theorem ne_of_shortEscape? {mark c : Char} (meant : shortEscape? mark = some c) :
    mark ≠ '\n' ∧ mark ≠ 'u' := by
  constructor <;> rintro rfl <;> cases meant

/-- The digits of an escaped control character are read as its code. -/
theorem read?_code {code : Nat} (control : code < 32) :
    Hex.read? ((Hex.fixed 4 code).map Char.toLower) = some code := by
  revert code
  decide

/-! ### Bodies -/

/-- The digits of a code unit stand for themselves in a body. -/
theorem plain_of_read? {digits : List Char} {value : Nat} (read : Hex.read? digits = some value) :
    ∀ c ∈ digits, c ≠ '"' ∧ c ≠ '\\' := by
  intro c member
  have digit := Hex.isSome_digitValue?_of_read? read c member
  constructor <;> rintro rfl <;> cases digit

/-- Characters that stand for themselves may stand before a body. -/
theorem quotedBody_plain {front body : List Char} (plain : ∀ c ∈ front, c ≠ '"' ∧ c ≠ '\\')
    (spelled : QuotedBody body) : QuotedBody (front ++ body) := by
  induction front with
  | nil => exact spelled
  | cons c rest ih =>
      obtain ⟨here, behind⟩ := List.forall_mem_cons.mp plain
      exact .plain here.1 here.2 (ih behind)

theorem bodyLength_cons {c : Char} (noQuote : c ≠ '"') (plain : c ≠ '\\') (rest : List Char) :
    bodyLength (c :: rest) = bodyLength rest + 1 :=
  bodyLength.eq_4 c rest noQuote fun _ _ escape _ => plain escape

/-- What is cut off as a body ends before a quote, or is all that is left. -/
theorem bodyLength_stops (rest : List Char) :
    rest.drop (bodyLength rest) = [] ∨ ∃ behind, rest.drop (bodyLength rest) = '"' :: behind := by
  fun_induction bodyLength rest with
  | case1 => exact Or.inl rfl
  | case2 behind => exact Or.inr ⟨behind, rfl⟩
  | case3 _ _ ih => exact ih
  | case4 _ _ _ _ ih => exact ih

/-- The body of a double-quoted text is read to its closing quote. -/
theorem bodyLength_append {body : List Char} (spelled : QuotedBody body) (rest : List Char) :
    bodyLength (body ++ '"' :: rest) = body.length := by
  induction spelled with
  | nil => rfl
  | plain noQuote noEscape _ ih =>
      rw [List.cons_append, bodyLength_cons noQuote noEscape, ih, List.length_cons]
  | escape _ _ ih =>
      rw [List.cons_append, List.cons_append, bodyLength.eq_3, ih, List.length_cons,
        List.length_cons]

/-! ### Pieces -/

/-- Pieces that can be joined were all cut. -/
theorem stop?_eq_none_of_join {pieces : List Piece} {chars : List Char}
    (joined : join pieces = .ok chars) : stop? pieces = none := by
  fun_induction join pieces generalizing chars with
  | case1 => rfl
  | case2 c rest ih =>
      obtain ⟨behind, success, -⟩ := map_eq_ok_iff.mp joined
      exact ih success
  | case5 code next rest _ _ _ ih =>
      obtain ⟨behind, success, -⟩ := map_eq_ok_iff.mp joined
      exact ih success
  | case7 code next rest _ _ ih =>
      obtain ⟨behind, success, -⟩ := map_eq_ok_iff.mp joined
      exact ih success
  | case11 code rest _ _ _ ih =>
      obtain ⟨behind, success, -⟩ := map_eq_ok_iff.mp joined
      exact ih success
  | case3 | case4 | case6 | case8 | case9 | case10 => cases joined

/-- A body that can be cut is cut alike before any text. -/
theorem pieces_eq_of_stop?_eq_none {room : Nat} {body : List Char}
    (clear : stop? (pieces room body) = none) (other : Nat) :
    pieces other body = pieces room body := by
  fun_induction pieces room body with
  | case1 => rfl
  | case2 a b c d rest code read ih => rw [pieces, read, ih clear]
  | case5 c rest whole noUnit meant short ih =>
      rw [pieces.eq_4 _ _ _ whole noUnit, short, ih clear]
  | case9 c rest whole noUnit noPair noEnd printable ih =>
      rw [pieces.eq_6 _ _ _ whole noUnit noPair noEnd, if_neg printable, ih clear]
  | case3 | case4 | case6 | case7 | case8 => cases clear

/-- A body that ends at its first quote and can be cut is the body of a double-quoted text. -/
theorem quotedBody_of_stop?_eq_none {room : Nat} {body behind : List Char}
    (closed : bodyLength (body ++ '"' :: behind) = body.length)
    (clear : stop? (pieces room body) = none) : QuotedBody body := by
  fun_induction pieces room body with
  | case1 => exact .nil
  | case2 a b c d rest code read ih =>
      obtain ⟨plainA, behindA⟩ := List.forall_mem_cons.mp (plain_of_read? read)
      obtain ⟨plainB, behindB⟩ := List.forall_mem_cons.mp behindA
      obtain ⟨plainC, behindC⟩ := List.forall_mem_cons.mp behindB
      obtain ⟨plainD, -⟩ := List.forall_mem_cons.mp behindC
      simp only [List.cons_append, bodyLength.eq_3, bodyLength_cons plainA.1 plainA.2,
        bodyLength_cons plainB.1 plainB.2, bodyLength_cons plainC.1 plainC.2,
        bodyLength_cons plainD.1 plainD.2, List.length_cons, Nat.add_right_cancel_iff] at closed
      exact .escape (by decide) (quotedBody_plain (plain_of_read? read) (ih closed clear))
  | case5 c rest _ _ meant short ih =>
      have noBreak : c ≠ '\n' := by
        rintro rfl
        cases short
      simp only [List.cons_append, bodyLength.eq_3, List.length_cons, Nat.add_right_cancel_iff] at closed
      exact .escape noBreak (ih closed clear)
  | case9 c rest _ _ noPair noEnd printable ih =>
      have plain : c ≠ '\\' := by
        rintro rfl
        cases rest with
        | nil => exact noEnd rfl rfl
        | cons d rest => exact noPair d rest rfl rfl
      have noQuote : c ≠ '"' := by
        rintro rfl
        cases closed
      rw [List.cons_append, bodyLength_cons noQuote plain, List.length_cons,
        Nat.add_right_cancel_iff] at closed
      exact .plain noQuote plain (ih closed clear)
  | case3 | case4 | case6 | case7 | case8 => cases clear

/-! ### Texts -/

/-- A text is read if it is closed and its pieces can be joined. -/
theorem read_eq_ok_iff {text : Text} {content : String} :
    text.read = .ok content ↔ text.room ≠ 0 ∧
      ∃ chars, join (pieces text.room text.body) = .ok chars ∧ String.ofList chars = content := by
  unfold read
  rw [bind_eq_ok_iff]
  by_cases unclosed : text.room = 0
  · simp only [unclosed, if_true]
    constructor
    · rintro ⟨chars, -, failed⟩
      cases failed
    · exact fun closed => absurd rfl closed.1
  · simp only [unclosed, if_false]
    constructor
    · rintro ⟨chars, joined, same⟩
      exact ⟨unclosed, chars, joined, Except.ok.inj same⟩
    · rintro ⟨-, chars, joined, rfl⟩
      exact ⟨chars, joined, rfl⟩

/-- A text as it would be before no more than one byte. -/
def settle (text : Text) : Text := { text with room := min text.room 1 }

theorem read_eq_ok_of_body_eq {first second : Text} {content : String}
    (same : first.body = second.body) (closed : second.room ≠ 0)
    (success : first.read = .ok content) : second.read = .ok content := by
  obtain ⟨-, chars, joined, meant⟩ := read_eq_ok_iff.mp success
  refine read_eq_ok_iff.mpr ⟨closed, chars, ?_, meant⟩
  rw [← same, pieces_eq_of_stop?_eq_none (stop?_eq_none_of_join joined), joined]

/-- What a closed text means does not depend on what stands behind it. -/
theorem read_settle {text : Text} {content : String} :
    text.settle.read = .ok content ↔ text.read = .ok content := by
  have same : text.settle.body = text.body := rfl
  have room : text.settle.room = min text.room 1 := rfl
  constructor
  · intro success
    have closed := (read_eq_ok_iff.mp success).1
    exact read_eq_ok_of_body_eq same (by omega) success
  · intro success
    have closed := (read_eq_ok_iff.mp success).1
    exact read_eq_ok_of_body_eq same.symm (by omega) success

end ControlStore.Json.Text
