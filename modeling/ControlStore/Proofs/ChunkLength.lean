import ControlStore.Relaxed.Spelling
import Mathlib.Data.List.TakeWhile

set_option autoImplicit false

/-!
How long a match is. What a kind matches at the front of a text spells the kind, and where a text
begins with something that spells the kind, the kind matches at least that much.
-/
namespace ControlStore.Relaxed

/-! ### Runs and bodies -/

section Runs

variable {p : Char → Bool}

theorem run_append {front : List Char} (inside : ∀ c ∈ front, p c = true) (rest : List Char) :
    run p (front ++ rest) = front.length + run p rest := by
  rw [run, List.takeWhile_append_of_pos inside, List.length_append, run]

theorem run_le (text : List Char) : run p text ≤ text.length :=
  (List.takeWhile_prefix p).length_le

theorem take_run (text : List Char) : text.take (run p text) = text.takeWhile p :=
  (List.prefix_iff_eq_take.mp (List.takeWhile_prefix p)).symm

theorem run_spells {text : List Char} (some : run p text ≠ 0) : Run p (text.take (run p text)) := by
  rw [take_run]
  exact ⟨List.ne_nil_of_length_pos (Nat.pos_of_ne_zero some), fun c => List.mem_takeWhile_imp⟩

end Runs

theorem blockBody_cons {c : Char} (plain : c ≠ '*') (rest : List Char) :
    blockBody (c :: rest) = blockBody rest + 1 :=
  blockBody.eq_5 c rest (fun _ star => absurd star plain) (fun _ _ star => absurd star plain)
    (fun star => absurd star plain)

theorem blockBody_append {body : List Char} (spelled : BlockBody body) (rest : List Char) :
    blockBody (body ++ rest) = body.length + blockBody rest := by
  induction spelled with
  | nil => exact (Nat.zero_add _).symm
  | plain apart _ ih =>
      rw [List.cons_append, blockBody_cons apart, ih, List.length_cons, Nat.succ_add]
  | star apart _ ih =>
      rw [List.cons_append, List.cons_append, blockBody.eq_3 _ _ apart, ih, List.length_cons,
        List.length_cons, Nat.succ_add, Nat.succ_add]

theorem blockBody_spells (text : List Char) :
    blockBody text ≤ text.length ∧ BlockBody (text.take (blockBody text)) := by
  fun_induction blockBody text with
  | case1 => exact ⟨Nat.le_refl 0, .nil⟩
  | case2 rest => exact ⟨Nat.zero_le _, .nil⟩
  | case3 c rest apart ih => exact ⟨by simpa using ih.1, .star apart ih.2⟩
  | case4 => exact ⟨Nat.zero_le _, .nil⟩
  | case5 c rest noClose noPair noEnd ih =>
      have plain : c ≠ '*' := by
        intro star
        cases rest with
        | nil => exact noEnd star rfl
        | cons next rest => exact noPair next rest star rfl
      exact ⟨Nat.succ_le_succ ih.1, .plain plain ih.2⟩

theorem quotedBody_cons {c : Char} (noQuote : c ≠ '"') (noEscape : c ≠ '\\') (rest : List Char) :
    quotedBody (c :: rest) = quotedBody rest + 1 :=
  quotedBody.eq_6 c rest noQuote (fun _ escape => absurd escape noEscape)
    (fun _ _ escape => absurd escape noEscape) (fun escape => absurd escape noEscape)

theorem quotedBody_append {body : List Char} (spelled : QuotedBody body) (rest : List Char) :
    quotedBody (body ++ '"' :: rest) = body.length := by
  induction spelled with
  | nil => rfl
  | plain noQuote noEscape _ ih =>
      rw [List.cons_append, quotedBody_cons noQuote noEscape, ih, List.length_cons]
  | escape apart _ ih =>
      rw [List.cons_append, List.cons_append, quotedBody.eq_4 _ _ apart, ih, List.length_cons,
        List.length_cons]

theorem quotedBody_spells (text : List Char) :
    quotedBody text ≤ text.length ∧ QuotedBody (text.take (quotedBody text)) := by
  fun_induction quotedBody text with
  | case1 => exact ⟨Nat.le_refl 0, .nil⟩
  | case2 rest => exact ⟨Nat.zero_le _, .nil⟩
  | case3 rest => exact ⟨Nat.zero_le _, .nil⟩
  | case4 c rest apart ih => exact ⟨by simpa using ih.1, .escape apart ih.2⟩
  | case5 => exact ⟨Nat.zero_le _, .nil⟩
  | case6 c rest noQuote noBreak noPair noEnd ih =>
      have noEscape : c ≠ '\\' := by
        intro escape
        cases rest with
        | nil => exact noEnd escape rfl
        | cons next rest => exact noPair next rest escape rfl
      exact ⟨Nat.succ_le_succ ih.1, .plain noQuote noEscape ih.2⟩

/-- An enclosed chunk is its opening mark, the body that the marks enclose, and its closing mark. -/
theorem enclosedLength?_eq_some_iff {opening closing : List Char} {body : List Char → Nat}
    (bounded : ∀ text, body text ≤ text.length) {text : List Char} {n : Nat} :
    enclosedLength? opening body closing text = some n ↔
      ∃ inner rest, text = opening ++ (inner ++ (closing ++ rest)) ∧
        body (inner ++ (closing ++ rest)) = inner.length ∧
        n = opening.length + inner.length + closing.length := by
  unfold enclosedLength?
  constructor
  · intro found
    split at found
    · rename_i opened
      obtain ⟨behind, rfl⟩ := List.isPrefixOf_iff_prefix.mp opened
      simp only [List.drop_left, ← List.drop_drop] at found
      split at found
      · rename_i closed
        obtain ⟨rest, split⟩ := List.isPrefixOf_iff_prefix.mp closed
        have whole : behind = behind.take (body behind) ++ (closing ++ rest) := by
          rw [split, List.take_append_drop]
        refine ⟨behind.take (body behind), rest, by rw [← whole], ?_, ?_⟩
        · rw [← whole, List.length_take, Nat.min_eq_left (bounded behind)]
        · rw [List.length_take, Nat.min_eq_left (bounded behind)]
          exact (Option.some.inj found).symm
      · cases found
    · cases found
  · rintro ⟨inner, rest, rfl, measured, rfl⟩
    have opened : opening.isPrefixOf (opening ++ (inner ++ (closing ++ rest))) = true :=
      List.isPrefixOf_iff_prefix.mpr (List.prefix_append _ _)
    have closed : closing.isPrefixOf (closing ++ rest) = true :=
      List.isPrefixOf_iff_prefix.mpr (List.prefix_append _ _)
    simp only [opened, if_true, List.drop_left, measured, ← List.drop_drop, closed]

/-- What a bounded reader finds between marks spells what the reader reads. -/
theorem enclosedLength?_spells {opening closing : List Char} {body : List Char → Nat}
    {inside : List Char → Prop}
    (reads : ∀ text, body text ≤ text.length ∧ inside (text.take (body text)))
    {text : List Char} {n : Nat} (found : enclosedLength? opening body closing text = some n) :
    n ≤ text.length ∧ ∃ inner, text.take n = opening ++ (inner ++ closing) ∧ inside inner := by
  obtain ⟨inner, rest, rfl, measured, rfl⟩ :=
    (enclosedLength?_eq_some_iff fun text => (reads text).1).mp found
  have spelled := (reads (inner ++ (closing ++ rest))).2
  rw [measured, List.take_left] at spelled
  have front : opening ++ (inner ++ (closing ++ rest)) = (opening ++ (inner ++ closing)) ++ rest := by
    simp only [List.append_assoc]
  have size : opening.length + inner.length + closing.length =
      (opening ++ (inner ++ closing)).length := by
    simp only [List.length_append]
    omega
  rw [front, size]
  exact ⟨(List.prefix_append _ rest).length_le, inner, List.take_left, spelled⟩

/-! ### Numbers -/

theorem fractionLength_spells (text : List Char) :
    fractionLength text ≤ text.length ∧ Fraction (text.take (fractionLength text)) := by
  unfold fractionLength
  split
  · rename_i rest
    split
    · exact ⟨Nat.zero_le _, .absent⟩
    · rename_i some
      exact ⟨Nat.succ_le_succ (run_le rest), .present (run_spells some)⟩
  · exact ⟨Nat.zero_le _, .absent⟩

theorem signLength_spells (text : List Char) :
    signLength text ≤ text.length ∧ text.take (signLength text) ∈ [[], ['+'], ['-']] := by
  unfold signLength
  split <;> simp

theorem exponentLength_spells (text : List Char) :
    exponentLength text ≤ text.length ∧ Exponent (text.take (exponentLength text)) := by
  unfold exponentLength
  split
  · exact ⟨Nat.zero_le _, .absent⟩
  · rename_i mark rest
    obtain ⟨signInside, sign⟩ := signLength_spells rest
    dsimp only
    split
    · rename_i present
      simp only [Bool.and_eq_true, Bool.or_eq_true, beq_iff_eq, bne_iff_ne] at present
      have digitsInside := run_le (p := Char.isDigit) (rest.drop (signLength rest))
      rw [List.length_drop] at digitsInside
      refine ⟨by rw [List.length_cons]; omega, ?_⟩
      rw [Nat.add_comm (run _ _), List.take_succ_cons, List.take_add]
      exact .present present.1 sign (run_spells present.2)
    · exact ⟨Nat.zero_le _, .absent⟩

theorem unsignedLength_spells {text : List Char} {n : Nat} (found : unsignedLength text = some n) :
    n ≤ text.length ∧ ∃ whole fraction exponent, text.take n = whole ++ (fraction ++ exponent) ∧
      Run Char.isDigit whole ∧ Fraction fraction ∧ Exponent exponent := by
  unfold unsignedLength at found
  dsimp only at found
  split at found
  · cases found
  · rename_i some
    have wholeInside := run_le (p := Char.isDigit) text
    obtain ⟨fractionInside, fraction⟩ := fractionLength_spells (text.drop (run Char.isDigit text))
    obtain ⟨exponentInside, exponent⟩ := exponentLength_spells
      (text.drop (run Char.isDigit text + fractionLength (text.drop (run Char.isDigit text))))
    rw [List.length_drop] at fractionInside exponentInside
    cases found
    refine ⟨by omega, _, _, _, ?_, run_spells some, fraction, exponent⟩
    rw [List.take_add, List.take_add, List.append_assoc]

theorem Run.exists_cons {p : Char → Bool} {text : List Char} (run : Run p text) :
    ∃ c rest, text = c :: rest ∧ p c = true := by
  obtain ⟨nonempty, inside⟩ := run
  obtain ⟨c, rest, rfl⟩ := List.exists_cons_of_ne_nil nonempty
  exact ⟨c, rest, rfl, inside c List.mem_cons_self⟩

theorem signLength_append {sign digits : List Char} (spelled : sign ∈ [[], ['+'], ['-']])
    (some : Run Char.isDigit digits) (rest : List Char) :
    signLength (sign ++ (digits ++ rest)) = sign.length := by
  obtain ⟨c, more, rfl, digit⟩ := some.exists_cons
  have noPlus : c ≠ '+' := fun plus => absurd (plus ▸ digit) (by decide)
  have noMinus : c ≠ '-' := fun minus => absurd (minus ▸ digit) (by decide)
  simp only [List.mem_cons, List.not_mem_nil, or_false] at spelled
  rcases spelled with rfl | rfl | rfl
  · simp [signLength, noPlus, noMinus]
  · rfl
  · rfl

/-- An exponent is read to its end, and perhaps further. -/
theorem exponentLength_append {exponent : List Char} (spelled : Exponent exponent)
    (rest : List Char) : exponent.length ≤ exponentLength (exponent ++ rest) := by
  cases spelled with
  | absent => exact Nat.zero_le _
  | present mark sign digits =>
      rename_i c s d
      have marked : (c == 'e' || c == 'E') = true := by simpa using mark
      have signed := signLength_append sign digits rest
      have counted := run_append digits.2 rest
      have positive := List.length_pos_iff.mpr digits.1
      have some : (d.length + run Char.isDigit rest != 0) = true := bne_iff_ne.mpr (by omega)
      simp only [List.cons_append, List.append_assoc, exponentLength, signed, List.drop_left,
        counted, marked, some, Bool.and_self, if_true, List.length_cons, List.length_append]
      omega

/-- An exponent begins with no digit and no point. -/
theorem Exponent.run_eq_zero {exponent : List Char} (spelled : Exponent exponent)
    (some : exponent ≠ []) (rest : List Char) :
    run Char.isDigit (exponent ++ rest) = 0 ∧ fractionLength (exponent ++ rest) = 0 := by
  cases spelled with
  | absent => exact absurd rfl some
  | present mark =>
      rcases mark with rfl | rfl <;> exact ⟨rfl, rfl⟩

theorem fractionLength_append {digits : List Char} (spelled : Run Char.isDigit digits)
    (rest : List Char) :
    fractionLength ('.' :: digits ++ rest) = digits.length + run Char.isDigit rest + 1 := by
  have some := List.length_pos_iff.mpr spelled.1
  rw [List.cons_append, fractionLength, run_append spelled.2, if_neg (by omega)]

/-- A number without its sign is read to its end, and perhaps further. -/
theorem unsignedLength_append {whole fraction exponent : List Char}
    (wholeDigits : Run Char.isDigit whole) (fractionSpelled : Fraction fraction)
    (exponentSpelled : Exponent exponent) (rest : List Char) :
    ∃ n, unsignedLength (whole ++ (fraction ++ exponent) ++ rest) = some n ∧
      (whole ++ (fraction ++ exponent)).length ≤ n := by
  have some := List.length_pos_iff.mpr wholeDigits.1
  have counted (behind : List Char) := run_append wholeDigits.2 behind
  have stops : exponent = [] ∨ run Char.isDigit (exponent ++ rest) = 0 ∧
      fractionLength (exponent ++ rest) = 0 :=
    or_iff_not_imp_left.mpr fun present => exponentSpelled.run_eq_zero present rest
  have exponentRead := exponentLength_append exponentSpelled rest
  simp only [List.append_assoc, unsignedLength, counted, List.length_append]
  rw [if_neg (by omega)]
  refine ⟨_, rfl, ?_⟩
  cases fractionSpelled with
  | absent =>
      rcases stops with rfl | ⟨noDigit, noPoint⟩
      · simp only [List.length_nil]
        omega
      · simp only [List.nil_append, noDigit, Nat.add_zero, List.drop_left, noPoint, List.length_nil]
        omega
  | present digits =>
      rename_i d
      have point : run Char.isDigit ('.' :: d ++ (exponent ++ rest)) = 0 := rfl
      simp only [point, Nat.add_zero, List.drop_left, fractionLength_append digits]
      rcases stops with rfl | ⟨noDigit, -⟩
      · simp only [List.length_nil, List.length_cons]
        omega
      · have behind : (whole ++ ('.' :: d ++ (exponent ++ rest))).drop
            (whole.length + (d.length + 0 + 1)) = exponent ++ rest := by
          rw [← List.append_assoc]
          exact List.drop_left' (by simp)
        simp only [noDigit, behind, List.length_cons]
        omega

/-! ### Chunks of a kind -/

theorem fixedLength?_spells {mark : Char} {text : List Char} {n : Nat}
    (found : fixedLength? [mark] text = some n) : n ≤ text.length ∧ text.take n = [mark] := by
  unfold fixedLength? at found
  split at found
  · rename_i front
    obtain ⟨rest, rfl⟩ := List.isPrefixOf_iff_prefix.mp front
    cases found
    exact ⟨(List.prefix_append _ _).length_le, rfl⟩
  · cases found

theorem runLength?_spells {p : Char → Bool} {text : List Char} {n : Nat}
    (found : runLength? p text = some n) : n ≤ text.length ∧ Run p (text.take n) := by
  unfold runLength? at found
  split at found
  · cases found
  · rename_i some
    cases found
    exact ⟨run_le text, run_spells some⟩

theorem run_reads (p : Char → Bool) (text : List Char) :
    run p text ≤ text.length ∧ ∀ c ∈ text.take (run p text), p c = true := by
  refine ⟨run_le text, ?_⟩
  rw [take_run]
  exact fun c => List.mem_takeWhile_imp

/-- What a kind matches is inside the text and spells the kind. -/
theorem Kind.length?_spells {kind : Kind} {text : List Char} {n : Nat}
    (found : kind.length? text = some n) : n ≤ text.length ∧ kind.Spells (text.take n) := by
  cases kind with
  | blanks => exact runLength?_spells found
  | lineComment =>
      obtain ⟨inside, inner, front, plain⟩ :=
        @enclosedLength?_spells _ _ _ (fun text => ∀ c ∈ text, (c != '\n') = true)
          (run_reads _) _ _ found
      refine ⟨inside, inner, by simpa using front, ?_⟩
      intro c member
      exact bne_iff_ne.mp (plain c member)
  | blockComment => exact enclosedLength?_spells blockBody_spells found
  | braceOpen => exact fixedLength?_spells found
  | braceClose => exact fixedLength?_spells found
  | bracketOpen => exact fixedLength?_spells found
  | bracketClose => exact fixedLength?_spells found
  | colon => exact fixedLength?_spells found
  | comma => exact fixedLength?_spells found
  | doubleQuoted => exact enclosedLength?_spells quotedBody_spells found
  | singleQuoted => 
      exact @enclosedLength?_spells _ _ _ (fun text => ∀ c ∈ text, isPlain c = true)
        (run_reads _) _ _ found
  | hex =>
      simp only [Kind.length?] at found
      split at found
      · rename_i mark rest
        split at found
        · rename_i marked
          obtain ⟨length, counted, rfl⟩ := Option.map_eq_some_iff.mp found
          obtain ⟨inside, digits⟩ := runLength?_spells counted
          refine ⟨Nat.add_le_add_right inside 2, mark, rest.take length, rfl, ?_, digits⟩
          simpa using marked
        · cases found
      · cases found
  | number =>
      simp only [Kind.length?] at found
      split at found
      · rename_i rest
        obtain ⟨length, counted, rfl⟩ := Option.map_eq_some_iff.mp found
        obtain ⟨inside, whole, fraction, exponent, front, spelled⟩ := unsignedLength_spells counted
        exact ⟨Nat.succ_le_succ inside, ['-'], whole, fraction, exponent, by
          rw [List.take_succ_cons, front, List.singleton_append], by decide, spelled⟩
      · obtain ⟨inside, whole, fraction, exponent, front, spelled⟩ := unsignedLength_spells found
        exact ⟨inside, [], whole, fraction, exponent, front, by decide, spelled⟩
  | word =>
      simp only [Kind.length?] at found
      split at found
      · rename_i first rest
        split at found
        · rename_i starts
          cases found
          exact ⟨Nat.succ_le_succ (run_le rest), first, _, rfl, starts, (run_reads _ rest).2⟩
        · cases found
      · cases found

theorem Kind.Spells.length_pos {kind : Kind} {text : List Char} (spelled : kind.Spells text) :
    0 < text.length := by
  cases kind with
  | blanks => exact List.length_pos_iff.mpr spelled.1
  | number =>
      obtain ⟨sign, whole, fraction, exponent, rfl, -, digits, -⟩ := spelled
      have some := List.length_pos_iff.mpr digits.1
      simp only [List.length_append]
      omega
  | braceOpen | braceClose | bracketOpen | bracketClose | colon | comma =>
      rw [show text = _ from spelled]
      exact Nat.one_pos
  | lineComment | blockComment | doubleQuoted | singleQuoted =>
      obtain ⟨body, rfl, -⟩ := spelled
      exact Nat.succ_pos _
  | hex | word =>
      obtain ⟨first, rest, rfl, -⟩ := spelled
      exact Nat.succ_pos _

theorem fixedLength?_append (mark : Char) (rest : List Char) :
    fixedLength? [mark] ([mark] ++ rest) = some 1 :=
  if_pos (List.isPrefixOf_iff_prefix.mpr (List.prefix_append _ _))

theorem runLength?_append {p : Char → Bool} {front : List Char} (spelled : Run p front)
    (rest : List Char) : runLength? p (front ++ rest) = some (front.length + run p rest) := by
  have some := List.length_pos_iff.mpr spelled.1
  rw [runLength?, run_append spelled.2, if_neg (by omega)]

/-- A body that is read to its closing mark makes an enclosed chunk. -/
theorem enclosedLength?_append {opening inner closing : List Char} {body : List Char → Nat}
    (bounded : ∀ text, body text ≤ text.length) {rest : List Char}
    (measured : body (inner ++ (closing ++ rest)) = inner.length) :
    enclosedLength? opening body closing (opening ++ (inner ++ closing) ++ rest) =
      some (opening ++ (inner ++ closing)).length := by
  rw [enclosedLength?_eq_some_iff bounded]
  refine ⟨inner, rest, by simp only [List.append_assoc], measured, ?_⟩
  simp only [List.length_append, Nat.add_assoc]

/-- The kinds whose chunks show by themselves where they end. -/
def Kind.endsItself : Kind → Bool
  | blanks | lineComment | hex | number | word => false
  | _ => true

/-- A chunk that shows its end is matched in full and no further. -/
theorem Kind.Spells.length?_endsItself {kind : Kind} {front : List Char}
    (closed : kind.endsItself = true) (spelled : kind.Spells front) (rest : List Char) :
    kind.length? (front ++ rest) = some front.length := by
  cases kind with
  | blanks | lineComment | hex | number | word => cases closed
  | blockComment =>
      obtain ⟨body, rfl, inside⟩ := spelled
      exact enclosedLength?_append (fun text => (blockBody_spells text).1)
        (blockBody_append inside _)
  | braceOpen | braceClose | bracketOpen | bracketClose | colon | comma =>
      rw [show front = _ from spelled]
      exact fixedLength?_append _ rest
  | doubleQuoted =>
      obtain ⟨body, rfl, inside⟩ := spelled
      exact enclosedLength?_append (fun text => (quotedBody_spells text).1)
        (quotedBody_append inside rest)
  | singleQuoted =>
      obtain ⟨body, rfl, inside⟩ := spelled
      exact enclosedLength?_append run_le (run_append inside _)

/-- Before any text, what spells a kind is matched by the kind, and perhaps more with it. -/
theorem Kind.Spells.length?_append {kind : Kind} {front : List Char} (spelled : kind.Spells front)
    (rest : List Char) : ∃ n, kind.length? (front ++ rest) = some n ∧ front.length ≤ n := by
  cases kind with
  | blanks => exact ⟨_, runLength?_append spelled rest, Nat.le_add_right _ _⟩
  | lineComment =>
      obtain ⟨body, rfl, plain⟩ := spelled
      have read : run (· != '\n') (body ++ rest) = body.length + run (· != '\n') rest :=
        run_append (fun c member => bne_iff_ne.mpr (plain c member)) rest
      refine ⟨body.length + run (· != '\n') rest + 2, ?_, by simp⟩
      simp [Kind.length?, enclosedLength?, List.isPrefixOf, read, Nat.add_comm 2]
  | blockComment | braceOpen | braceClose | bracketOpen | bracketClose | colon | comma
  | doubleQuoted | singleQuoted => exact ⟨_, spelled.length?_endsItself rfl rest, Nat.le_refl _⟩
  | hex =>
      obtain ⟨mark, digits, rfl, marked, spelled⟩ := spelled
      refine ⟨_, ?_, Nat.add_le_add_right (Nat.le_add_right digits.length (run isHexDigit rest)) 2⟩
      rcases marked with rfl | rfl <;> simp [Kind.length?, runLength?_append spelled]
  | number =>
      obtain ⟨sign, whole, fraction, exponent, rfl, signed, digits, spelled⟩ := spelled
      obtain ⟨n, read, enough⟩ := unsignedLength_append digits spelled.1 spelled.2 rest
      simp only [List.mem_cons, List.not_mem_nil, or_false] at signed
      rcases signed with rfl | rfl
      · obtain ⟨first, more, rfl, digit⟩ := digits.exists_cons
        have noSign : first ≠ '-' := fun minus => absurd (minus ▸ digit) (by decide)
        refine ⟨n, ?_, enough⟩
        rw [← read]
        simp [Kind.length?, noSign]
      · refine ⟨n + 1, ?_, Nat.succ_le_succ enough⟩
        simp only [List.cons_append, List.nil_append, Kind.length?, read, Option.map_some]
  | word =>
      obtain ⟨first, more, rfl, starts, inside⟩ := spelled
      refine ⟨_, ?_, Nat.succ_le_succ (Nat.le_add_right more.length (run isWordRest rest))⟩
      simp [Kind.length?, starts, run_append inside]

end ControlStore.Relaxed
