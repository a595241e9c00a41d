import ControlStore.Proofs.StrictTokens
import Mathlib.Data.List.Induction

set_option autoImplicit false

/-!
Where block comments end. Inside a comment a star is read together with the character behind it, so
the first `*/` ends a comment only if an even number of stars stands before it; otherwise the
comment goes on and takes what follows with it.
-/
namespace ControlStore.Relaxed

/-! ### Gaps at the front -/

/-- What a relaxed text gives behind a gap, told from what it gives alone: the same strict text but
for the blanks at its front, or the same fault on a later line. -/
def Behind (gap : List Char) (alone behind : Except SyntaxFault (List Char)) : Prop :=
  match alone with
  | .ok out => ∃ shown, behind = .ok shown ∧ shown.dropWhile isBlank = out.dropWhile isBlank
  | .error fault => behind = .error { fault with line := fault.line + newlines gap }

def Token.down (lines : Nat) (token : Token) : Token := { token with line := token.line + lines }

def Token.widen (lines : Nat) (token : Token) : Token := { token with gap := token.gap + lines }

/-- Tokens that begin some lines lower are the same tokens lower down. -/
theorem tokensFrom_line_add (line gap lines : Nat) (chunks : List Chunk) :
    tokensFrom (line + lines) gap chunks = (tokensFrom line gap chunks).map (Token.down lines) := by
  induction chunks generalizing line gap with
  | nil => rfl
  | cons chunk rest ih =>
      have lower : line + lines + newlines chunk.text = line + newlines chunk.text + lines := by omega
      rw [tokensFrom, tokensFrom, lower, ih, ih]
      split <;> rfl

/-- Newlines before a gap are counted into the gap of the first token. -/
theorem tokensFrom_gap_add (line gap lines : Nat) (chunks : List Chunk) :
    tokensFrom line (gap + lines) chunks =
      (tokensFrom line gap chunks).modifyHead (Token.widen lines) := by
  induction chunks generalizing line gap with
  | nil => rfl
  | cons chunk rest ih =>
      have wider : gap + lines + newlines chunk.text = gap + newlines chunk.text + lines := by omega
      rw [tokensFrom, tokensFrom, wider, ih]
      split <;> rfl

theorem head?_kind_down (lines : Nat) (tokens : List Token) :
    (tokens.map (Token.down lines)).head?.map (·.kind) = tokens.head?.map (·.kind) := by
  cases tokens <;> rfl

/-- Lower down the same strict text is rendered, or the same fault on its lower line. -/
theorem render_map_down (lines : Nat) (tokens : List Token) :
    render (tokens.map (Token.down lines)) =
      (render tokens).mapError fun fault => { fault with line := fault.line + lines } := by
  induction tokens with
  | nil => rfl
  | cons token rest ih =>
      obtain ⟨kind, text, gap, line⟩ := token
      simp only [List.map_cons, Token.down, render, head?_kind_down, ih]
      cases image? kind text (rest.head?.map (·.kind)) with
      | none => rfl
      | some image => cases render rest <;> rfl

/-- A gap before the first token is rendered as blanks before its strict form. -/
theorem behind_render {front : List Char} (tokens : List Token) :
    Behind front (render tokens) (render
      ((tokens.map (Token.down (newlines front))).modifyHead (Token.widen (newlines front)))) := by
  cases tokens with
  | nil => exact ⟨[], rfl, rfl⟩
  | cons token rest =>
      obtain ⟨kind, text, gap, line⟩ := token
      simp only [List.map_cons, List.modifyHead_cons, Token.down, Token.widen, render,
        head?_kind_down, render_map_down]
      cases image? kind text (rest.head?.map (·.kind)) with
      | none => rfl
      | some image =>
          cases render rest with
          | error fault => rfl
          | ok behind =>
              refine ⟨_, rfl, ?_⟩
              dsimp only
              rw [List.append_assoc, List.append_assoc,
                List.dropWhile_append_of_pos (lead_blank _),
                List.dropWhile_append_of_pos (lead_blank _)]

/-- A gap at the front of a text moves the text down and changes nothing else. -/
theorem behind_toJson {kind : Kind} {front rest : List Char} (gap : kind.isGap = true)
    (cut : kind.Cuts front (front ++ rest)) :
    Behind front (toJson rest) (toJson (front ++ rest)) := by
  have moved : tokens (⟨kind, front⟩ :: (scan rest).chunks) =
      ((tokens (scan rest).chunks).map (Token.down (newlines front))).modifyHead
        (Token.widen (newlines front)) := by
    rw [tokens, tokensFrom, gap, if_pos rfl, tokensFrom_gap_add, tokensFrom_line_add]
    rfl
  unfold toJson
  rw [scan_of_cuts cut]
  dsimp only
  by_cases whole : (scan rest).rest = []
  · rw [if_pos whole, if_pos whole, moved]
    exact behind_render _
  · rw [if_neg whole, if_neg whole]
    have lower : 1 + (newlines front + ((scan rest).chunks.map fun c => newlines c.text).sum) =
        1 + ((scan rest).chunks.map fun c => newlines c.text).sum + newlines front := by omega
    rw [List.map_cons, List.sum_cons, lower]
    rfl

/-! ### Stars -/

/-- The number of stars that end a text. -/
def trailingStars (text : List Char) : Nat := (text.reverse.takeWhile (· == '*')).length

theorem trailingStars_append_star (text : List Char) :
    trailingStars (text ++ ['*']) = trailingStars text + 1 := by
  rw [trailingStars, List.reverse_concat, List.takeWhile_cons_of_pos rfl, List.length_cons,
    trailingStars]

theorem trailingStars_append_of_ne {c : Char} (plain : c ≠ '*') (text : List Char) :
    trailingStars (text ++ [c]) = 0 := by
  rw [trailingStars, List.reverse_concat, List.takeWhile_cons_of_neg (by simpa using plain),
    List.length_nil]

theorem BlockBody.append {front back : List Char} (first : BlockBody front)
    (second : BlockBody back) : BlockBody (front ++ back) := by
  induction first with
  | nil => exact second
  | plain apart _ ih => exact .plain apart ih
  | star apart _ ih => exact .star apart ih

/-- Inside a text without `*/`, stars pair up to the last ones: the text can be the inside of a
comment, or it can but for a star too many at its end. -/
theorem blockBody_or_star {body : List Char} (unclosed : ¬ ['*', '/'] <:+: body) :
    (trailingStars body % 2 = 0 ∧ BlockBody body) ∨
      ∃ front, body = front ++ ['*'] ∧ trailingStars body % 2 = 1 ∧ BlockBody front := by
  induction body using List.reverseRecOn with
  | nil => exact Or.inl ⟨rfl, .nil⟩
  | append_singleton front c ih =>
      have shorter : ¬ ['*', '/'] <:+: front := by
        intro inside
        exact unclosed (inside.trans (List.prefix_append front [c]).isInfix)
      by_cases star : c = '*'
      · subst star
        rw [trailingStars_append_star]
        rcases ih shorter with ⟨even, spelled⟩ | ⟨before, rfl, odd, spelled⟩
        · exact Or.inr ⟨front, rfl, by omega, spelled⟩
        · refine Or.inl ⟨by omega, ?_⟩
          rw [List.append_assoc]
          exact spelled.append (.star (by decide) .nil)
      · rw [trailingStars_append_of_ne star]
        refine Or.inl ⟨rfl, ?_⟩
        rcases ih shorter with ⟨-, spelled⟩ | ⟨before, rfl, -, spelled⟩
        · exact spelled.append (.plain star .nil)
        · have noSlash : c ≠ '/' := by
            rintro rfl
            apply unclosed
            rw [List.append_assoc]
            exact (List.suffix_append before _).isInfix
          rw [List.append_assoc]
          exact spelled.append (.star noSlash .nil)

/-! ### Comments -/

/-- A text between the marks of a block comment. -/
def blockComment (body : List Char) : List Char := '/' :: '*' :: (body ++ ['*', '/'])

theorem blockComment_append (body rest : List Char) :
    blockComment body ++ rest = '/' :: '*' :: (body ++ '*' :: '/' :: rest) := by
  simp only [blockComment, List.cons_append, List.append_assoc, List.nil_append]

/-- A chunk that begins like a block comment is one. -/
theorem Kind.Cuts.exists_blockBody {kind : Kind} {front rest : List Char}
    (cut : kind.Cuts front ('/' :: '*' :: rest)) :
    ∃ inner behind, rest = inner ++ '*' :: '/' :: behind ∧ BlockBody inner := by
  have spelled := cut.spells
  obtain ⟨behind, whole⟩ := cut.starts
  have family : kind.family = .blockComment := by
    obtain ⟨c, more, rfl⟩ := List.exists_cons_of_length_pos spelled.length_pos
    obtain ⟨rfl, -⟩ := List.cons.inj whole
    rw [← spelled.ofHead_eq]
    decide
  cases kind with
  | lineComment =>
      obtain ⟨line, rfl, -⟩ := spelled
      cases (List.cons.inj (List.cons.inj whole).2).1
  | blockComment =>
      obtain ⟨inner, rfl, inside⟩ := spelled
      have same := (List.cons.inj (List.cons.inj whole).2).2
      rw [List.append_eq, List.append_assoc] at same
      exact ⟨inner, behind, same.symm, inside⟩
  | blanks | braceOpen | braceClose | bracketOpen | bracketClose | colon | comma | doubleQuoted
  | singleQuoted | hex | number | word => exact absurd family (by decide)

/-- A text whose beginning no kind matches is refused there. -/
theorem toJson_of_longest?_eq_none {text : List Char} (some : text ≠ [])
    (stuck : longest? text = none) :
    toJson text = .error ⟨1, String.ofList (text.take (unmatchedLength text))⟩ := by
  unfold toJson
  rw [scan_of_longest?_eq_none some stuck]
  exact if_neg some

/-- Behind a star too many a comment goes on, and ends where one that begins there would. -/
theorem blockBody_past_close {front inner rest behind : List Char}
    (outside : BlockBody front) (inside : BlockBody inner)
    (whole : front ++ '*' :: '*' :: '/' :: rest = inner ++ '*' :: '/' :: behind) :
    ∃ further, rest = further ++ '*' :: '/' :: behind ∧ BlockBody further := by
  -- Both ways to read the text measure the same body.
  have measured := congrArg blockBody whole
  rw [blockBody_append outside, blockBody_append inside, blockBody.eq_3 _ _ (by decide),
    blockBody_cons (by decide), blockBody.eq_2] at measured
  have dropped := congrArg (List.drop inner.length) whole
  have size : inner.length = front.length + (blockBody rest + 3) := by omega
  rw [List.drop_left, size, List.drop_append, List.drop_of_length_le (Nat.le_add_right _ _),
    Nat.add_sub_cancel_left] at dropped
  refine ⟨rest.take (blockBody rest), ?_, (blockBody_spells rest).2⟩
  rw [← dropped]
  exact (List.take_append_drop _ rest).symm

/-- A comment around a text without `*/` ends behind it if an even number of stars stands at its
end. If the number is odd, the comment goes on to where a comment that begins behind it would end,
and takes all that is before; where none would end, the text is refused at its beginning. -/
theorem blockComment_ends {body : List Char} (unclosed : ¬ ['*', '/'] <:+: body)
    (rest : List Char) :
    (trailingStars body % 2 = 0 →
      Behind (blockComment body) (toJson rest) (toJson (blockComment body ++ rest))) ∧
    (trailingStars body % 2 = 1 →
      (∀ inner behind, rest = inner ++ '*' :: '/' :: behind → BlockBody inner →
        Behind (blockComment body ++ (inner ++ ['*', '/'])) (toJson behind)
          (toJson (blockComment body ++ rest))) ∧
      ((∀ inner behind, rest = inner ++ '*' :: '/' :: behind → ¬ BlockBody inner) →
        ∃ found, toJson (blockComment body ++ rest) = .error ⟨1, found⟩)) := by
  have closes {inner : List Char} (inside : BlockBody inner) (behind : List Char) :
      Behind (blockComment inner) (toJson behind) (toJson (blockComment inner ++ behind)) :=
    have spelled : Kind.blockComment.Spells (blockComment inner) := ⟨inner, rfl, inside⟩
    behind_toJson rfl (spelled.cuts_endsItself rfl behind)
  rcases blockBody_or_star unclosed with ⟨even, spelled⟩ | ⟨front, rfl, odd, spelled⟩
  · exact ⟨fun _ => closes spelled rest, fun odd => absurd (even.symm.trans odd) (by decide)⟩
  · refine ⟨fun even => absurd (even.symm.trans odd) (by decide), fun _ => ⟨?_, ?_⟩⟩
    · rintro inner behind rfl inside
      have longer : BlockBody (front ++ '*' :: '*' :: '/' :: inner) :=
        spelled.append (.star (by decide) (.plain (by decide) inside))
      have ends := closes longer behind
      simp only [blockComment, List.append_assoc, List.cons_append, List.nil_append] at ends ⊢
      exact ends
    · intro goesOn
      have stuck : longest? (blockComment (front ++ ['*']) ++ rest) = none := by
        cases found : longest? (blockComment (front ++ ['*']) ++ rest) with
        | none => rfl
        | some winner =>
            obtain ⟨text, cut, -⟩ := longest?_eq_some_iff.mp found
            rw [blockComment_append, List.append_assoc] at cut
            obtain ⟨inner, behind, whole, inside⟩ := cut.exists_blockBody
            obtain ⟨further, split, ends⟩ := blockBody_past_close spelled inside whole
            exact absurd ends (goesOn further behind split)
      exact ⟨_, toJson_of_longest?_eq_none (List.cons_ne_nil _ _) stuck⟩

/-- A comment of one star goes on to the end of the next one and takes a number with it. -/
theorem blockComment_ends_star :
    ¬ ['*', '/'] <:+: ['*'] ∧ trailingStars ['*'] % 2 = 1 ∧
      ∃ shown, toJson "/***/1/* */2".toList = .ok shown ∧ shown.dropWhile isBlank = ['2'] := by
  have unclosed : ¬ ['*', '/'] <:+: ['*'] := by decide
  have inside : BlockBody ['1', '/', '*', ' '] :=
    .plain (by decide) (.plain (by decide) (.star (by decide) .nil))
  have alone : toJson ['2'] = .ok [' ', '2'] := by decide +kernel
  have behind :=
    ((blockComment_ends unclosed "1/* */2".toList).2 (by decide)).1 _ ['2'] rfl inside
  rw [alone] at behind
  obtain ⟨shown, success, same⟩ := behind
  exact ⟨unclosed, by decide, shown, success, same⟩

/-- A comment of one star before a map is no relaxed text, though `*/` ends it. -/
theorem blockComment_unended_star :
    ¬ ∀ (body rest out : List Char), ¬ ['*', '/'] <:+: body → toJson rest = .ok out →
      ∃ shown, toJson (blockComment body ++ rest) = .ok shown ∧
        shown.dropWhile isBlank = out.dropWhile isBlank := by
  intro ends
  obtain ⟨shown, success, -⟩ :=
    ends ['*'] ['{', '}'] " \x7b \x7d".toList (by decide) (by decide +kernel)
  have refused : toJson (blockComment ['*'] ++ ['{', '}']) = .error ⟨1, "/***/\x7b\x7d"⟩ := by
    decide +kernel
  rw [refused] at success
  cases success

end ControlStore.Relaxed
