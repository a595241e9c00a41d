import ControlStore.Json.Spelling
import ControlStore.Proofs.LexemeOrder
import ControlStore.Proofs.QuotedText
import ControlStore.Proofs.Scanning
import ControlStore.Proofs.TreeTexts

set_option autoImplicit false

/-!
Lexemes of JSON as chunks of relaxed text. A lexeme that values are made of is spelled as a chunk of
its kind is, and both scans of a text with lexemes in order cut it at the same places.
-/
namespace ControlStore.Json

open Relaxed (Kind Chunk Run Fraction Exponent Apart)

theorem Spaced.cons {c : Char} {words : List (List Char)} {text : List Char}
    (blank : Lexeme.isBlank c = true) (spaced : Spaced words text) : Spaced words (c :: text) := by
  cases spaced with
  | done blanks => exact .done (List.forall_mem_cons.mpr ⟨blank, blanks⟩)
  | more blanks behind => exact .more (List.forall_mem_cons.mpr ⟨blank, blanks⟩) behind

/-! ### Numbers -/

namespace Literal

theorem takeSign_spells (text : List Char) :
    ∃ sign ∈ [[], ['-']], text = sign ++ (takeSign text).2 := by
  unfold takeSign
  split
  · exact ⟨['-'], by simp, rfl⟩
  · exact ⟨[], by simp, rfl⟩

theorem takeDigits_spells (text : List Char) : text = (takeDigits text).1 ++ (takeDigits text).2 ∧
    ∀ c ∈ (takeDigits text).1, c.isDigit = true :=
  ⟨List.takeWhile_append_dropWhile.symm, fun _ member => List.mem_takeWhile_imp member⟩

theorem takeFraction_spells {text rest : List Char} {fraction : Option (List Char)}
    (found : takeFraction text = some (fraction, rest)) :
    ∃ spelling, text = spelling ++ rest ∧ Fraction spelling := by
  unfold takeFraction at found
  split at found
  · rename_i behind
    obtain ⟨whole, digits⟩ := takeDigits_spells behind
    dsimp only at found
    split at found
    · cases found
    · rename_i some
      cases found
      exact ⟨'.' :: (takeDigits behind).1, congrArg ('.' :: ·) whole, .present ⟨some, digits⟩⟩
  · cases found
    exact ⟨[], rfl, .absent⟩

theorem takeExponentSign_spells (text : List Char) :
    ∃ sign ∈ [[], ['+'], ['-']], text = sign ++ (takeExponentSign text).2 := by
  unfold takeExponentSign
  split
  · exact ⟨['-'], by simp, rfl⟩
  · exact ⟨['+'], by simp, rfl⟩
  · exact ⟨[], by simp, rfl⟩

theorem readExponent_spells {text : List Char} {exponent : Option Int}
    (found : readExponent text = some exponent) : Exponent text := by
  unfold readExponent at found
  split at found
  · exact .absent
  · rename_i mark rest
    obtain ⟨sign, signed, whole⟩ := takeExponentSign_spells rest
    obtain ⟨wholeDigits, digits⟩ := takeDigits_spells (takeExponentSign rest).2
    dsimp only at found
    split at found
    · rename_i present
      simp only [Bool.and_eq_true, Bool.or_eq_true, beq_iff_eq, bne_iff_ne] at present
      obtain ⟨⟨marked, some⟩, ended⟩ := present
      rw [ended, List.append_nil] at wholeDigits
      rw [whole, wholeDigits]
      exact .present marked signed ⟨some, digits⟩
    · cases found

/-- A JSON number is spelled as a relaxed number is. -/
theorem spells_of_parse?_isSome {spelling : List Char} (parsed : (parse? spelling).isSome = true) :
    Kind.number.Spells spelling := by
  obtain ⟨literal, parsed⟩ := Option.isSome_iff_exists.mp parsed
  obtain ⟨sign, signed, whole⟩ := takeSign_spells spelling
  obtain ⟨wholeDigits, digits⟩ := takeDigits_spells (takeSign spelling).2
  unfold parse? at parsed
  dsimp only at parsed
  split at parsed
  · rename_i allowed
    obtain ⟨⟨fraction, behind⟩, foundFraction, parsed⟩ := Option.bind_eq_some_iff.mp parsed
    obtain ⟨exponent, foundExponent, -⟩ := Option.bind_eq_some_iff.mp parsed
    obtain ⟨fractionSpelling, wholeFraction, spelled⟩ := takeFraction_spells foundFraction
    have some : (takeDigits (takeSign spelling).2).1 ≠ [] := by
      intro none
      rw [none] at allowed
      cases allowed
    refine ⟨sign, _, fractionSpelling, behind, ?_, signed, ⟨some, digits⟩, spelled,
      readExponent_spells foundExponent⟩
    rw [← wholeFraction, ← wholeDigits, ← whole]
  · cases parsed

end Literal

namespace Lexeme

/-- The kind of chunk that a lexeme is. -/
def kind : Lexeme → Kind
  | openMap => .braceOpen
  | closeMap => .braceClose
  | openList => .bracketOpen
  | closeList => .bracketClose
  | colon => .colon
  | comma => .comma
  | text _ => .doubleQuoted
  | number _ => .number
  | null | flag _ | misspelt | stray => .word

def chunk (lexeme : Lexeme) : Chunk := ⟨lexeme.kind, lexeme.spelling⟩

/-- A lexeme spelled as chunks of its kind are. -/
def Spelled (lexeme : Lexeme) : Prop := lexeme.kind.Spells lexeme.spelling

theorem Meaningful.spelled_word {lexeme : Lexeme} (meaningful : lexeme.Meaningful)
    (word : lexeme.kind = .word) : lexeme.Spelled := by
  cases lexeme with
  | null => exact ⟨'n', ['u', 'l', 'l'], rfl, rfl, List.all_eq_true.mp rfl⟩
  | flag on =>
      cases on with
      | true => exact ⟨'t', ['r', 'u', 'e'], rfl, rfl, List.all_eq_true.mp rfl⟩
      | false => exact ⟨'f', ['a', 'l', 's', 'e'], rfl, rfl, List.all_eq_true.mp rfl⟩
  | misspelt | stray => cases meaningful
  | _ => cases word

/-! ### Cutting -/

theorem scanFrom_eq_scan_drop (passing : Nat) (text : List Char) :
    scanFrom passing text = scan (text.drop passing) := by
  induction text generalizing passing with
  | nil => cases passing <;> rfl
  | cons first rest ih =>
      cases passing with
      | zero => rfl
      | succ passing => exact ih passing

theorem scan_blank {first : Char} (blank : isBlank first = true) (rest : List Char) :
    scan (first :: rest) = scan rest := if_pos blank

theorem scan_front {first : Char} (dark : isBlank first = false) (rest : List Char) :
    scan (first :: rest) = (front first rest).1 :: scan (rest.drop (front first rest).2) := by
  rw [← scanFrom_eq_scan_drop]
  exact if_neg (by rw [dark]; decide)

theorem blank_cases {c : Char} (blank : isBlank c = true) :
    c = ' ' ∨ c = '\n' ∨ c = '\t' ∨ c = '\r' := by
  simpa only [isBlank, Bool.or_eq_true, beq_iff_eq, or_assoc] using blank

theorem scan_blanks {blanks : List Char} (blank : ∀ c ∈ blanks, isBlank c = true)
    (rest : List Char) : scan (blanks ++ rest) = scan rest := by
  induction blanks with
  | nil => rfl
  | cons c blanks ih =>
      obtain ⟨here, later⟩ := List.forall_mem_cons.mp blank
      rw [List.cons_append, scan_blank here, ih later]

/-- A text is empty, begins with a blank or with a lexeme. -/
theorem scan_induction {motive : List Char → Prop} (empty : motive [])
    (blank : ∀ (first : Char) (rest : List Char), isBlank first = true → motive rest →
      motive (first :: rest))
    (lexeme : ∀ (first : Char) (rest : List Char), isBlank first = false →
      motive (rest.drop (front first rest).2) → motive (first :: rest))
    (text : List Char) : motive text := by
  induction size : text.length using Nat.strongRecOn generalizing text with
  | ind length ih =>
      rcases text with _ | ⟨first, rest⟩
      · exact empty
      · rw [List.length_cons] at size
        cases dark : isBlank first with
        | true => exact blank first rest dark (ih rest.length (by omega) rest rfl)
        | false =>
            have shorter : (rest.drop (front first rest).2).length ≤ rest.length := by
              rw [List.length_drop]
              omega
            exact lexeme first rest dark (ih _ (by omega) _ rfl)

/-! ### The lexeme at the front -/

/-- Whether a lexeme is a mark of one character. -/
def isMark : Lexeme → Bool
  | openMap | closeMap | openList | closeList | colon | comma => true
  | _ => false

/-- Whether a number can begin with a character. -/
def startsNumber (c : Char) : Bool := c.isDigit || c == '-'

/-- All that can be cut off before the rest of a text. -/
inductive Front (first : Char) (rest : List Char) : Lexeme × Nat → Prop where
  | mark (lexeme : Lexeme) : lexeme.isMark = true → lexeme.spelling = [first] →
      startsNumber first = false → Front first rest (lexeme, 0)
  | quoted : first = '"' → Front first rest (ofQuoted rest, Text.bodyLength rest + 1)
  | number : startsNumber first = true →
      Front first rest (number (first :: rest.takeWhile isNumeric), (rest.takeWhile isNumeric).length)
  | word : startsNumber first = false → Front first rest
      (ofWord (first :: rest.takeWhile Char.isAlpha), (rest.takeWhile Char.isAlpha).length)
  | stray : startsNumber first = false → Front first rest (stray, 0)

theorem front_cases (first : Char) (rest : List Char) : Front first rest (front first rest) := by
  have mark {c : Char} (lexeme : Lexeme) (mark : lexeme.isMark = true)
      (spelled : lexeme.spelling = [c]) (other : startsNumber c = false) (same : first = c) :
      Front first rest (lexeme, 0) := by
    subst same
    exact .mark lexeme mark spelled other
  unfold front
  refine iteInduction (mark openMap rfl rfl rfl) fun _ => ?_
  refine iteInduction (mark closeMap rfl rfl rfl) fun _ => ?_
  refine iteInduction (mark openList rfl rfl rfl) fun _ => ?_
  refine iteInduction (mark closeList rfl rfl rfl) fun _ => ?_
  refine iteInduction (mark colon rfl rfl rfl) fun _ => ?_
  refine iteInduction (mark comma rfl rfl rfl) fun _ => ?_
  refine iteInduction .quoted fun _ => ?_
  refine iteInduction .number fun digit => ?_
  have other := Bool.eq_false_iff.mpr digit
  exact iteInduction (fun _ => .word other) fun _ => .stray other

theorem front_number {first : Char} (starts : startsNumber first = true) (rest : List Char) :
    front first rest =
      (number (first :: rest.takeWhile isNumeric), (rest.takeWhile isNumeric).length) := by
  have found := front_cases first rest
  generalize front first rest = cut at found ⊢
  cases found with
  | mark _ _ _ other | word other | stray other =>
      rw [starts] at other
      cases other
  | quoted quote =>
      subst quote
      cases starts
  | number => rfl

/-- A quoted text that can be read stands in its quotes at the front. -/
theorem quoted_front {rest : List Char} (meaningful : (ofQuoted rest).Meaningful) :
    (ofQuoted rest).Spelled ∧
      '"' :: rest = (ofQuoted rest).spelling ++ rest.drop (Text.bodyLength rest + 1) := by
  obtain ⟨content, read⟩ := meaningful
  obtain ⟨room, chars, joined, -⟩ := Text.read_eq_ok_iff.mp read
  rcases Text.bodyLength_stops rest with ended | ⟨behind, quote⟩
  · refine absurd ?_ room
    dsimp only
    rw [ended]
    rfl
  · have whole : rest.take (Text.bodyLength rest) ++ '"' :: behind = rest := by
      rw [← quote]
      exact List.take_append_drop _ _
    have size : (rest.take (Text.bodyLength rest)).length = Text.bodyLength rest := by
      have inside := congrArg List.length quote
      rw [List.length_drop, List.length_cons] at inside
      rw [List.length_take]
      omega
    have closed : Text.bodyLength (rest.take (Text.bodyLength rest) ++ '"' :: behind) =
        (rest.take (Text.bodyLength rest)).length := by
      rw [whole, size]
    refine ⟨⟨_, rfl, Text.quotedBody_of_stop?_eq_none closed (Text.stop?_eq_none_of_join joined)⟩, ?_⟩
    have after : rest.drop (Text.bodyLength rest + 1) = behind := by
      rw [← List.tail_drop, quote, List.tail_cons]
    rw [after, ofQuoted, spelling, List.cons_append, List.append_assoc]
    exact congrArg ('"' :: ·) whole.symm

/-- A word that means something is spelled out at the front. -/
theorem word_front {word : List Char} (meaningful : (ofWord word).Meaningful) :
    (ofWord word).Spelled ∧ word = (ofWord word).spelling := by
  revert meaningful
  unfold ofWord
  split_ifs with named on off
  · exact fun meaningful => ⟨meaningful.spelled_word rfl, named⟩
  · exact fun meaningful => ⟨meaningful.spelled_word rfl, on⟩
  · exact fun meaningful => ⟨meaningful.spelled_word rfl, off⟩
  · exact False.elim

/-- A lexeme of a value is spelled out at the front, and the scan goes on behind it. -/
theorem front_spells {first : Char} {rest : List Char}
    (meaningful : (front first rest).1.Meaningful) : (front first rest).1.Spelled ∧
      first :: rest = (front first rest).1.spelling ++ rest.drop (front first rest).2 := by
  have taken (p : Char → Bool) : first :: rest =
      first :: rest.takeWhile p ++ rest.drop (rest.takeWhile p).length :=
    congrArg (first :: ·) (List.prefix_iff_eq_append.mp (List.takeWhile_prefix p)).symm
  have found := front_cases first rest
  generalize front first rest = cut at found meaningful ⊢
  cases found with
  | mark lexeme mark spelled =>
      refine ⟨?_, congrArg (· ++ rest) spelled.symm⟩
      cases lexeme <;> first
        | rfl
        | cases mark
  | quoted quote =>
      subst quote
      exact quoted_front meaningful
  | number => exact ⟨Literal.spells_of_parse?_isSome meaningful, taken isNumeric⟩
  | word =>
      obtain ⟨spelled, same⟩ := word_front meaningful
      exact ⟨spelled, same ▸ taken Char.isAlpha⟩
  | stray => cases meaningful

/-! ### Both scans -/

/-- A text of lexemes of values is those, spelled out, and blanks. -/
theorem spaced_scan {text : List Char} (meaningful : ∀ lexeme ∈ scan text, lexeme.Meaningful) :
    Spaced ((scan text).map spelling) text ∧ ∀ lexeme ∈ scan text, lexeme.Spelled := by
  induction text using scan_induction with
  | empty => exact ⟨.done (by simp), fun lexeme member => absurd member List.not_mem_nil⟩
  | blank first rest blank ih =>
      rw [scan_blank blank] at meaningful ⊢
      obtain ⟨spaced, spelled⟩ := ih meaningful
      exact ⟨spaced.cons blank, spelled⟩
  | lexeme first rest dark ih =>
      rw [scan_front dark] at meaningful ⊢
      obtain ⟨here, later⟩ := List.forall_mem_cons.mp meaningful
      obtain ⟨spaced, spelledBehind⟩ := ih later
      obtain ⟨spelled, whole⟩ := front_spells here
      refine ⟨?_, List.forall_mem_cons.mpr ⟨spelled, spelledBehind⟩⟩
      have none : ∀ c ∈ ([] : List Char), isBlank c = true := fun c member => by cases member
      rw [List.map_cons, whole]
      exact .more none spaced

/-- A value can end only before one of three marks. -/
theorem front_ends {first : Char} {rest : List Char} (ends : (front first rest).1.ends = true) :
    first = '}' ∨ first = ']' ∨ first = ',' := by
  have word (spelling : List Char) : (ofWord spelling).ends = false := by
    unfold ofWord
    split_ifs <;> rfl
  have found := front_cases first rest
  generalize front first rest = cut at found ends
  cases found with
  | mark lexeme _ spelled =>
      cases lexeme with
      | closeMap => exact Or.inl (List.cons.inj spelled).1.symm
      | closeList => exact Or.inr (Or.inl (List.cons.inj spelled).1.symm)
      | comma => exact Or.inr (Or.inr (List.cons.inj spelled).1.symm)
      | _ => cases ends
  | word =>
      rw [word] at ends
      cases ends
  | quoted | number | stray => cases ends

/-- No token reaches into a text before which a value can end. -/
theorem apart_of_begins {text : List Char} (ended : Begins ends (scan text)) : Apart text := by
  rcases text with _ | ⟨first, rest⟩
  · exact fun c next => by cases next
  · intro c next
    cases next
    cases dark : isBlank first with
    | true =>
        rcases blank_cases dark with rfl | rfl | rfl | rfl <;> decide
    | false =>
        rw [scan_front dark] at ended
        rcases front_ends (ended _ rfl) with rfl | rfl | rfl <;> decide

/-- Lexemes that do not show their end are those that stand only where a value can end. -/
theorem Before.begins {lexeme : Lexeme} {rest : List Lexeme} (before : lexeme.Before rest)
    (meaningful : lexeme.Meaningful) (opened : lexeme.kind.endsItself = false) : Begins ends rest := by
  cases lexeme with
  | number _ | null | flag _ => exact before
  | misspelt | stray => cases meaningful
  | _ => cases opened

theorem kind_isGap (lexeme : Lexeme) : lexeme.kind.isGap = false := by cases lexeme <;> rfl

/-- The tokens of a text with lexemes in order are its lexemes. -/
theorem tokens_scan {text : List Char} (orderly : Orderly (scan text)) :
    (Relaxed.scan text).tokens = (scan text).map chunk ∧ (Relaxed.scan text).rest = [] := by
  induction text using scan_induction with
  | empty => exact ⟨rfl, rfl⟩
  | blank first rest blank ih =>
      rw [scan_blank blank] at orderly ⊢
      have gap : ∀ c ∈ [first], Relaxed.isBlank c = true := by
        rw [List.forall_mem_singleton]
        rcases blank_cases blank with rfl | rfl | rfl | rfl <;> decide
      obtain ⟨sameTokens, sameRest⟩ := Relaxed.sameTokens_blanks gap rest
      rw [List.singleton_append] at sameTokens sameRest
      rw [sameTokens, sameRest]
      exact ih orderly
  | lexeme first rest dark ih =>
      rw [scan_front dark] at orderly ⊢
      rcases orderly with _ | ⟨meaningful, before, orderly⟩
      obtain ⟨spelled, whole⟩ := front_spells meaningful
      obtain ⟨tokensBehind, restBehind⟩ := ih orderly
      have cut : (front first rest).1.kind.Cuts (front first rest).1.spelling
          ((front first rest).1.spelling ++ rest.drop (front first rest).2) := by
        cases closed : (front first rest).1.kind.endsItself with
        | true => exact spelled.cuts_endsItself closed _
        | false =>
            have apart := apart_of_begins (before.begins meaningful closed)
            exact spelled.cuts_open (kind_isGap _) closed apart
      obtain ⟨tokensHere, restHere⟩ := Relaxed.tokens_of_cuts (kind_isGap _) cut
      rw [← whole] at tokensHere restHere
      exact ⟨by rw [tokensHere, tokensBehind]; rfl, restHere.trans restBehind⟩

/-! ### Lexemes spelled again -/

/-- A text that is empty or begins with a blank. -/
def Aside (text : List Char) : Prop := ∀ c, text.head? = some c → isBlank c = true

/-- A lexeme made of a first character and all of a class behind it ends before a blank, if the
class has no blanks. -/
theorem scan_run {p : Char → Bool} {make : List Char → Lexeme} {first : Char}
    {more behind : List Char} (dark : isBlank first = false)
    (cuts : ∀ rest, front first rest =
      (make (first :: rest.takeWhile p), (rest.takeWhile p).length))
    (blankless : ∀ c, isBlank c = true → p c = false) (inside : ∀ c ∈ more, p c = true)
    (aside : Aside behind) :
    scan (first :: (more ++ behind)) = make (first :: more) :: scan behind := by
  have stops : behind.takeWhile p = [] := by
    rcases behind with _ | ⟨c, behind⟩
    · rfl
    · exact List.takeWhile_cons_of_neg (by rw [blankless c (aside c rfl)]; decide)
  have taken : (more ++ behind).takeWhile p = more := by
    rw [List.takeWhile_append_of_pos inside, stops, List.append_nil]
  rw [scan_front dark, cuts, taken, List.drop_left]

theorem scan_word {first : Char} {more behind : List Char} (dark : isBlank first = false)
    (cuts : ∀ rest, front first rest =
      (ofWord (first :: rest.takeWhile Char.isAlpha), (rest.takeWhile Char.isAlpha).length))
    (letters : ∀ c ∈ more, c.isAlpha = true) (aside : Aside behind) :
    scan (first :: (more ++ behind)) = ofWord (first :: more) :: scan behind := by
  refine scan_run dark cuts ?_ letters aside
  intro c blank
  rcases blank_cases blank with rfl | rfl | rfl | rfl <;> decide

theorem scan_number {spelling behind : List Char} (spelled : Kind.number.Spells spelling)
    (aside : Aside behind) : scan (spelling ++ behind) = number spelling :: scan behind := by
  have numeric := spelled.numeric
  obtain ⟨first, more, rfl, starts⟩ : ∃ first more, spelling = first :: more ∧
      startsNumber first = true := by
    obtain ⟨sign, whole, fraction, exponent, rfl, signed, digits, -⟩ := spelled
    obtain ⟨first, more, rfl, digit⟩ := digits.exists_cons
    simp only [List.mem_cons, List.not_mem_nil, or_false] at signed
    rcases signed with rfl | rfl
    · exact ⟨first, _, rfl, by rw [startsNumber, digit]; rfl⟩
    · exact ⟨'-', _, rfl, by decide⟩
  have blankless : ∀ c, isBlank c = true → isNumeric c = false := by
    intro c blank
    rcases blank_cases blank with rfl | rfl | rfl | rfl <;> decide
  have dark : isBlank first = false := by
    cases blank : isBlank first with
    | false => rfl
    | true =>
        have inside := numeric first List.mem_cons_self
        rw [blankless first blank] at inside
        cases inside
  exact scan_run dark (front_number starts) blankless (List.forall_mem_cons.mp numeric).2 aside

theorem scan_quoted {quoted : Text} (closed : quoted.room ≠ 0)
    (spelled : (text quoted).Spelled) (behind : List Char) :
    ∃ again, scan ((text quoted).spelling ++ behind) = text again :: scan behind ∧
      again.settle = quoted.settle := by
  obtain ⟨body, whole, inside⟩ := spelled
  have same : quoted.body = body := List.append_cancel_right (List.cons.inj whole).2
  have measured := Text.bodyLength_append inside behind
  have cut : front '"' (body ++ '"' :: behind) =
      (text ⟨body, ((('"' :: behind).take 4).map Char.utf8Size).sum⟩, body.length + 1) := by
    change (ofQuoted _, _) = _
    rw [ofQuoted, measured, List.take_left, List.drop_left]
  refine ⟨⟨body, ((('"' :: behind).take 4).map Char.utf8Size).sum⟩, ?_, ?_⟩
  · have split : (text quoted).spelling ++ behind = '"' :: (body ++ '"' :: behind) := by
      rw [spelling, same, List.cons_append, List.append_assoc]
      rfl
    rw [split, scan_front rfl, cut]
    dsimp only
    rw [List.drop_length_add_append]
    rfl
  · have room : 1 ≤ ((('"' :: behind).take 4).map Char.utf8Size).sum := by
      rw [List.take_succ_cons, List.map_cons, List.sum_cons]
      exact Nat.le_add_right 1 _
    rw [Text.settle, Text.settle, same, Nat.min_eq_right room,
      Nat.min_eq_right (Nat.one_le_iff_ne_zero.mpr closed)]

/-- A lexeme that is spelled out before a blank is cut off again. -/
theorem scan_spelling {lexeme : Lexeme} (meaningful : lexeme.Meaningful)
    (spelled : lexeme.Spelled) {behind : List Char} (aside : Aside behind) :
    ∃ again, scan (lexeme.spelling ++ behind) = again :: scan behind ∧
      again.mapText Text.settle = lexeme.mapText Text.settle := by
  cases lexeme with
  | openMap | closeMap | openList | closeList | colon | comma =>
      exact ⟨_, scan_front rfl behind, rfl⟩
  | text quoted =>
      obtain ⟨content, read⟩ := meaningful
      obtain ⟨again, cut, same⟩ := scan_quoted (Text.read_eq_ok_iff.mp read).1 spelled behind
      exact ⟨_, cut, congrArg text same⟩
  | number spelling => exact ⟨_, scan_number spelled aside, rfl⟩
  | null => exact ⟨_, scan_word rfl (fun _ => rfl) (List.all_eq_true.mp rfl) aside, rfl⟩
  | flag on =>
      cases on with
      | true => exact ⟨_, scan_word rfl (fun _ => rfl) (List.all_eq_true.mp rfl) aside, rfl⟩
      | false => exact ⟨_, scan_word rfl (fun _ => rfl) (List.all_eq_true.mp rfl) aside, rfl⟩
  | misspelt | stray => cases meaningful

end Lexeme

end ControlStore.Json
