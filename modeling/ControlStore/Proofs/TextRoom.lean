import ControlStore.Proofs.Matched
import ControlStore.Proofs.QuotedText

set_option autoImplicit false

/-!
What stands behind a quoted text. It matters in one place only: a code unit whose digits are wrong
is told as the end of the whole text if fewer than four bytes follow its escape.
-/
namespace ControlStore.Json.Text

/-! ### Pieces -/

variable {told : Fault → Fault → Prop} {room other : Nat} {body : List Char}

/-- Pieces that are the same but for the fault of the last, where no more could be cut. -/
inductive LikePieces (told : Fault → Fault → Prop) : List Piece → List Piece → Prop where
  | nil : LikePieces told [] []
  | cons (piece : Piece) {first second : List Piece} : LikePieces told first second →
      LikePieces told (piece :: first) (piece :: second)
  | stop {fault fault' : Fault} (inUnit : Bool) : told fault fault' →
      LikePieces told [.stop fault inUnit] [.stop fault' inUnit]

theorem unitFault_four (room : Nat) (a b c d : Char) (rest : List Char) :
    unitFault room (a :: b :: c :: d :: rest) = unitFault room [a, b, c, d] := rfl

/-- The same body is cut into like pieces before any two texts if the faults of its escapes are
alike. -/
theorem pieces_like
    (escapes : ∀ front back, body = front ++ '\\' :: 'u' :: back →
      told (unitFault room back) (unitFault other back)) :
    LikePieces told (pieces room body) (pieces other body) := by
  fun_induction pieces room body with
  | case1 => exact .nil
  | case2 a b c d rest code read ih =>
      rw [pieces, read]
      refine .cons _ (ih fun front back split => ?_)
      exact escapes ('\\' :: 'u' :: a :: b :: c :: d :: front) back (by rw [split]; rfl)
  | case3 a b c d rest read =>
      rw [pieces, read]
      have here := escapes [] _ rfl
      rw [unitFault_four, unitFault_four] at here
      exact .stop true here
  | case4 rest short =>
      rw [pieces.eq_3 _ _ short]
      exact .stop true (escapes [] _ rfl)
  | case5 c rest whole noUnit meant short ih =>
      rw [pieces.eq_4 _ _ _ whole noUnit, short]
      refine .cons _ (ih fun front back split => ?_)
      exact escapes ('\\' :: c :: front) back (by rw [split]; rfl)
  | case6 c rest whole noUnit short =>
      rw [pieces.eq_4 _ _ _ whole noUnit, short]
      exact .cons _ .nil
  | case7 =>
      rw [pieces]
      exact .cons _ .nil
  | case8 c rest whole noUnit noPair noEnd control =>
      rw [pieces.eq_6 _ _ _ whole noUnit noPair noEnd, if_pos control]
      exact .cons _ .nil
  | case9 c rest whole noUnit noPair noEnd printable ih =>
      rw [pieces.eq_6 _ _ _ whole noUnit noPair noEnd, if_neg printable]
      refine .cons _ (ih fun front back split => ?_)
      exact escapes (c :: front) back (by rw [split]; rfl)

theorem LikePieces.noUnit {first second : List Piece} (like : LikePieces told first second)
    (noUnit : ∀ next rest, first = .unit next :: rest → False) :
    ∀ next rest, second = .unit next :: rest → False := by
  rintro next rest rfl
  rcases like with _ | ⟨_, behind⟩
  exact noUnit next _ rfl

/-- The fault of a leading surrogate before pieces that do not begin with a code unit. -/
def openFault : List Piece → Fault
  | .stop fault true :: _ => fault
  | _ => .openSurrogate

theorem LikePieces.openFault {first second : List Piece} (alike : ∀ fault, told fault fault)
    (like : LikePieces told first second) :
    told (Text.openFault first) (Text.openFault second) := by
  cases like with
  | nil => exact alike _
  | cons piece behind =>
      rcases piece with c | code | ⟨fault, _ | _⟩
      · exact alike _
      · exact alike _
      · exact alike _
      · exact alike fault
  | stop inUnit same =>
      cases inUnit with
      | false => exact alike _
      | true => exact same

theorem join_unit {code : Nat} {rest : List Piece}
    (last : ∀ next more, rest = .unit next :: more → False) :
    join (.unit code :: rest) =
      if isTrailing code then .error .loneSurrogate
      else if isLeading code then .error (openFault rest)
      else (Char.ofNat code :: ·) <$> join rest := by
  rcases rest with _ | ⟨c | next | ⟨fault, _ | _⟩, more⟩
  · rfl
  · rfl
  · exact absurd rfl (last next more)
  · rfl
  · rfl

theorem join_like {first second : List Piece} (alike : ∀ fault, told fault fault)
    (like : LikePieces told first second) :
    Matched told Eq (join first) (join second) := by
  have prepend {first second : Except Fault (List Char)} (c : Char)
      (matched : Matched told Eq first second) :
      Matched told Eq ((c :: ·) <$> first) ((c :: ·) <$> second) :=
    matched.map fun _ _ same => congrArg (c :: ·) same
  fun_induction join first generalizing second with
  | case1 =>
      cases like
      exact rfl
  | case2 c rest ih =>
      rcases like with _ | ⟨_, behind⟩
      exact prepend c (ih behind)
  | case3 fault inUnit rest =>
      rcases like with _ | _ | ⟨_, told⟩
      · exact alike fault
      · exact told
  | case4 code next rest trailing =>
      rcases like with _ | ⟨_, _ | ⟨_, behind⟩⟩
      rw [join, if_pos trailing]
      exact alike _
  | case5 code next rest lone leading trailing ih =>
      rcases like with _ | ⟨_, _ | ⟨_, behind⟩⟩
      rw [join, if_neg lone, if_pos leading, if_pos trailing]
      exact prepend _ (ih behind)
  | case6 code next rest lone leading single =>
      rcases like with _ | ⟨_, _ | ⟨_, behind⟩⟩
      rw [join, if_neg lone, if_pos leading, if_neg single]
      exact alike _
  | case7 code next rest lone plain ih =>
      rcases like with _ | ⟨_, _ | ⟨_, behind⟩⟩
      rw [join, if_neg lone, if_neg plain]
      exact prepend _ (ih (.cons _ behind))
  | case8 code rest last trailing =>
      rcases like with _ | ⟨_, behind⟩
      rw [join_unit (behind.noUnit last), if_pos trailing]
      exact alike _
  | case9 code lone leading fault rest last =>
      rcases like with _ | ⟨_, behind⟩
      rw [join_unit (behind.noUnit last), if_neg lone, if_pos leading]
      exact behind.openFault alike
  | case10 code rest last lone leading noStop =>
      rcases like with _ | ⟨_, behind⟩
      rw [join_unit (behind.noUnit last), if_neg lone, if_pos leading]
      exact openFault.eq_2 rest noStop ▸ behind.openFault alike
  | case11 code rest last lone plain ih =>
      rcases like with _ | ⟨_, behind⟩
      rw [join_unit (behind.noUnit last), if_neg lone, if_neg plain]
      exact prepend _ (ih behind)

theorem stop?_like {first second : List Piece} (alike : ∀ fault, told fault fault)
    (like : LikePieces told first second) : Option.Rel told (stop? first) (stop? second) := by
  induction like with
  | nil => exact .none
  | cons piece behind ih =>
      cases piece with
      | stop fault inUnit => exact .some (alike fault)
      | char | unit => exact ih
  | stop inUnit same => exact .some same

/-! ### Texts -/

/-- A text as it would be before enough bytes for every escape; one that is not closed stays so. -/
def spread (text : Text) : Text := { text with room := 4 * min text.room 1 }

theorem spread_settle (text : Text) : text.settle.spread = text.spread := by
  simp only [spread, settle, Nat.min_assoc, Nat.min_self]

/-- Whether a text is closed does not change. -/
theorem spread_room_eq_zero_iff (text : Text) : text.spread.room = 0 ↔ text.room = 0 := by
  change 4 * min text.room 1 = 0 ↔ _
  omega

/-- The faults that the escapes of a text can have stay alike when it is spread. -/
def EscapesAlike (told : Fault → Fault → Prop) (text : Text) : Prop :=
  ∀ front back, text.body = front ++ '\\' :: 'u' :: back →
    told (unitFault text.room back) (unitFault text.spread.room back)

theorem read_spread (alike : ∀ fault, told fault fault) {text : Text}
    (escapes : text.EscapesAlike told) : Matched told Eq text.read text.spread.read := by
  refine (join_like alike (pieces_like escapes)).bind fun chars chars' same => ?_
  subst same
  by_cases unclosed : text.room = 0
  · rw [if_pos unclosed, if_pos (text.spread_room_eq_zero_iff.mpr unclosed)]
    exact alike _
  · rw [if_neg unclosed, if_neg (mt text.spread_room_eq_zero_iff.mp unclosed)]
    exact rfl

theorem skip_spread (alike : ∀ fault, told fault fault) {text : Text}
    (escapes : text.EscapesAlike told) : Option.Rel told text.skip text.spread.skip := by
  have stopped : Option.Rel told (stop? (pieces text.room text.body))
      (stop? (pieces text.spread.room text.spread.body)) :=
    stop?_like alike (pieces_like escapes)
  simp only [skip, text.spread_room_eq_zero_iff]
  generalize stop? (pieces text.room text.body) = first at stopped ⊢
  generalize stop? (pieces text.spread.room text.spread.body) = second at stopped ⊢
  rcases stopped with same | _
  · exact .some same
  · split
    · exact .some (alike _)
    · exact .none

end ControlStore.Json.Text
