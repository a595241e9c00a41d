import ControlStore.Json.Lexeme
import ControlStore.Proofs.ChunkLength

set_option autoImplicit false

/-!
The longest match. Kinds that can begin at the same place are two kinds of comments or two kinds of
numbers, and no text is spelled by two kinds; so the longest chunk at a place is the longest front
of the text that any kind spells. Tokens with a closing mark are cut off there before any text, all
others before a character that they cannot hold.
-/
namespace ControlStore.Relaxed

open Json.Lexeme (isNumeric)

/-! ### First characters -/

/-- The kind that a first character announces. Comments share theirs, and so do the numbers. -/
def Kind.ofHead (c : Char) : Kind :=
  if isWordStart c then word
  else if c.isDigit then number
  else match c with
    | '/' => blockComment
    | '{' => braceOpen
    | '}' => braceClose
    | '[' => bracketOpen
    | ']' => bracketClose
    | ':' => colon
    | ',' => comma
    | '"' => doubleQuoted
    | '\x27' => singleQuoted
    | '-' => number
    | _ => blanks

/-- The kind that is announced in place of a kind. -/
def Kind.family : Kind → Kind
  | lineComment => blockComment
  | hex => number
  | kind => kind

/-- Letters by their code points. -/
theorem isAlpha_eq (c : Char) : c.isAlpha =
    (decide (c.val ≥ 'A'.val ∧ c.val ≤ 'Z'.val) ||
      (decide (c.val ≥ 'a'.val) && decide (c.val ≤ 'z'.val))) := rfl

theorem isWordStart_of_isDigit {c : Char} (digit : c.isDigit = true) : isWordStart c = false := by
  have noLine : c ≠ '_' := fun line => absurd (line ▸ digit) (by decide)
  simp only [Char.isDigit, isWordStart, isAlpha_eq] at *
  grind

/-- The first character of a chunk announces its family. -/
theorem Kind.Spells.ofHead_eq {kind : Kind} {c : Char} {rest : List Char}
    (spelled : kind.Spells (c :: rest)) : ofHead c = kind.family := by
  cases kind with
  | blanks =>
      have blank := spelled.2 c List.mem_cons_self
      simp only [isBlank, Bool.or_eq_true, beq_iff_eq] at blank
      rcases blank with (((rfl | rfl) | rfl) | rfl) | rfl <;> decide
  | braceOpen | braceClose | bracketOpen | bracketClose | colon | comma =>
      cases (show c :: rest = [_] from spelled)
      decide
  | lineComment | blockComment | doubleQuoted | singleQuoted =>
      obtain ⟨body, text, -⟩ := spelled
      cases text
      decide
  | hex =>
      obtain ⟨mark, digits, text, -⟩ := spelled
      cases text
      decide
  | number =>
      obtain ⟨sign, whole, fraction, exponent, text, signed, digits, -⟩ := spelled
      obtain ⟨first, more, rfl, digit⟩ := digits.exists_cons
      simp only [List.mem_cons, List.not_mem_nil, or_false] at signed
      rcases signed with rfl | rfl
      · cases text
        unfold ofHead
        rw [if_neg (by rw [isWordStart_of_isDigit digit]; decide), if_pos digit]
        rfl
      · cases text
        decide
  | word =>
      obtain ⟨first, more, text, starts, -⟩ := spelled
      cases text
      unfold ofHead
      rw [if_pos starts]
      rfl

/-- Texts of two kinds that begin alike are of one family. -/
theorem Kind.Spells.family_eq {first second : Kind} {short long text : List Char}
    (spelledShort : first.Spells short) (spelledLong : second.Spells long)
    (shortFront : short <+: text) (longFront : long <+: text) : first.family = second.family := by
  obtain ⟨c, shortRest, rfl⟩ := List.exists_cons_of_length_pos spelledShort.length_pos
  obtain ⟨d, longRest, rfl⟩ := List.exists_cons_of_length_pos spelledLong.length_pos
  obtain ⟨behind, rfl⟩ := shortFront
  obtain ⟨behindLong, whole⟩ := longFront
  obtain ⟨rfl, -⟩ := List.cons.inj whole
  rw [← spelledShort.ofHead_eq, ← spelledLong.ofHead_eq]

/-- The characters that occur in chunks which do not show their end. -/
def isInner (c : Char) : Bool := isWordRest c || c == '.' || c == '+' || c == '-'

theorem isInner_of_isNumeric {c : Char} (numeric : isNumeric c = true) : isInner c = true := by
  simp only [isNumeric, isInner, isWordRest, Bool.or_eq_true, beq_iff_eq] at *
  rcases numeric with ((((digit | rfl) | rfl) | rfl) | rfl) | rfl
  · exact Or.inl (Or.inl (Or.inl (Or.inr digit)))
  all_goals decide

theorem isInner_of_isHexDigit {c : Char} (digit : isHexDigit c = true) : isInner c = true := by
  unfold isHexDigit Hex.digitValue? Char.toNat at digit
  simp only [isInner, isWordRest, isWordStart, isAlpha_eq, Char.isDigit, Bool.or_eq_true,
    Bool.and_eq_true, decide_eq_true_eq, UInt32.le_iff_toNat_le, ge_iff_le]
  grind

theorem Run.numeric {text : List Char} (digits : Run Char.isDigit text) :
    ∀ c ∈ text, isNumeric c = true := by
  intro c member
  rw [isNumeric, digits.2 c member]
  rfl

theorem Fraction.numeric {text : List Char} (spelled : Fraction text) :
    ∀ c ∈ text, isNumeric c = true := by
  cases spelled with
  | absent => exact fun c member => absurd member List.not_mem_nil
  | present digits => exact List.forall_mem_cons.mpr ⟨by decide, digits.numeric⟩

theorem Exponent.numeric {text : List Char} (spelled : Exponent text) :
    ∀ c ∈ text, isNumeric c = true := by
  cases spelled with
  | absent => exact fun c member => absurd member List.not_mem_nil
  | present marked signed digits =>
      refine List.forall_mem_cons.mpr ⟨?_, List.forall_mem_append.mpr ⟨?_, digits.numeric⟩⟩
      · rcases marked with rfl | rfl <;> decide
      · simp only [List.mem_cons, List.not_mem_nil, or_false] at signed
        rcases signed with rfl | rfl | rfl <;> exact List.all_eq_true.mp rfl

theorem Kind.Spells.numeric {text : List Char} (spelled : number.Spells text) :
    ∀ c ∈ text, isNumeric c = true := by
  obtain ⟨sign, whole, fraction, exponent, rfl, signed, digits, hasFraction, hasExponent⟩ := spelled
  have signNumeric : ∀ c ∈ sign, isNumeric c = true := by
    simp only [List.mem_cons, List.not_mem_nil, or_false] at signed
    rcases signed with rfl | rfl <;> exact List.all_eq_true.mp rfl
  simp only [List.forall_mem_append]
  exact ⟨signNumeric, digits.numeric, hasFraction.numeric, hasExponent.numeric⟩

theorem Kind.Spells.inner {kind : Kind} {front : List Char} (spelled : kind.Spells front)
    (token : kind.isGap = false) (opened : kind.endsItself = false) :
    ∀ c ∈ front, isInner c = true := by
  cases kind with
  | hex =>
      obtain ⟨mark, digits, rfl, marked, spelled⟩ := spelled
      refine List.forall_mem_cons.mpr ⟨by decide, List.forall_mem_cons.mpr ⟨?_, ?_⟩⟩
      · rcases marked with rfl | rfl <;> decide
      · exact fun c member => isInner_of_isHexDigit (spelled.2 c member)
  | number => exact fun c member => isInner_of_isNumeric (spelled.numeric c member)
  | word =>
      obtain ⟨first, more, rfl, starts, inside⟩ := spelled
      refine List.forall_mem_cons.mpr ⟨by simp [isInner, isWordRest, starts], ?_⟩
      intro c member
      rw [isInner, inside c member]
      rfl
  | blanks | lineComment => cases token
  | blockComment | braceOpen | braceClose | bracketOpen | bracketClose | colon | comma
  | doubleQuoted | singleQuoted => cases opened

/-! ### The longest chunk -/

/-- A kind spells the front of a text, and no kind spells more of it. -/
structure Kind.Cuts (kind : Kind) (front text : List Char) : Prop where
  starts : front <+: text
  spells : kind.Spells front
  longest : ∀ (other : Kind) (candidate : List Char),
    candidate <+: text → other.Spells candidate → candidate.length ≤ front.length

/-- A number that a hexadecimal mark follows is the zero before the mark. -/
theorem length?_number_of_hex {text : List Char} (spelled : Kind.hex.Spells text) :
    Kind.number.length? text = some 1 := by
  obtain ⟨mark, digits, rfl, marked, -⟩ := spelled
  rcases marked with rfl | rfl <;> rfl

theorem Kind.Spells.not_number_of_hex {text : List Char} (spelled : hex.Spells text) :
    ¬ number.Spells text := by
  intro spelledNumber
  obtain ⟨n, read, enough⟩ := spelledNumber.length?_append []
  rw [List.append_nil, length?_number_of_hex spelled, Option.some.injEq] at read
  obtain ⟨mark, digits, rfl, -⟩ := spelled
  simp only [List.length_cons] at enough
  omega

theorem Kind.Spells.not_block_of_line {text : List Char} (spelled : lineComment.Spells text) :
    ¬ blockComment.Spells text := by
  rintro ⟨body, rfl, -⟩
  obtain ⟨other, text, -⟩ := spelled
  cases text

/-- No text is spelled by two kinds. -/
theorem Kind.Spells.kind_eq {first second : Kind} {text : List Char}
    (spelledFirst : first.Spells text) (spelledSecond : second.Spells text) : first = second := by
  have family := spelledFirst.family_eq spelledSecond (List.prefix_refl text) (List.prefix_refl text)
  cases first <;> cases second <;> first
    | rfl
    | exact absurd family (by decide)
    | exact absurd spelledSecond spelledFirst.not_block_of_line
    | exact absurd spelledFirst spelledSecond.not_block_of_line
    | exact absurd spelledSecond spelledFirst.not_number_of_hex
    | exact absurd spelledFirst spelledSecond.not_number_of_hex

/-- The length of a match, counted from one; no match has length zero. -/
private def extent (found : Option (Kind × Nat)) : Nat := found.elim 0 (·.2 + 1)

private theorem longer_eq (first second : Option (Kind × Nat)) :
    longer first second = first ∨ longer first second = second := by
  unfold longer
  split
  · exact Or.inr rfl
  · exact Or.inl rfl
  · split
    · exact Or.inr rfl
    · exact Or.inl rfl

private theorem extent_longer (first second : Option (Kind × Nat)) :
    extent first ≤ extent (longer first second) ∧
      extent second ≤ extent (longer first second) := by
  unfold longer
  split
  · exact ⟨Nat.zero_le _, Nat.le_refl _⟩
  · exact ⟨Nat.le_refl _, Nat.zero_le _⟩
  · split <;> simp only [extent, Option.elim_some] <;> omega

/-- Keeping the longer of two matches ends with one of all candidates, and none is longer. -/
private theorem foldl_longer (candidate : Kind → Option (Kind × Nat)) (kinds : List Kind)
    (best : Option (Kind × Nat)) :
    let final := kinds.foldl (fun best kind => longer best (candidate kind)) best
    (final = best ∨ ∃ kind ∈ kinds, final = candidate kind) ∧
      extent best ≤ extent final ∧ ∀ kind ∈ kinds, extent (candidate kind) ≤ extent final := by
  induction kinds generalizing best with
  | nil => exact ⟨Or.inl rfl, Nat.le_refl _, fun _ member => absurd member List.not_mem_nil⟩
  | cons kind rest ih =>
      obtain ⟨origin, grows, covers⟩ := ih (longer best (candidate kind))
      obtain ⟨coversBest, coversKind⟩ := extent_longer best (candidate kind)
      refine ⟨?_, Nat.le_trans coversBest grows, ?_⟩
      · rcases origin with kept | ⟨later, member, taken⟩
        · rcases longer_eq best (candidate kind) with old | new
          · exact Or.inl (kept.trans old)
          · exact Or.inr ⟨kind, List.mem_cons_self, kept.trans new⟩
        · exact Or.inr ⟨later, List.mem_cons_of_mem _ member, taken⟩
      · intro other member
        rcases List.mem_cons.mp member with rfl | later
        · exact Nat.le_trans coversKind grows
        · exact covers other later

theorem Kind.mem_all (kind : Kind) : kind ∈ all := by cases kind <;> decide

/-- The longest chunk at the front when the kinds are tried in some order. -/
def longestIn? (order : List Kind) (text : List Char) : Option (Kind × Nat) :=
  order.foldl (fun best kind => longer best ((kind.length? text).map (kind, ·))) none

section Order

variable {order : List Kind} {text : List Char} {kind other : Kind} {n m : Nat}

/-- Whatever a kind matches is no longer than the longest chunk. -/
theorem le_of_longestIn? (found : longestIn? order text = some (kind, n)) (tried : other ∈ order)
    (matched : other.length? text = some m) : m ≤ n := by
  obtain ⟨-, -, covers⟩ := foldl_longer (fun kind => (kind.length? text).map (kind, ·)) order none
  have bound := covers other tried
  change _ ≤ extent (longestIn? order text) at bound
  rw [found, matched] at bound
  exact Nat.le_of_succ_le_succ bound

theorem length?_of_longestIn? (found : longestIn? order text = some (kind, n)) :
    kind.length? text = some n := by
  obtain ⟨origin, -, -⟩ := foldl_longer (fun kind => (kind.length? text).map (kind, ·)) order none
  change longestIn? order text = none ∨ ∃ kind ∈ order, longestIn? order text = _ at origin
  rw [found] at origin
  rcases origin with nothing | ⟨source, -, taken⟩
  · cases nothing
  · obtain ⟨length, matched, same⟩ := Option.map_eq_some_iff.mp taken.symm
    cases same
    exact matched

theorem longestIn?_isSome (tried : kind ∈ order) (matched : kind.length? text = some n) :
    ∃ found, longestIn? order text = some found := by
  obtain ⟨-, -, covers⟩ := foldl_longer (fun kind => (kind.length? text).map (kind, ·)) order none
  have bound := covers kind tried
  change _ ≤ extent (longestIn? order text) at bound
  cases found : longestIn? order text with
  | some pair => exact ⟨pair, rfl⟩
  | none =>
      rw [found, matched] at bound
      exact absurd bound (Nat.not_succ_le_zero n)

/-- In whatever order all kinds are tried, the longest chunk is the longest front of the text that
any kind spells. -/
theorem longestIn?_eq_some_iff (complete : ∀ kind, kind ∈ order) :
    longestIn? order text = some (kind, n) ↔ ∃ front, kind.Cuts front text ∧ front.length = n := by
  -- What a kind spells at the front of a text is matched, at least as far.
  have matched {other : Kind} {candidate : List Char} (front : candidate <+: text)
      (spelled : other.Spells candidate) :
      ∃ m, other.length? text = some m ∧ candidate.length ≤ m := by
    obtain ⟨rest, rfl⟩ := front
    exact spelled.length?_append rest
  constructor
  · intro found
    obtain ⟨inside, spelled⟩ := Kind.length?_spells (length?_of_longestIn? found)
    have size : (text.take n).length = n := by rw [List.length_take, Nat.min_eq_left inside]
    refine ⟨text.take n, ⟨List.take_prefix n text, spelled, ?_⟩, size⟩
    intro other candidate front spelledOther
    obtain ⟨m, read, enough⟩ := matched front spelledOther
    rw [size]
    exact Nat.le_trans enough (le_of_longestIn? found (complete other) read)
  · rintro ⟨front, cut, rfl⟩
    obtain ⟨n, read, enough⟩ := matched cut.starts cut.spells
    obtain ⟨⟨winner, m⟩, found⟩ := longestIn?_isSome (complete kind) read
    have bound := le_of_longestIn? found (complete kind) read
    obtain ⟨inside, spelled⟩ := Kind.length?_spells (length?_of_longestIn? found)
    have small := cut.longest winner (text.take m) (List.take_prefix m text) spelled
    rw [List.length_take, Nat.min_eq_left inside] at small
    have size : m = front.length := by omega
    rw [size, ← List.prefix_iff_eq_take.mp cut.starts] at spelled
    rw [found, size, spelled.kind_eq cut.spells]

theorem longest?_isSome (matched : kind.length? text = some n) :
    ∃ found, longest? text = some found :=
  longestIn?_isSome kind.mem_all matched

/-- The longest chunk is the longest front of the text that any kind spells. -/
theorem longest?_eq_some_iff :
    longest? text = some (kind, n) ↔ ∃ front, kind.Cuts front text ∧ front.length = n :=
  longestIn?_eq_some_iff Kind.mem_all

/-- The order in which all kinds are tried makes no difference. -/
theorem longestIn?_eq (complete : ∀ kind, kind ∈ order) (text : List Char) :
    longestIn? order text = longest? text := by
  apply Option.ext
  rintro ⟨kind, n⟩
  rw [longestIn?_eq_some_iff complete, longest?_eq_some_iff]

end Order

private theorem Kind.eq_of_family {kind other : Kind} (closed : kind.endsItself = true)
    (same : other.family = kind.family) :
    other = kind ∨ other = lineComment ∧ kind = blockComment := by
  cases kind <;> cases other <;> first
    | exact Or.inl rfl
    | exact Or.inr ⟨rfl, rfl⟩
    | exact absurd same (by decide)
    | exact absurd closed (by decide)

private theorem Kind.open_of_family {kind other : Kind} (token : kind.isGap = false)
    (opened : kind.endsItself = false) (same : other.family = kind.family) :
    other.isGap = false ∧ other.endsItself = false := by
  cases kind <;> cases other <;> first
    | exact ⟨rfl, rfl⟩
    | exact absurd same (by decide)
    | exact absurd token (by decide)
    | exact absurd opened (by decide)

/-- A prefix that reaches behind the first of two parts holds the first character of the second. -/
theorem exists_mem_of_prefix_append {front rest candidate : List Char}
    (starts : candidate <+: front ++ rest) (longer : front.length < candidate.length) :
    ∃ c ∈ candidate, rest.head? = some c := by
  obtain ⟨extra, rfl⟩ := List.prefix_of_prefix_length_le (List.prefix_append front rest) starts
    (Nat.le_of_lt longer)
  have behind := (List.prefix_append_right_inj front).mp starts
  obtain ⟨c, more, rfl⟩ := List.exists_cons_of_length_pos
    (show 0 < extra.length by rw [List.length_append] at longer; omega)
  obtain ⟨tail, rfl⟩ := behind
  exact ⟨c, List.mem_append_right front List.mem_cons_self, rfl⟩

/-- A chunk that shows its end is cut off before any text. -/
theorem Kind.Spells.cuts_endsItself {kind : Kind} {front : List Char}
    (spelled : kind.Spells front) (closed : kind.endsItself = true) (rest : List Char) :
    kind.Cuts front (front ++ rest) := by
  refine ⟨List.prefix_append front rest, spelled, ?_⟩
  intro other candidate starts spelledOther
  have family := spelledOther.family_eq spelled starts (List.prefix_append front rest)
  rcases Kind.eq_of_family closed family with rfl | ⟨rfl, rfl⟩
  · have whole := spelled.length?_endsItself closed rest
    obtain ⟨behind, same⟩ := starts
    rw [← same, spelledOther.length?_endsItself closed, Option.some.injEq] at whole
    exact Nat.le_of_eq whole
  · obtain ⟨line, rfl, -⟩ := spelledOther
    obtain ⟨block, rfl, -⟩ := spelled
    obtain ⟨behind, same⟩ := starts
    cases (List.cons.inj (List.cons.inj same).2).1

/-- Any other token is cut off before a character that it cannot hold. -/
theorem Kind.Spells.cuts_open {kind : Kind} {front : List Char} (spelled : kind.Spells front)
    (token : kind.isGap = false) (opened : kind.endsItself = false) {rest : List Char}
    (boundary : ∀ c, rest.head? = some c → isInner c = false) : kind.Cuts front (front ++ rest) := by
  refine ⟨List.prefix_append front rest, spelled, ?_⟩
  intro other candidate starts spelledOther
  have family := spelledOther.family_eq spelled starts (List.prefix_append front rest)
  obtain ⟨otherToken, otherOpen⟩ := Kind.open_of_family token opened family
  by_contra longer
  obtain ⟨c, member, next⟩ := exists_mem_of_prefix_append starts (Nat.not_le.mp longer)
  have inside := spelledOther.inner otherToken otherOpen c member
  rw [boundary c next] at inside
  cases inside

/-- Blanks are cut off before a character that is none. -/
theorem Kind.Spells.cuts_blanks {front : List Char} (spelled : blanks.Spells front)
    {rest : List Char} (boundary : ∀ c, rest.head? = some c → isBlank c = false) :
    blanks.Cuts front (front ++ rest) := by
  refine ⟨List.prefix_append front rest, spelled, ?_⟩
  intro other candidate starts spelledOther
  have family := spelledOther.family_eq spelled starts (List.prefix_append front rest)
  have same : other = blanks := by
    cases other <;> first
      | rfl
      | exact absurd family (by decide)
  subst same
  by_contra longer
  obtain ⟨c, member, next⟩ := exists_mem_of_prefix_append starts (Nat.not_le.mp longer)
  have inside := spelledOther.2 c member
  rw [boundary c next] at inside
  cases inside

end ControlStore.Relaxed
