import ControlStore.Proofs.ReadBack
import ControlStore.Proofs.StrictJson
import ControlStore.Proofs.SyntaxFaults
import ControlStore.Proofs.TokenLexemes

set_option autoImplicit false

/-!
Literals keep their value. Text in single quotes, keys without quotes and hexadecimal numbers are
written in another form; wherever they stand, that form is read as the value they stand for.
-/
namespace ControlStore.Relaxed

-- Powers are those of the core library, whatever else is imported beside this module.
attribute [local instance (2000)] instPowNat

open Json (Lexeme Value)
open Json.Lexeme (Holds)

/-- What a token stands for that is written in another form: text in single quotes, where a
backslash and a double quote are characters like all others; a bare word before a colon; and a
hexadecimal number of 64 bits. -/
inductive Means (next : Option Kind) : Chunk → Value → Prop where
  | quoted {body : List Char} : (∀ c ∈ body, c ≠ '\x27' ∧ c ≠ '\n') →
      Means next ⟨.singleQuoted, '\x27' :: (body ++ ['\x27'])⟩ (.text (String.ofList body))
  | key {name : List Char} : Kind.word.Spells name → next = some .colon →
      Means next ⟨.word, name⟩ (.text (String.ofList name))
  | hex {mark : Char} {digits : List Char} {value : Nat} : mark = 'x' ∨ mark = 'X' →
      Hex.Denotes digits value → value < 2 ^ (64 : Nat) →
        Means next ⟨.hex, '0' :: mark :: digits⟩ (.number (.integer value))

variable {token : Chunk} {next : Option Kind} {value : Value}

theorem Means.spells (means : Means next token value) :
    token.kind.Spells token.text ∧ token.kind.isGap = false := by
  cases means with
  | @quoted body plain =>
      refine ⟨⟨body, rfl, ?_⟩, rfl⟩
      intro c member
      simpa [isPlain] using plain c member
  | key spelled before => exact ⟨spelled, rfl⟩
  | @hex mark digits value marked denotes fits =>
      obtain ⟨some, read⟩ := Hex.denotes_iff.mp denotes
      exact ⟨⟨mark, digits, rfl, marked, some, Hex.isSome_digitValue?_of_read? read⟩, rfl⟩

/-! ### Strict forms -/

/-- A written text is one lexeme, which is read as the text. -/
theorem holds_write (text : List Char) :
    (Chunk.lexeme ⟨.doubleQuoted, Json.Text.write text⟩).spelling = Json.Text.write text ∧
      (Chunk.lexeme ⟨.doubleQuoted, Json.Text.write text⟩).Holds (.text (String.ofList text)) := by
  have body : ((Json.Text.write text).drop 1).dropLast = Json.Text.spell text :=
    List.dropLast_concat
  rw [Chunk.lexeme, body]
  exact ⟨rfl, .text (Json.Text.read_spell text Nat.one_ne_zero)⟩

/-- The strict form of such a token is one lexeme, which is read as what the token stands for. -/
theorem Means.exists_image (means : Means next token value) :
    ∃ image strict, image? token.kind token.text next = some image ∧
      token.strict? next = some strict ∧ strict.lexeme.spelling = image ∧
        strict.lexeme.Holds value := by
  cases means with
  | @quoted body plain =>
      have inside : (('\x27' :: (body ++ ['\x27'])).drop 1).dropLast = body := List.dropLast_concat
      refine ⟨_, ⟨.doubleQuoted, Json.Text.write body⟩, rfl, ?_, ?_⟩
      · simp only [Chunk.strict?, inside]
      · rw [inside]
        exact holds_write body
  | @key name spelled before =>
      refine ⟨_, ⟨.doubleQuoted, Json.Text.write name⟩, if_pos before, if_pos before, ?_⟩
      exact holds_write name
  | @hex mark digits value marked denotes fits =>
      have read : Hex.read? (('0' :: mark :: digits).drop 2) = some value :=
        (Hex.denotes_iff.mp denotes).2
      refine ⟨Nat.toDigits 10 value, ⟨.number, Nat.toDigits 10 value⟩, ?_, ?_, rfl, ?_⟩
      · simp only [image?, hexImage?, read, Option.bind_some, if_pos fits]
      · simp only [Chunk.strict?, read, Option.getD_some]
      · exact .number (Json.Number.read_toDigits fits)

/-- A lexeme that is known but for what stands behind it is spelled and read as it is known. -/
theorem holds_of_mapText {lexeme known : Lexeme}
    (same : lexeme.mapText Json.Text.settle = known) (holds : known.Holds value) :
    lexeme.spelling = known.spelling ∧ lexeme.Holds value := by
  subst same
  exact ⟨(spelling_mapText_settle lexeme).symm, holds.of_settle⟩

/-- The strict form of such a token, as a text of its own, holds what the token stands for. -/
theorem Means.read_image (means : Means next token value) {image : List Char}
    (found : image? token.kind token.text next = some image) : Value.read image = .ok value := by
  obtain ⟨written, strict, image, becomes, -, holds⟩ := means.exists_image
  obtain ⟨spelled, isToken⟩ := means.spells
  have nothing : Json.Lexeme.Aside [] := fun c impossible => by cases impossible
  have cut := settled_image spelled isToken found nothing
  rw [becomes, List.append_nil] at cut
  exact holds.read cut

/-! ### Literals in a text -/

/-- Tokens become what they become behind any others. -/
theorem strictTokens_append (front back : List Chunk) :
    ∃ before, strictTokens (front ++ back) = before ++ strictTokens back := by
  induction front with
  | nil => exact ⟨[], rfl⟩
  | cons chunk rest ih =>
      obtain ⟨before, same⟩ := ih
      refine ⟨(chunk.strict? ((rest ++ back).head?.map (·.kind))).toList ++ before, ?_⟩
      rw [List.cons_append, strictTokens, same, List.append_assoc]

/-- Wherever such a token stands in a text, its strict form stands in the strict text, and is read
as what the token stands for. -/
theorem Means.exists_lexeme (means : Means next token value) {image : List Char}
    (found : image? token.kind token.text next = some image) {text out : List Char}
    {front back : List Chunk} (success : toJson text = .ok out)
    (split : (scan text).tokens = front ++ token :: back)
    (before : back.head?.map (·.kind) = next) :
    ∃ earlier lexeme later, Lexeme.scan out = earlier ++ lexeme :: later ∧
      later.length = (strictTokens back).length ∧ lexeme.spelling = image ∧
        lexeme.Holds value := by
  obtain ⟨written, strict, same, becomes, spelled, holds⟩ := means.exists_image
  cases found.symm.trans same
  obtain ⟨earlier, whole⟩ := strictTokens_append front (token :: back)
  have known := settled_of_render (toJson_eq_ok success).2
  rw [split, whole, strictTokens, before, becomes, List.map_append] at known
  obtain ⟨left, right, scanned, -, known⟩ := List.map_eq_append_iff.mp known
  obtain ⟨lexeme, later, rfl, here, known⟩ := List.map_eq_cons_iff.mp known
  have read := holds_of_mapText here holds
  refine ⟨left, lexeme, later, scanned, ?_, read.1.trans spelled, read.2⟩
  have length := congrArg List.length known
  rwa [List.length_map, List.length_map] at length

/-! ### A map with one member -/

/-- The text of a map whose one key has no quotes. -/
def member (name literal : List Char) : List Char := '{' :: (name ++ ':' :: (literal ++ ['}']))

/-- The tokens of such a text. -/
def memberTokens (name : List Char) (token : Chunk) : List Chunk :=
  [⟨.braceOpen, ['{']⟩, ⟨.word, name⟩, ⟨.colon, [':']⟩, token, ⟨.braceClose, ['}']⟩]

theorem cutting_member {name : List Char} (key : Kind.word.Spells name)
    (spelled : token.kind.Spells token.text) (isToken : token.kind.isGap = false) :
    Cutting (member name token.text) (memberTokens name token) [] := by
  have apart {c : Char} (outside : isInner c = false) (behind : List Char) :
      Apart (c :: behind) := by
    intro d next
    cases next
    exact outside
  have braces : Cutting (['{'] ++ (name ++ ([':'] ++ (token.text ++ (['}'] ++ [])))))
      (memberTokens name token) [] :=
    .chunk ((show Kind.braceOpen.Spells ['{'] from rfl).cuts_endsItself rfl _)
      (.chunk (key.cuts rfl (apart (by decide) _))
        (.chunk ((show Kind.colon.Spells [':'] from rfl).cuts_endsItself rfl _)
          (.chunk (spelled.cuts isToken (apart (by decide) _))
            (.chunk ((show Kind.braceClose.Spells ['}'] from rfl).cuts_endsItself rfl _)
              (.done [])))))
  exact braces

theorem tokens_member {name : List Char} (key : Kind.word.Spells name)
    (spelled : token.kind.Spells token.text) (isToken : token.kind.isGap = false) :
    (scan (member name token.text)).tokens = memberTokens name token := by
  rw [scan_eq_iff.mpr ⟨cutting_member key spelled isToken, stuck_nil⟩]
  refine List.filter_eq_self.mpr ?_
  simp only [memberTokens, List.forall_mem_cons, isToken]
  decide

/-- A bare word may stand before a colon; so all depends on the token behind it. -/
theorem allowed_member (name : List Char) (stands : ¬ Barred (some .braceClose) token) :
    Allowed (memberTokens name token) := by
  refine .cons ?_ (.cons ?_ (.cons ?_ (.cons stands (.cons ?_ .nil))))
  · rintro (_ | _)
  · rintro (⟨noColon, -⟩ | _)
    exact noColon rfl
  · rintro (_ | _)
  · rintro (_ | _)

theorem strictTokens_member (name : List Char) {strict : Chunk}
    (becomes : token.strict? (some .braceClose) = some strict) :
    strictTokens (memberTokens name token) = [⟨.braceOpen, ['{']⟩,
      ⟨.doubleQuoted, Json.Text.write name⟩, ⟨.colon, [':']⟩, strict, ⟨.braceClose, ['}']⟩] := by
  change [⟨.braceOpen, ['{']⟩, ⟨.doubleQuoted, Json.Text.write name⟩, ⟨.colon, [':']⟩] ++
    ((token.strict? (some .braceClose)).toList ++ strictTokens [⟨.braceClose, ['}']⟩]) = _
  rw [becomes]
  rfl

/-- What follows a token that is no key does not matter to it. -/
theorem Means.of_ne_word (means : Means next token value) (noKey : token.kind ≠ .word)
    (other : Option Kind) : Means other token value := by
  cases means with
  | quoted plain => exact .quoted plain
  | key => exact absurd rfl noKey
  | hex marked denotes fits => exact .hex marked denotes fits

/-- In a map with one member such a token is the member's value and a bare word its key. -/
theorem Means.toJson_member (means : Means next token value) (noKey : token.kind ≠ .word)
    {name : List Char} (key : Kind.word.Spells name) :
    ∃ out, toJson (member name token.text) = .ok out ∧
      Value.read out = .ok (.map [(String.ofList name, value)]) := by
  obtain ⟨spelled, isToken⟩ := means.spells
  obtain ⟨image, strict, found, becomes, -, holds⟩ :=
    (means.of_ne_word noKey (some .braceClose)).exists_image
  have stands : ¬ Barred (some .braceClose) token := by
    intro barred
    rw [(image?_eq_none_iff spelled).mpr barred] at found
    cases found
  obtain ⟨out, success⟩ :=
    (exists_toJson_iff (cutting_member key spelled isToken)).mpr (allowed_member name stands)
  have known := settled_of_render (toJson_eq_ok success).2
  rw [tokens_member key spelled isToken, strictTokens_member name becomes] at known
  exact ⟨out, success, Holds.read_member (holds_write name).2 holds known⟩

/-- Rewritten literals keep their value. The strict form of text in single quotes, of a key and of a
hexadecimal number is read as what these stand for; so is the lexeme that is found for them in the
strict form of any text, behind and before as many others as tokens that stay; and a map of a key
and such a literal is always rewritten, and read as the map of that key and value. -/
theorem toJson_keeps_literals {token : Chunk} {next : Option Kind} {value : Value}
    (means : Means next token value) :
    (∃ image, image? token.kind token.text next = some image ∧ Value.read image = .ok value ∧
      ∀ text out front back, toJson text = .ok out → (scan text).tokens = front ++ token :: back →
        back.head?.map (·.kind) = next → ∃ earlier lexeme later,
          Lexeme.scan out = earlier ++ lexeme :: later ∧
            later.length = (strictTokens back).length ∧ lexeme.spelling = image ∧
              lexeme.Holds value) ∧
    (token.kind ≠ .word → ∀ name, Kind.word.Spells name →
      ∃ out, toJson (member name token.text) = .ok out ∧
        Value.read out = .ok (.map [(String.ofList name, value)])) := by
  obtain ⟨image, strict, found, -⟩ := means.exists_image
  refine ⟨⟨image, found, means.read_image found, ?_⟩, ?_⟩
  · intro text out front back success split before
    exact means.exists_lexeme found success split before
  · intro noKey name key
    exact means.toJson_member noKey key

/-- A backslash and double quotes in single quotes. -/
theorem toJson_keeps_literals_quotes :
    ∃ out, toJson "\x7bkey_1:\x27say \"\\n\"\x27\x7d".toList = .ok out ∧
      Value.read out = .ok (.map [("key_1", .text "say \"\\n\"")]) := by
  have key : Kind.word.Spells "key_1".toList :=
    ⟨'k', "ey_1".toList, rfl, rfl, List.all_eq_true.mp rfl⟩
  have plain : ∀ c ∈ "say \"\\n\"".toList, c ≠ '\x27' ∧ c ≠ '\n' := by
    intro c inside
    have plain : isPlain c = true := List.all_eq_true.mp rfl c inside
    simpa [isPlain] using plain
  have means : Means none ⟨.singleQuoted, "\x27say \"\\n\"\x27".toList⟩
      (.text "say \"\\n\"") := .quoted plain
  exact (toJson_keeps_literals means).2 (by decide) _ key

end ControlStore.Relaxed
