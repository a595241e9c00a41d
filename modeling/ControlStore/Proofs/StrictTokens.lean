import ControlStore.Proofs.QuotedText
import ControlStore.Proofs.Scanning
import ControlStore.Relaxed.Strict

set_option autoImplicit false

/-!
Strict text scanned again. The strict form of relaxed text is made of the same tokens, one by one:
a comma that ends a list or a map is gone, quoted texts and keys have double quotes, hexadecimal
numbers are decimal, and all else is spelled as it was.
-/
namespace ControlStore.Relaxed

/-- The token that a token becomes before a token of some kind, if it stays at all. -/
def Chunk.strict? (chunk : Chunk) (next : Option Kind) : Option Chunk :=
  match chunk.kind with
  | .comma => if next = some .braceClose ∨ next = some .bracketClose then none else some chunk
  | .word =>
      if next = some .colon then some ⟨.doubleQuoted, Json.Text.write chunk.text⟩ else some chunk
  | .singleQuoted => some ⟨.doubleQuoted, Json.Text.write (chunk.text.drop 1).dropLast⟩
  | .hex => some ⟨.number, Nat.toDigits 10 ((Hex.read? (chunk.text.drop 2)).getD 0)⟩
  | _ => some chunk

/-- The tokens that tokens become. -/
def strictTokens : List Chunk → List Chunk
  | [] => []
  | chunk :: rest => (chunk.strict? (rest.head?.map (·.kind))).toList ++ strictTokens rest

/-! ### Strict forms -/

/-- The escapes of a quoted text belong to its body. -/
theorem quotedBody_escape (c : Char) {body : List Char} (spelled : QuotedBody body) :
    QuotedBody (Json.Text.escape c ++ body) := by
  have form := Json.Text.escaped c
  generalize Json.Text.escape c = spelling at form ⊢
  cases form with
  | short meant => exact .escape (Json.Text.ne_of_shortEscape? meant).1 spelled
  | code control =>
      have plain := Json.Text.plain_of_read? (Json.Text.read?_code control)
      exact .escape (by decide) (Json.Text.quotedBody_plain plain spelled)
  | plain noQuote noEscape printable => exact .plain noQuote noEscape spelled

/-- A written text is a double-quoted token, whatever the text holds. -/
theorem write_spells (text : List Char) : Kind.doubleQuoted.Spells (Json.Text.write text) := by
  refine ⟨Json.Text.spell text, rfl, ?_⟩
  induction text with
  | nil => exact .nil
  | cons c rest ih => exact quotedBody_escape c ih

theorem toDigits_spells (value : Nat) : Kind.number.Spells (Nat.toDigits 10 value) := by
  refine ⟨[], Nat.toDigits 10 value, [], [], by simp, by decide, ?_, .absent, .absent⟩
  exact ⟨Nat.toDigits_ne_nil, fun c => Nat.isDigit_of_mem_toDigits (by decide) (by decide)⟩

theorem hexImage?_eq_some {text image : List Char} (success : hexImage? text = some image) :
    ∃ value, Hex.read? (text.drop 2) = some value ∧ image = Nat.toDigits 10 value := by
  obtain ⟨value, read, fits⟩ := Option.bind_eq_some_iff.mp success
  split at fits
  · exact ⟨value, read, (Option.some.inj fits).symm⟩
  · cases fits

/-- The strict form of a token is empty for a comma that ends a list or a map, and else the text of
the token that the token becomes. -/
theorem image?_eq_some {kind : Kind} {text image : List Char} {next : Option Kind}
    (spelled : kind.Spells text) (token : kind.isGap = false)
    (success : image? kind text next = some image) :
    match (Chunk.mk kind text).strict? next with
    | none => image = []
    | some chunk => chunk.text = image ∧ chunk.kind.Spells image ∧ chunk.kind.isGap = false := by
  cases kind with
  | blanks | lineComment | blockComment => cases token
  | comma =>
      have closes : next.any Kind.closes = true ↔
          next = some .braceClose ∨ next = some .bracketClose := by
        cases next with
        | none => simp
        | some kind => cases kind <;> simp [Kind.closes]
      simp only [image?, Option.some.injEq] at success
      subst success
      by_cases ending : next = some .braceClose ∨ next = some .bracketClose
      · simp only [Chunk.strict?, ending, if_true, closes.mpr ending]
      · simp only [Chunk.strict?, ending, if_false, closes.not.mpr ending]
        exact ⟨rfl, spelled, rfl⟩
  | word =>
      by_cases key : next = some .colon
      · simp only [image?, key, if_true, Option.some.injEq] at success
        simp only [Chunk.strict?, key, if_true]
        exact ⟨success, success ▸ write_spells text, rfl⟩
      · simp only [image?, key, if_false] at success
        simp only [Chunk.strict?, key, if_false]
        split at success
        · cases success
          exact ⟨rfl, spelled, rfl⟩
        · cases success
  | singleQuoted =>
      cases success
      exact ⟨rfl, write_spells _, rfl⟩
  | hex =>
      obtain ⟨value, read, rfl⟩ := hexImage?_eq_some success
      simp only [Chunk.strict?, read, Option.getD_some]
      exact ⟨trivial, toDigits_spells value, rfl⟩
  | braceOpen | braceClose | bracketOpen | bracketClose | colon | doubleQuoted | number =>
      cases success
      exact ⟨rfl, spelled, rfl⟩

/-- A token is dropped and leaves nothing, or becomes a token that its strict form spells. -/
theorem strict?_cases {chunk : Chunk} {image : List Char} {next : Option Kind}
    (spelled : chunk.kind.Spells chunk.text) (token : chunk.kind.isGap = false)
    (success : image? chunk.kind chunk.text next = some image) :
    (chunk.strict? next = none ∧ image = []) ∨
      ∃ strict, chunk.strict? next = some strict ∧ strict.text = image ∧
        strict.kind.Spells image ∧ strict.kind.isGap = false := by
  have form := image?_eq_some spelled token success
  cases becomes : chunk.strict? next with
  | none =>
      rw [becomes] at form
      exact Or.inl ⟨rfl, form⟩
  | some strict =>
      rw [becomes] at form
      exact Or.inr ⟨strict, rfl, form⟩

/-! ### Rendered tokens -/

def Token.chunk (token : Token) : Chunk := ⟨token.kind, token.text⟩

/-- The tokens of some chunks are those that are no gaps. -/
theorem map_chunk_tokensFrom (line gap : Nat) (chunks : List Chunk) :
    (tokensFrom line gap chunks).map Token.chunk =
      chunks.filter fun chunk => !chunk.kind.isGap := by
  induction chunks generalizing line gap with
  | nil => rfl
  | cons chunk rest ih =>
      rw [tokensFrom, List.filter_cons]
      cases chunk.kind.isGap with
      | true => exact ih _ _
      | false =>
          simp only [Bool.false_eq_true, if_false, List.map_cons, ih, Bool.not_false, if_true]
          rfl

theorem head?_kind_chunk (tokens : List Token) :
    (tokens.map Token.chunk).head?.map (·.kind) = tokens.head?.map (·.kind) := by
  cases tokens <;> rfl

/-- What leads a token is made of spaces or newlines. -/
theorem forall_mem_lead {p : Char → Bool} (space : p ' ' = true) (newline : p '\n' = true)
    (gap : Nat) : ∀ c ∈ lead gap, p c = true := by
  unfold lead
  split
  · exact List.forall_mem_singleton.mpr space
  · exact fun c member => List.eq_of_mem_replicate member ▸ newline

theorem lead_blank (gap : Nat) : ∀ c ∈ lead gap, isBlank c = true :=
  forall_mem_lead rfl rfl gap

/-- What is led begins with a space or a newline. -/
theorem head?_lead {p : Char → Bool} (space : p ' ' = true) (newline : p '\n' = true)
    (gap : Nat) (rest : List Char) : ∀ c, (lead gap ++ rest).head? = some c → p c = true := by
  intro c next
  rcases gap with _ | gap
  · cases next
    exact space
  · cases next
    exact newline

/-- Behind a token the strict text begins with a blank, which belongs to no token. -/
theorem apart_lead (gap : Nat) (rest : List Char) : Apart (lead gap ++ rest) := by
  intro c next
  have outside := head?_lead (p := fun c => !isInner c) (by decide) (by decide) gap rest c next
  simpa using outside

theorem render_cons {token : Token} {rest : List Token} {out : List Char}
    (success : render (token :: rest) = .ok out) :
    ∃ image behind, image? token.kind token.text (rest.head?.map (·.kind)) = some image ∧
      render rest = .ok behind ∧ out = lead token.gap ++ (image ++ behind) := by
  rw [render] at success
  split at success
  · rename_i image found
    cases rendered : render rest with
    | error fault => rw [rendered] at success; cases success
    | ok behind =>
        rw [rendered] at success
        cases success
        exact ⟨image, behind, found, rfl, List.append_assoc ..⟩
  · cases success

/-- Rendered tokens are scanned again as the tokens that they become. -/
theorem scan_render {tokens : List Token}
    (spelled : ∀ chunk ∈ tokens.map Token.chunk,
      chunk.kind.Spells chunk.text ∧ chunk.kind.isGap = false)
    {out : List Char} (success : render tokens = .ok out) :
    Apart out ∧ (scan out).rest = [] ∧
      (scan out).tokens = strictTokens (tokens.map Token.chunk) := by
  induction tokens generalizing out with
  | nil =>
      cases success
      exact ⟨fun c next => (Option.some_ne_none c next.symm).elim, rfl, rfl⟩
  | cons token rest ih =>
      obtain ⟨here, later⟩ := List.forall_mem_cons.mp spelled
      obtain ⟨image, behind, found, rendered, rfl⟩ := render_cons success
      obtain ⟨apart, whole, tokens⟩ := ih later rendered
      obtain ⟨sameTokens, sameRest⟩ := sameTokens_blanks (lead_blank token.gap) (image ++ behind)
      refine ⟨apart_lead token.gap _, ?_⟩
      rw [sameTokens, sameRest, List.map_cons, strictTokens, head?_kind_chunk, ← tokens]
      rcases strict?_cases here.1 here.2 found with
        ⟨dropped, rfl⟩ | ⟨strict, becomes, rfl, spells, isToken⟩
      · rw [dropped]
        exact ⟨whole, rfl⟩
      · rw [becomes]
        obtain ⟨tokensHere, restHere⟩ := tokens_of_cuts isToken (spells.cuts isToken apart)
        exact ⟨restHere.trans whole, tokensHere⟩

theorem toJson_eq_ok {text out : List Char} (success : toJson text = .ok out) :
    (scan text).rest = [] ∧ render (tokens (scan text).chunks) = .ok out := by
  unfold toJson at success
  dsimp only at success
  split at success
  · rename_i whole
    exact ⟨whole, success⟩
  · cases success

/-- The strict form of a text is scanned to its end, and its tokens are those of the text, each
changed or dropped as `strictTokens` says. -/
theorem toJson_translates_tokens {text out : List Char} (success : toJson text = .ok out) :
    (scan out).rest = [] ∧ (scan out).tokens = strictTokens (scan text).tokens := by
  obtain ⟨-, rendered⟩ := toJson_eq_ok success
  have chunks : (tokens (scan text).chunks).map Token.chunk = (scan text).tokens :=
    map_chunk_tokensFrom 1 0 (scan text).chunks
  obtain ⟨-, whole, translated⟩ := scan_render (chunks ▸ tokens_spell text) rendered
  exact ⟨whole, chunks ▸ translated⟩

/-- A key, a hexadecimal number, a quote in single quotes, a trailing comma and a comment. -/
theorem toJson_translates_tokens_mixed :
    ∃ out, toJson "\x7bk:0x1F,\x27\"\x27:[1,/**/],\x7d".toList = .ok out ∧
      (scan out).tokens = [⟨.braceOpen, ['{']⟩, ⟨.doubleQuoted, ['"', 'k', '"']⟩, ⟨.colon, [':']⟩,
        ⟨.number, ['3', '1']⟩, ⟨.comma, [',']⟩, ⟨.doubleQuoted, ['"', '\\', '"', '"']⟩,
        ⟨.colon, [':']⟩, ⟨.bracketOpen, ['[']⟩, ⟨.number, ['1']⟩, ⟨.bracketClose, [']']⟩,
        ⟨.braceClose, ['}']⟩] := by
  have success : toJson "\x7bk:0x1F,\x27\"\x27:[1,/**/],\x7d".toList =
      .ok " \x7b \"k\" : 31 , \"\\\"\" : [ 1  ]  \x7d".toList := by decide +kernel
  refine ⟨_, success, ?_⟩
  rw [(toJson_translates_tokens success).2]
  decide +kernel

end ControlStore.Relaxed
