import ControlStore.Proofs.LexemeScan
import ControlStore.Proofs.Matched
import ControlStore.Proofs.StrictTokens

set_option autoImplicit false

/-!
Tokens as lexemes. The strict text of tokens is scanned as one lexeme for each token that stays,
whatever gaps the tokens had; texts differ at most in what stands behind them.
-/
namespace ControlStore.Relaxed

open Json (Lexeme)
open Json.Lexeme (Aside)
open Json.Text (settle)

/-- The lexeme that a token of strict text is. -/
def Chunk.lexeme (chunk : Chunk) : Lexeme :=
  match chunk.kind with
  | .braceOpen => .openMap
  | .braceClose => .closeMap
  | .bracketOpen => .openList
  | .bracketClose => .closeList
  | .colon => .colon
  | .comma => .comma
  | .doubleQuoted => .text ⟨(chunk.text.drop 1).dropLast, 1⟩
  | .number => .number chunk.text
  | .word => .ofWord chunk.text
  | _ => .stray

/-- The lexemes of a text, without what stands behind its quoted texts. -/
def settled (text : List Char) : List Lexeme :=
  (Lexeme.scan text).map (Lexeme.mapText settle)

theorem settled_blanks {blanks : List Char} (blank : ∀ c ∈ blanks, Lexeme.isBlank c = true)
    (rest : List Char) : settled (blanks ++ rest) = settled rest := by
  rw [settled, settled, Lexeme.scan_blanks blank]

theorem settled_mark {lexeme : Lexeme} {first : Char} (dark : Lexeme.isBlank first = false)
    (cut : ∀ rest, Lexeme.front first rest = (lexeme, 0))
    (same : lexeme.mapText settle = lexeme) (behind : List Char) :
    settled (first :: behind) = lexeme :: settled behind := by
  rw [settled, Lexeme.scan_front dark, cut, List.map_cons, same]
  rfl

theorem settled_quoted {text : List Char} (spelled : Kind.doubleQuoted.Spells text)
    (behind : List Char) :
    settled (text ++ behind) = Chunk.lexeme ⟨.doubleQuoted, text⟩ :: settled behind := by
  obtain ⟨body, rfl, inside⟩ := spelled
  have quoted : (Lexeme.text ⟨body, 1⟩).Spelled := ⟨body, rfl, inside⟩
  obtain ⟨again, cut, same⟩ := Lexeme.scan_quoted Nat.one_ne_zero quoted behind
  have whole : (('"' :: (body ++ ['"'])).drop 1).dropLast = body := List.dropLast_concat
  change (Lexeme.scan ((Lexeme.text ⟨body, 1⟩).spelling ++ behind)).map _ = _
  rw [cut, List.map_cons, Chunk.lexeme, whole]
  exact congrArg (fun text => Lexeme.text text :: settled behind) same

theorem settled_number {text behind : List Char} (spelled : Kind.number.Spells text)
    (aside : Aside behind) : settled (text ++ behind) = .number text :: settled behind := by
  rw [settled, Lexeme.scan_number spelled aside]
  rfl

theorem settled_word {text behind : List Char} (strict : text ∈ strictWords)
    (aside : Aside behind) : settled (text ++ behind) = .ofWord text :: settled behind := by
  have word {first : Char} {more : List Char} (dark : Lexeme.isBlank first = false)
      (cuts : ∀ rest, Lexeme.front first rest =
        (.ofWord (first :: rest.takeWhile Char.isAlpha), (rest.takeWhile Char.isAlpha).length))
      (letters : ∀ c ∈ more, c.isAlpha = true)
      (same : (Lexeme.ofWord (first :: more)).mapText settle = .ofWord (first :: more)) :
      settled (first :: more ++ behind) = .ofWord (first :: more) :: settled behind := by
    rw [settled, List.cons_append, Lexeme.scan_word dark cuts letters aside, List.map_cons, same]
    rfl
  simp only [strictWords, List.mem_cons, List.not_mem_nil, or_false] at strict
  rcases strict with rfl | rfl | rfl
  · exact word rfl (fun _ => rfl) (List.all_eq_true.mp rfl) rfl
  · exact word rfl (fun _ => rfl) (List.all_eq_true.mp rfl) rfl
  · exact word rfl (fun _ => rfl) (List.all_eq_true.mp rfl) rfl

/-- The strict form of a token is scanned as the token that it becomes, if it stays. -/
theorem settled_image {kind : Kind} {text image : List Char} {next : Option Kind}
    (spelled : kind.Spells text) (token : kind.isGap = false)
    (success : image? kind text next = some image) {behind : List Char} (aside : Aside behind) :
    settled (image ++ behind) =
      (Chunk.strict? ⟨kind, text⟩ next).toList.map Chunk.lexeme ++ settled behind := by
  cases kind with
  | blanks | lineComment | blockComment => cases token
  | braceOpen | braceClose | bracketOpen | bracketClose | colon =>
      cases success
      rw [show text = _ from spelled]
      exact settled_mark rfl (fun _ => rfl) rfl behind
  | comma =>
      have strict := image?_eq_some spelled token success
      by_cases ending : next = some .braceClose ∨ next = some .bracketClose
      · simp only [Chunk.strict?, ending, if_true] at strict ⊢
        rw [strict]
        rfl
      · simp only [Chunk.strict?, ending, if_false] at strict ⊢
        rw [← strict.1, show text = _ from spelled]
        exact settled_mark rfl (fun _ => rfl) rfl behind
  | word =>
      by_cases key : next = some .colon
      · simp only [image?, Chunk.strict?, key, if_true, Option.some.injEq] at success ⊢
        subst success
        exact settled_quoted (write_spells text) behind
      · simp only [image?, Chunk.strict?, key, if_false] at success ⊢
        split at success
        · rename_i strict
          cases success
          exact settled_word strict aside
        · cases success
  | doubleQuoted =>
      cases success
      exact settled_quoted spelled behind
  | singleQuoted =>
      cases success
      exact settled_quoted (write_spells _) behind
  | hex =>
      obtain ⟨value, read, rfl⟩ := hexImage?_eq_some success
      simp only [Chunk.strict?, read, Option.getD_some]
      exact settled_number (toDigits_spells value) aside
  | number =>
      cases success
      exact settled_number spelled aside

/-- The strict text of tokens has the lexemes of the tokens that these become. -/
theorem settled_render {tokens : List Token}
    (spelled : ∀ chunk ∈ tokens.map Token.chunk,
      chunk.kind.Spells chunk.text ∧ chunk.kind.isGap = false)
    {out : List Char} (success : render tokens = .ok out) :
    Aside out ∧ settled out = (strictTokens (tokens.map Token.chunk)).map Chunk.lexeme := by
  induction tokens generalizing out with
  | nil =>
      cases success
      exact ⟨fun c next => (Option.some_ne_none c next.symm).elim, rfl⟩
  | cons token rest ih =>
      obtain ⟨here, later⟩ := List.forall_mem_cons.mp spelled
      obtain ⟨image, behind, found, rendered, rfl⟩ := render_cons success
      obtain ⟨aside, same⟩ := ih later rendered
      refine ⟨head?_lead rfl rfl token.gap _, ?_⟩
      rw [settled_blanks (forall_mem_lead rfl rfl token.gap),
        settled_image here.1 here.2 found aside, List.map_cons, strictTokens, head?_kind_chunk,
        List.map_append, same]

/-- The strict form of a text has the lexemes of the tokens that its tokens become. -/
theorem settled_of_render {text out : List Char}
    (rendered : render (tokens (scan text).chunks) = .ok out) :
    settled out = (strictTokens (scan text).tokens).map Chunk.lexeme := by
  have chunks : (tokens (scan text).chunks).map Token.chunk = (scan text).tokens :=
    map_chunk_tokensFrom 1 0 (scan text).chunks
  rw [← chunks]
  exact (settled_render (chunks ▸ tokens_spell text) rendered).2

/-- Tokens that differ only in their gaps and lines are rendered alike: both fail at the same token,
or neither fails. -/
theorem render_matched {first second : List Token}
    (same : first.map Token.chunk = second.map Token.chunk) :
    Matched (fun fault fault' => fault.found = fault'.found) (fun _ _ => True)
      (render first) (render second) := by
  induction first generalizing second with
  | nil =>
      rw [List.map_eq_nil_iff.mp same.symm]
      exact trivial
  | cons token rest ih =>
      obtain ⟨token', rest', rfl, here, later⟩ := List.map_eq_cons_iff.mp same.symm
      have next : rest'.head?.map (·.kind) = rest.head?.map (·.kind) := by
        rw [← head?_kind_chunk, later, head?_kind_chunk]
      have kind : token'.kind = token.kind := congrArg Chunk.kind here
      have text : token'.text = token.text := congrArg Chunk.text here
      rw [render, render, next, kind, text]
      cases image? token.kind token.text (rest.head?.map (·.kind)) with
      | none => exact rfl
      | some image => exact (ih later.symm).map fun _ _ _ => trivial

end ControlStore.Relaxed
