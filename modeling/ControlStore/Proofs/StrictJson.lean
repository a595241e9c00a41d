import ControlStore.Proofs.LexemeScan
import ControlStore.Proofs.StrictTokens

set_option autoImplicit false

/-!
Strict JSON as relaxed text. Text that holds a JSON value is translated lexeme by lexeme into
itself; only the blanks differ, and the value is the same.
-/
namespace ControlStore.Relaxed

open Json.Lexeme (Before Begins Orderly Spelled Aside spelling)

/-- A lexeme in its place is its own strict form. -/
theorem image?_chunk {lexeme : Json.Lexeme} {rest : List Json.Lexeme}
    (meaningful : lexeme.Meaningful) (before : lexeme.Before rest) :
    image? lexeme.kind lexeme.spelling (rest.head?.map (·.kind)) = some lexeme.spelling := by
  have noKey (ended : Begins Json.Lexeme.ends rest) : rest.head?.map (·.kind) ≠ some .colon := by
    rcases rest with _ | ⟨next, behind⟩
    · exact fun impossible => by cases impossible
    · have ends := ended next rfl
      cases next <;> first
        | cases ends; done
        | intro impossible; cases impossible
  cases lexeme with
  | comma =>
      have noClose : (rest.head?.map (·.kind)).any Kind.closes = false := by
        rcases rest with _ | ⟨next, behind⟩
        · rfl
        · have opens : next.opens = true := before next rfl
          cases next <;> first
            | rfl
            | cases opens
      exact congrArg some (if_neg (by rw [noClose]; decide))
  | null => exact (if_neg (noKey before)).trans (if_pos (by decide))
  | flag on =>
      refine (if_neg (noKey before)).trans (if_pos ?_)
      cases on <;> decide
  | misspelt | stray => cases meaningful
  | _ => rfl

/-- Tokens that are lexemes in order are rendered as those lexemes. -/
theorem render_lexemes {tokens : List Token} {lexemes : List Json.Lexeme}
    (same : tokens.map Token.chunk = lexemes.map Json.Lexeme.chunk) (orderly : Orderly lexemes)
    (spelled : ∀ lexeme ∈ lexemes, Spelled lexeme) :
    ∃ out, render tokens = .ok out ∧ Aside out ∧
      (Json.Lexeme.scan out).map (Json.Lexeme.mapText Json.Text.settle) =
        lexemes.map (Json.Lexeme.mapText Json.Text.settle) := by
  induction tokens generalizing lexemes with
  | nil =>
      have none : lexemes = [] := List.map_eq_nil_iff.mp same.symm
      subst none
      refine ⟨[], rfl, ?_, rfl⟩
      intro c next
      cases next
  | cons token rest ih =>
      rcases lexemes with _ | ⟨lexeme, behind⟩
      · cases same
      rw [List.map_cons, List.map_cons] at same
      obtain ⟨here, later⟩ := List.cons.inj same
      rcases orderly with _ | ⟨meaningful, before, orderlyBehind⟩
      obtain ⟨spelledHere, spelledBehind⟩ := List.forall_mem_cons.mp spelled
      obtain ⟨out, rendered, aside, kept⟩ := ih later orderlyBehind spelledBehind
      have next : rest.head?.map (·.kind) = behind.head?.map (·.kind) := by
        rw [← head?_kind_chunk, later]
        cases behind <;> rfl
      have image : image? token.kind token.text (rest.head?.map (·.kind)) =
          some lexeme.spelling := by
        rw [next, ← image?_chunk meaningful before]
        exact congrArg (fun chunk : Chunk => image? chunk.kind chunk.text _) here
      obtain ⟨again, cut, settled⟩ := Json.Lexeme.scan_spelling meaningful spelledHere aside
      refine ⟨lead token.gap ++ lexeme.spelling ++ out, ?_, ?_, ?_⟩
      · rw [render, image, rendered]
        rfl
      · rw [List.append_assoc]
        exact head?_lead rfl rfl token.gap _
      · rw [List.append_assoc, Json.Lexeme.scan_blanks (forall_mem_lead rfl rfl token.gap), cut,
          List.map_cons, List.map_cons, settled, kept]

theorem spelling_mapText_settle (lexeme : Json.Lexeme) :
    (lexeme.mapText Json.Text.settle).spelling = lexeme.spelling := by
  cases lexeme <;> rfl

/-- A text that holds a JSON value is translated. The strict text is made of the same lexemes,
spelled alike and in the same order, with blanks around them, and holds the same value. -/
theorem toJson_keeps_json {text : List Char} {value : Json.Value}
    (success : Json.Value.read text = .ok value) :
    ∃ out, toJson text = .ok out ∧ Json.Value.read out = .ok value ∧
      (Json.Lexeme.scan out).map spelling = (Json.Lexeme.scan text).map spelling ∧
      Json.Spaced ((Json.Lexeme.scan text).map spelling) text ∧
      Json.Spaced ((Json.Lexeme.scan out).map spelling) out := by
  have orderly := Json.orderly_of_read success
  obtain ⟨spaced, spelled⟩ := Json.Lexeme.spaced_scan orderly.meaningful
  obtain ⟨scanned, whole⟩ := Json.Lexeme.tokens_scan orderly
  have chunks : (tokens (scan text).chunks).map Token.chunk =
      (Json.Lexeme.scan text).map Json.Lexeme.chunk :=
    (map_chunk_tokensFrom 1 0 (scan text).chunks).trans scanned
  obtain ⟨out, rendered, -, kept⟩ := render_lexemes chunks orderly spelled
  have again : Json.Value.read out = .ok value :=
    Json.Value.read_eq_ok_of_map_eq (fun _ _ => Json.Text.read_settle) kept.symm success
  have alike := congrArg (List.map spelling) kept
  simp only [List.map_map, Function.comp_def, spelling_mapText_settle] at alike
  refine ⟨out, ?_, again, alike, spaced, ?_⟩
  · rw [toJson]
    exact (if_pos whole).trans rendered
  · exact (Json.Lexeme.spaced_scan (Json.orderly_of_read again).meaningful).1

/-- A map with the mark of a comment in a key, a list over two lines and an empty map. -/
def nestedJson : List Char :=
  "\x7b\"a//\":[-1.5e3,true,\n\"\\u0041\"],\"b\":\x7b\x7d\x7d".toList

theorem toJson_keeps_json_nested : ∃ value, Json.Value.read nestedJson = .ok value ∧
    Json.Value.read
      " \x7b \"a//\" : [ -1.5e3 , true ,\n\"\\u0041\" ] , \"b\" : \x7b \x7d \x7d".toList =
        .ok value := by
  have reads : (Json.Value.read nestedJson).isOk = true := by decide +kernel
  have translated : toJson nestedJson =
      .ok " \x7b \"a//\" : [ -1.5e3 , true ,\n\"\\u0041\" ] , \"b\" : \x7b \x7d \x7d".toList := by
    decide +kernel
  cases success : Json.Value.read nestedJson with
  | error fault =>
      rw [success] at reads
      cases reads
  | ok value =>
      obtain ⟨out, shown, again, -⟩ := toJson_keeps_json success
      rw [translated] at shown
      cases shown
      exact ⟨value, rfl, again⟩

end ControlStore.Relaxed
