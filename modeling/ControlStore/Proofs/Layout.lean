import ControlStore.Document.Load
import ControlStore.Proofs.DocumentTexts
import ControlStore.Proofs.TextRoom
import ControlStore.Proofs.TokenLexemes

set_option autoImplicit false

/-!
Layout. Texts with the same tokens load alike, whatever gaps separate these. The one place where a
gap shows is the end of the strict text: the digits of an escaped code unit are asked for as bytes
of the whole text, so newlines behind a quoted text can stand for digits that it does not have.
-/
namespace ControlStore

-- Sums are those of the core library, whatever else is imported beside this module.
attribute [local instance (2000)] Zero.ofOfNat0

namespace Json

/-- A text that ends before as many bytes as the digits of an escaped code unit take. -/
def CutsEscape (source : List Char) : Prop :=
  ∃ front back, source = front ++ '\\' :: 'u' :: back ∧ (back.map Char.utf8Size).sum < 4

/-- Faults that are the same, but for an escape that is cut by the end of a text. -/
inductive EndAlike (source : List Char) : Fault → Fault → Prop where
  | same (fault : Fault) : EndAlike source fault fault
  | cut : CutsEscape source → EndAlike source .unfinishedText .badEscape

/-! ### Texts of a source -/

/-- Fewer than four bytes are fewer than four characters. -/
theorem take_four_of_few {text : List Char}
    (few : ((text.take 4).map Char.utf8Size).sum < 4) : text.take 4 = text := by
  refine List.take_of_length_le ?_
  rcases text with _ | ⟨a, _ | ⟨b, _ | ⟨c, _ | ⟨d, rest⟩⟩⟩⟩
  · exact Nat.zero_le 4
  · simp
  · simp
  · simp
  · have first := a.utf8Size_pos
    have second := b.utf8Size_pos
    have third := c.utf8Size_pos
    have fourth := d.utf8Size_pos
    simp only [List.take_succ_cons, List.take_zero, List.map_cons, List.map_nil, List.sum_cons,
      List.sum_nil] at few
    omega

/-- A quoted text is a part of the source, and what follows its body is its room. -/
theorem Lexeme.mem_scan_text {source : List Char} {quoted : Text}
    (member : text quoted ∈ scan source) : ∃ front behind,
      source = front ++ (quoted.body ++ behind) ∧
        quoted.room = ((behind.take 4).map Char.utf8Size).sum := by
  induction source using scan_induction with
  | empty => cases member
  | blank first rest blank ih =>
      rw [scan_blank blank] at member
      obtain ⟨front, behind, rfl, room⟩ := ih member
      exact ⟨first :: front, behind, rfl, room⟩
  | lexeme first rest dark ih =>
      rw [scan_front dark] at member
      rcases List.mem_cons.mp member with here | later
      · have found := front_cases first rest
        generalize front first rest = cut at found here
        cases found with
        | quoted =>
            cases here
            exact ⟨[first], _, congrArg (first :: ·) (List.take_append_drop _ rest).symm, rfl⟩
        | mark lexeme mark =>
            subst here
            cases mark
        | word =>
            revert here
            unfold ofWord
            split_ifs <;> exact fun here => by cases here
        | number | stray => cases here
      · obtain ⟨front', behind, split, room⟩ := ih later
        have whole := (List.take_append_drop (front first rest).2 rest).symm
        rw [split, ← List.append_assoc] at whole
        exact ⟨first :: _, behind, congrArg (first :: ·) whole, room⟩

theorem escapesAlike_of_mem_scan {source : List Char} {quoted : Text}
    (member : .text quoted ∈ Lexeme.scan source) : quoted.EscapesAlike (EndAlike source) := by
  intro front back body
  by_cases unclosed : quoted.room = 0
  · rw [unclosed, quoted.spread_room_eq_zero_iff.mpr unclosed]
    exact .same _
  have four : quoted.spread.room = 4 := by
    change 4 * min quoted.room 1 = 4
    omega
  have enough : Text.unitFault 4 back = .badEscape := if_neg (by omega)
  rw [four, enough, Text.unitFault]
  split
  · rename_i few
    obtain ⟨before, behind, split, room⟩ := Lexeme.mem_scan_text member
    refine .cut ⟨before ++ front, back ++ behind, ?_, ?_⟩
    · rw [split, body, List.append_assoc, List.append_assoc]
      rfl
    · have inside : back.take 4 = back := take_four_of_few (by omega)
      have outside : behind.take 4 = behind := take_four_of_few (by omega)
      rw [inside, room, outside] at few
      rwa [List.map_append, List.sum_append]
  · exact .same _

/-! ### Spread texts -/

open Classical in
/-- A text spread, unless an escape of it would be told otherwise. -/
noncomputable def Text.spreadIfAlike (told : Fault → Fault → Prop) (quoted : Text) : Text :=
  if quoted.EscapesAlike told then quoted.spread else quoted

theorem harmless_spreadIfAlike {told : Fault → Fault → Prop} (alike : ∀ fault, told fault fault) :
    Harmless told (Text.spreadIfAlike told) where
  alike := alike
  read quoted := by
    unfold Text.spreadIfAlike
    split_ifs with escapes
    · exact Text.read_spread alike escapes
    · exact Matched.refl alike _
  skip quoted := by
    unfold Text.spreadIfAlike
    split_ifs with escapes
    · exact Text.skip_spread alike escapes
    · cases quoted.skip with
      | none => exact .none
      | some fault => exact .some (alike fault)

/-- All texts of a source can be spread. -/
theorem map_spreadIfAlike_scan (source : List Char) :
    (Lexeme.scan source).map (Lexeme.mapText (Text.spreadIfAlike (EndAlike source))) =
      (Lexeme.scan source).map (Lexeme.mapText Text.spread) := by
  refine List.map_congr_left fun lexeme member => ?_
  cases lexeme with
  | text quoted => exact congrArg Lexeme.text (if_pos (escapesAlike_of_mem_scan member))
  | _ => rfl

end Json

namespace Document

open Json (Lexeme Tree Harmless Text)

/-- The document that lexemes hold. -/
def ofLexemes (lexemes : List Lexeme) : Except Fault Document := do
  let document ← ofTree (Tree.read lexemes).1
  if (Tree.read lexemes).2 = [] then return document else throw (.json .trailingCharacters)

theorem read_eq_ofLexemes (source : List Char) : read source = ofLexemes (Lexeme.scan source) := rfl

theorem ofLexemes_matched {told : Json.Fault → Json.Fault → Prop} {f : Text → Text}
    (harmless : Harmless told f) (lexemes : List Lexeme) :
    Matched (Alike told) Eq (ofLexemes lexemes) (ofLexemes (lexemes.map (Lexeme.mapText f))) := by
  have mapped : Tree.read (lexemes.map (Lexeme.mapText f)) =
      (Tree.read lexemes).map (Tree.mapText f) (List.map (Lexeme.mapText f)) := by
    rw [Tree.read, List.length_map, (Json.natural f _).tree, Tree.read]
  rw [ofLexemes, ofLexemes, mapped]
  refine (ofTree_blind harmless _).bind ?_
  rintro document _ rfl
  rw [Prod.map_snd]
  cases (Tree.read lexemes).2 with
  | nil => exact rfl
  | cons => exact Alike.same _

/-- Every source is read like its lexemes with their texts spread, but for an escape that the end
of the source cuts. -/
theorem read_matched_spread (source : List Char) :
    Matched (Alike (Json.EndAlike source)) Eq (read source)
      (ofLexemes ((Lexeme.scan source).map (Lexeme.mapText Text.spread))) := by
  rw [← Json.map_spreadIfAlike_scan, read_eq_ofLexemes]
  exact ofLexemes_matched (Json.harmless_spreadIfAlike .same) _

/-- A source ends inside an escape, and is told to end there; what else stands behind the same
texts, the escape is told to be wrong. -/
def CutApart (source : List Char) (fault fault' : Fault) : Prop :=
  Json.CutsEscape source ∧ fault = .json .unfinishedText ∧ fault' = .json .badEscape

theorem alike_cases {source : List Char} {fault fault' : Fault}
    (alike : Alike (Json.EndAlike source) fault fault') :
    fault = fault' ∨ CutApart source fault fault' := by
  rcases alike with ⟨_ | cut⟩ | _
  · exact Or.inl rfl
  · exact Or.inr ⟨cut, rfl, rfl⟩
  · exact Or.inl rfl

/-- Sources with the same lexemes are read alike, but for an escape that the end of one cuts. -/
theorem read_layout {first second : List Char}
    (same : Relaxed.settled first = Relaxed.settled second) :
    Matched (fun fault fault' => fault = fault' ∨ CutApart first fault fault' ∨
      CutApart second fault' fault) Eq (read first) (read second) := by
  have spread (source : List Char) : (Relaxed.settled source).map (Lexeme.mapText Text.spread) =
      (Lexeme.scan source).map (Lexeme.mapText Text.spread) := by
    rw [Relaxed.settled, List.map_map]
    refine List.map_congr_left fun lexeme _ => ?_
    cases lexeme with
    | text quoted => exact congrArg Lexeme.text quoted.spread_settle
    | _ => rfl
  have here := read_matched_spread first
  rw [← spread, same, spread] at here
  refine (here.meet (read_matched_spread second)).imp ?_ ?_
  · rintro fault fault' ⟨common, alike, alike'⟩
    rcases alike_cases alike with rfl | cut
    · rcases alike_cases alike' with rfl | cut'
      · exact Or.inl rfl
      · exact Or.inr (Or.inr cut')
    · rcases alike_cases alike' with rfl | cut'
      · exact Or.inr (Or.inl cut)
      · exact Or.inl (cut.2.1.trans cut'.2.1.symm)
  · rintro document _ ⟨_, rfl, rfl⟩
    rfl

end Document

/-! ### Loading -/

/-- Strict texts of the same tokens have the same lexemes; a token that is not allowed is told for
both. -/
theorem Relaxed.toJson_layout {first second : List Char} (whole : (scan first).rest = [])
    (same : SameTokens first second) :
    Matched (fun fault fault' => fault.found = fault'.found)
      (fun strict strict' => settled strict = settled strict') (toJson first) (toJson second) := by
  have chunks (text : List Char) : (tokens (scan text).chunks).map Token.chunk =
      (scan text).tokens := map_chunk_tokensFrom 1 0 (scan text).chunks
  have tokens : (tokens (scan first).chunks).map Token.chunk =
      (tokens (scan second).chunks).map Token.chunk := by
    rw [chunks, chunks, same.1]
  rw [toJson, toJson]
  dsimp only
  rw [if_pos whole, if_pos (same.2 ▸ whole)]
  rcases (render_matched tokens).error_or_ok with
    ⟨fault, fault', failed, failed', told⟩ | ⟨out, out', rendered, rendered', -⟩
  · rw [failed, failed']
    exact told
  · rw [rendered, rendered']
    change settled out = settled out'
    rw [settled_of_render rendered, settled_of_render rendered', same.1]

/-- Errors of the same kind and content; only the lines may differ. -/
inductive LoadError.SameContent : LoadError → LoadError → Prop where
  | syntaxFault (line line' : Nat) (found : String) :
      SameContent (.syntaxFault ⟨line, found⟩) (.syntaxFault ⟨line', found⟩)
  | same (error : LoadError) : SameContent error error

/-- One text is told to end inside an escape, as its strict form does; of the other the same escape
is told to be wrong. -/
structure MissedEscape (early late : List Char) : Prop where
  cut : ∃ strict, Relaxed.toJson early = .ok strict ∧ Json.CutsEscape strict
  early : Loaded.ofText early = .error (.document (.json .unfinishedText))
  late : Loaded.ofText late = .error (.document (.json .badEscape))

/-- Texts with the same tokens load alike: both fail with the same fault or both give the same
schema and program. Only of an escape that the end of a strict form cuts the fault may differ. -/
theorem Loaded.ofText_layout {first second : List Char} (whole : (Relaxed.scan first).rest = [])
    (same : Relaxed.SameTokens first second) :
    Matched LoadError.SameContent Eq (ofText first) (ofText second) ∨
      MissedEscape first second ∨ MissedEscape second first := by
  rcases (Relaxed.toJson_layout whole same).error_or_ok with
    ⟨fault, fault', failed, failed', told⟩ | ⟨strict, strict', success, success', lexemes⟩
  · left
    rw [ofText, ofText, failed, failed']
    change LoadError.SameContent (.syntaxFault ⟨fault.line, fault.found⟩) (.syntaxFault fault')
    rw [told]
    exact .syntaxFault fault.line fault'.line fault'.found
  · have failed {text strict : List Char} {fault : Document.Fault}
        (success : Relaxed.toJson text = .ok strict) (failed : Document.read strict = .error fault) :
        ofText text = .error (.document fault) := by
      rw [ofText, success]
      dsimp only
      rw [failed]
    rcases (Document.read_layout lexemes).error_or_ok with
      ⟨fault, fault', here, there, told⟩ | ⟨document, document', here, there, rfl⟩
    · rcases told with rfl | ⟨cut, rfl, rfl⟩ | ⟨cut, rfl, rfl⟩
      · left
        rw [failed success here, failed success' there]
        exact .same _
      · exact Or.inr (Or.inl ⟨⟨strict, success, cut⟩, failed success here, failed success' there⟩)
      · exact Or.inr (Or.inr ⟨⟨strict', success', cut⟩, failed success' there, failed success here⟩)
    · left
      rw [ofText, ofText, success, success']
      dsimp only
      rw [here, there]
      exact Matched.refl .same _

/-- Of two texts that load alike, one that loads takes the other with it. -/
theorem Loaded.ofText_eq_ok_of_layout {first second : List Char} {loaded : Loaded}
    (success : ofText first = .ok loaded)
    (layout : Matched LoadError.SameContent Eq (ofText first) (ofText second) ∨
      MissedEscape first second ∨ MissedEscape second first) : ofText second = .ok loaded := by
  rcases layout with matched | missed | missed
  · obtain ⟨_, found, rfl⟩ := matched.exists_ok success
    exact found
  · cases success.symm.trans missed.early
  · cases success.symm.trans missed.late

/-- A document on one line, and with blanks, a comment and newlines in its gaps. -/
theorem Loaded.ofText_layout_commented :
    ∃ loaded, ofText "\x7bopcodes:\x7bNOP:0x1\x7d,states:[]\x7d".toList = .ok loaded ∧
      ofText "\x7b opcodes : \x7bNOP:0x1\x7d, // one\n\n states:[\t] \x7d\n".toList =
        .ok loaded := by
  obtain ⟨loaded, success⟩ :
      ∃ loaded, ofText "\x7bopcodes:\x7bNOP:0x1\x7d,states:[]\x7d".toList = .ok loaded :=
    exists_ok_of_isOk (by decide +kernel)
  exact ⟨loaded, success, ofText_eq_ok_of_layout success
    (ofText_layout (by decide +kernel) ⟨by decide +kernel, by decide +kernel⟩)⟩

theorem Loaded.ofText_eq_error {text : List Char} {error : LoadError}
    (told : (match ofText text with
      | .error error => some error
      | .ok _ => none) = some error) : ofText text = .error error := by
  split at told
  · rename_i found
    rw [found, Option.some.inj told]
  · cases told

/-- Newlines before the last bracket are taken for digits of an escape that has none. -/
theorem Loaded.ofText_layout_cut_escape :
    (Relaxed.scan "[\"\\u\"]".toList).rest = [] ∧
      Relaxed.SameTokens "[\"\\u\"]".toList "[\"\\u\"\n\n]".toList ∧
        ¬ Matched LoadError.SameContent Eq (ofText "[\"\\u\"]".toList)
          (ofText "[\"\\u\"\n\n]".toList) := by
  have early : ofText "[\"\\u\"]".toList = .error (.document (.json .unfinishedText)) :=
    ofText_eq_error (by decide +kernel)
  have late : ofText "[\"\\u\"\n\n]".toList = .error (.document (.json .badEscape)) :=
    ofText_eq_error (by decide +kernel)
  refine ⟨by decide +kernel, ⟨by decide +kernel, by decide +kernel⟩, ?_⟩
  rw [early, late]
  intro told
  cases told

end ControlStore
