import ControlStore.Proofs.LongestMatch

set_option autoImplicit false

/-!
Scanning chunk by chunk. The scan of a text is its longest chunk and the scan of what is behind it;
blanks leave no token, and a token followed by something it cannot hold is scanned as itself.
-/
namespace ControlStore.Relaxed

/-- The chunks of a scan that are no gaps. -/
def Scan.tokens (scanned : Scan) : List Chunk := scanned.chunks.filter fun chunk => !chunk.kind.isGap

/-- Passing over characters of a chunk already cut scans what is behind them. -/
theorem scanFrom_eq_scan_drop (passing : Nat) (text : List Char) :
    scanFrom passing text = scan (text.drop passing) := by
  induction text generalizing passing with
  | nil => cases passing <;> rfl
  | cons first rest ih =>
      cases passing with
      | zero => rfl
      | succ passing => exact ih passing

-- Unfolding must not look into the search for the longest chunk of an unknown text.
seal longest? in
theorem scan_cons (first : Char) (rest : List Char) :
    scan (first :: rest) =
      match longest? (first :: rest) with
      | none => ⟨[], first :: rest⟩
      | some (kind, length) =>
          ⟨⟨kind, (first :: rest).take length⟩ :: (scanFrom (length - 1) rest).chunks,
            (scanFrom (length - 1) rest).rest⟩ := rfl

theorem scan_of_longest?_eq_none {text : List Char} (some : text ≠ [])
    (stuck : longest? text = none) : scan text = ⟨[], text⟩ := by
  obtain ⟨first, rest, rfl⟩ := List.exists_cons_of_ne_nil some
  rw [scan_cons, stuck]

theorem scan_of_cuts {kind : Kind} {front rest : List Char}
    (cut : kind.Cuts front (front ++ rest)) :
    scan (front ++ rest) = ⟨⟨kind, front⟩ :: (scan rest).chunks, (scan rest).rest⟩ := by
  have found := longest?_eq_some_iff.mpr ⟨front, cut, rfl⟩
  have whole : (front ++ rest).take front.length = front := List.take_left
  obtain ⟨first, more, rfl⟩ := List.exists_cons_of_length_pos cut.spells.length_pos
  rw [List.cons_append] at found whole ⊢
  rw [scan_cons, found]
  dsimp only
  rw [whole, scanFrom_eq_scan_drop, List.length_cons, Nat.add_sub_cancel, List.drop_left]

/-- A text is empty, or nothing matches, or a chunk is cut off: what holds of the first two and of
a chunk before a text of which it holds, holds of all texts. -/
theorem scan_induction {motive : List Char → Prop} (empty : motive [])
    (stuck : ∀ text, text ≠ [] → longest? text = none → motive text)
    (cut : ∀ (kind : Kind) (front rest : List Char), kind.Cuts front (front ++ rest) →
      motive rest → motive (front ++ rest)) (text : List Char) : motive text := by
  induction size : text.length using Nat.strongRecOn generalizing text with
  | ind length ih =>
      by_cases nonempty : text = []
      · exact nonempty ▸ empty
      · cases found : longest? text with
        | none => exact stuck text nonempty found
        | some winner =>
            obtain ⟨front, cuts, -⟩ := longest?_eq_some_iff.mp found
            obtain ⟨rest, rfl⟩ := cuts.starts
            have some := cuts.spells.length_pos
            rw [List.length_append] at size
            exact cut winner.1 front rest cuts (ih rest.length (by omega) rest rfl)

/-- Every chunk is spelled as its kind demands. -/
theorem scan_spells (text : List Char) :
    ∀ chunk ∈ (scan text).chunks, chunk.kind.Spells chunk.text := by
  induction text using scan_induction with
  | empty => exact fun chunk member => absurd member List.not_mem_nil
  | stuck text some stuck =>
      rw [scan_of_longest?_eq_none some stuck]
      exact fun chunk member => absurd member List.not_mem_nil
  | cut kind front rest cuts ih =>
      rw [scan_of_cuts cuts]
      exact List.forall_mem_cons.mpr ⟨cuts.spells, ih⟩

theorem tokens_spell (text : List Char) :
    ∀ chunk ∈ (scan text).tokens, chunk.kind.Spells chunk.text ∧ chunk.kind.isGap = false := by
  intro chunk member
  obtain ⟨inside, token⟩ := List.mem_filter.mp member
  exact ⟨scan_spells text chunk inside, by simpa using token⟩

/-- Two texts with the same tokens that are left at the same place. -/
def SameTokens (first second : List Char) : Prop :=
  (scan first).tokens = (scan second).tokens ∧ (scan first).rest = (scan second).rest

/-- A gap adds no token. -/
theorem sameTokens_of_cuts {kind : Kind} {front rest : List Char} (gap : kind.isGap = true)
    (cut : kind.Cuts front (front ++ rest)) : SameTokens (front ++ rest) rest := by
  rw [SameTokens, scan_of_cuts cut]
  refine ⟨?_, rfl⟩
  simp only [Scan.tokens, List.filter_cons, gap]
  rfl

theorem SameTokens.trans {first second third : List Char} (one : SameTokens first second)
    (two : SameTokens second third) : SameTokens first third :=
  ⟨one.1.trans two.1, one.2.trans two.2⟩

theorem SameTokens.symm {first second : List Char} (same : SameTokens first second) :
    SameTokens second first :=
  ⟨same.1.symm, same.2.symm⟩

/-- The blanks at the front of a text are one chunk, unless there are none. -/
theorem blanks_cases (text : List Char) :
    text.takeWhile isBlank = [] ∧ text.dropWhile isBlank = text ∨
      Kind.blanks.Cuts (text.takeWhile isBlank)
        (text.takeWhile isBlank ++ text.dropWhile isBlank) := by
  by_cases nothing : text.takeWhile isBlank = []
  · have whole := List.takeWhile_append_dropWhile (p := isBlank) (l := text)
    rw [nothing, List.nil_append] at whole
    exact Or.inl ⟨nothing, whole⟩
  · have spelled : Kind.blanks.Spells (text.takeWhile isBlank) :=
      ⟨nothing, fun c member => List.mem_takeWhile_imp member⟩
    refine Or.inr (spelled.cuts_blanks ?_)
    intro c next
    have stops := List.head?_dropWhile_not isBlank text
    rw [next] at stops
    simpa using stops

/-- Blanks at the front add no token, wherever they end. -/
theorem sameTokens_blanks {front : List Char} (blanks : ∀ c ∈ front, isBlank c = true)
    (rest : List Char) : SameTokens (front ++ rest) rest := by
  -- All blanks from some place on are one chunk, so both texts are left behind the same chunk.
  have dropped (text : List Char) : SameTokens text (text.dropWhile isBlank) := by
    rcases blanks_cases text with ⟨-, same⟩ | cut
    · rw [same]
      exact ⟨rfl, rfl⟩
    · have skipped := sameTokens_of_cuts rfl cut
      rwa [List.takeWhile_append_dropWhile] at skipped
  have behind : (front ++ rest).dropWhile isBlank = rest.dropWhile isBlank :=
    List.dropWhile_append_of_pos blanks
  exact (dropped (front ++ rest)).trans (behind ▸ (dropped rest).symm)

/-- A text that no token before it reaches into. -/
def Apart (rest : List Char) : Prop := ∀ c, rest.head? = some c → isInner c = false

/-- A token before a text that it does not reach into is scanned as itself. -/
theorem Kind.Spells.cuts {kind : Kind} {front rest : List Char} (spelled : kind.Spells front)
    (token : kind.isGap = false) (apart : Apart rest) : kind.Cuts front (front ++ rest) := by
  cases closed : kind.endsItself with
  | true => exact spelled.cuts_endsItself closed rest
  | false => exact spelled.cuts_open token closed apart

theorem tokens_of_cuts {kind : Kind} {front rest : List Char} (token : kind.isGap = false)
    (cut : kind.Cuts front (front ++ rest)) :
    (scan (front ++ rest)).tokens = ⟨kind, front⟩ :: (scan rest).tokens ∧
      (scan (front ++ rest)).rest = (scan rest).rest := by
  rw [scan_of_cuts cut]
  refine ⟨?_, rfl⟩
  simp only [Scan.tokens, List.filter_cons, token]
  rfl

end ControlStore.Relaxed
