import ControlStore.Proofs.SyntaxFaults

set_option autoImplicit false

/-!
Lines of strict text. A token is written behind as many newlines as the gap before it has, and its
strict form has the newlines that the token has; so every token stays on its line, whatever precedes
it, and nothing follows the last one.
-/
namespace ControlStore.Relaxed

-- Sums are those of the core library, whatever else is imported beside this module.
attribute [local instance (2000)] Zero.ofOfNat0

/-! ### Newlines of strict forms -/

theorem newlines_eq_zero_iff {text : List Char} : newlines text = 0 ↔ '\n' ∉ text :=
  List.count_eq_zero

theorem newlines_lead (gap : Nat) : newlines (lead gap) = gap := by
  unfold lead
  split
  · rename_i none
    subst none
    rfl
  · exact List.count_replicate_self

/-- Words and numbers hold no newline. -/
theorem newlines_of_open {kind : Kind} {text : List Char} (spelled : kind.Spells text)
    (token : kind.isGap = false) (opened : kind.endsItself = false) : newlines text = 0 := by
  rw [newlines_eq_zero_iff]
  intro member
  exact absurd (spelled.inner token opened '\n' member) (by decide)

theorem newline_not_mem_escape (c : Char) : '\n' ∉ Json.Text.escape c := by
  have form := Json.Text.escaped c
  generalize Json.Text.escape c = spelling at form ⊢
  cases form with
  | short meant =>
      have noBreak := (Json.Text.ne_of_shortEscape? meant).1
      simp [noBreak.symm]
  | code control =>
      have digits := Hex.isSome_digitValue?_of_read? (Json.Text.read?_code control) '\n'
      intro member
      simp only [List.mem_cons] at member
      rcases member with impossible | impossible | inside
      · exact absurd impossible (by decide)
      · exact absurd impossible (by decide)
      · exact absurd (digits inside) (by decide)
  | plain _ _ printable =>
      intro member
      rw [← List.mem_singleton.mp member] at printable
      exact printable (by decide)

/-- A written text has no newline, whatever the text holds. -/
theorem newlines_write (text : List Char) : newlines (Json.Text.write text) = 0 := by
  rw [newlines_eq_zero_iff]
  intro member
  simp only [Json.Text.write, Json.Text.spell, List.mem_cons, List.mem_append, List.mem_flatMap,
    List.not_mem_nil, or_false] at member
  rcases member with impossible | inside | impossible
  · exact absurd impossible (by decide)
  · obtain ⟨c, -, escaped⟩ := inside
    exact newline_not_mem_escape c escaped
  · exact absurd impossible (by decide)

/-- The strict form of a token has as many newlines as the token. -/
theorem newlines_image {kind : Kind} {text image : List Char} {next : Option Kind}
    (spelled : kind.Spells text) (token : kind.isGap = false)
    (success : image? kind text next = some image) : newlines image = newlines text := by
  cases kind with
  | blanks | lineComment | blockComment => cases token
  | comma =>
      have text_eq : text = [','] := spelled
      subst text_eq
      cases success
      split <;> rfl
  | word =>
      rw [newlines_of_open spelled rfl rfl]
      by_cases key : next = some .colon
      · simp only [image?, if_pos key, Option.some.injEq] at success
        rw [← success, newlines_write]
      · simp only [image?, if_neg key] at success
        split at success
        · cases success
          exact newlines_of_open spelled rfl rfl
        · cases success
  | singleQuoted =>
      obtain ⟨body, rfl, inside⟩ := spelled
      have plain : newlines body = 0 := by
        rw [newlines_eq_zero_iff]
        intro member
        exact absurd (inside '\n' member) (by decide)
      cases success
      rw [newlines_write, newlines, List.count_cons, List.count_append]
      change 0 = newlines body + 0 + 0
      rw [plain]
  | hex =>
      obtain ⟨value, -, rfl⟩ := hexImage?_eq_some success
      rw [newlines_of_open spelled rfl rfl, newlines_of_open (toDigits_spells value) rfl rfl]
  | braceOpen | braceClose | bracketOpen | bracketClose | colon | doubleQuoted | number =>
      cases success
      rfl

/-! ### Tokens and what stands before them -/

/-- The tokens among chunks that stand behind some text, each with all that stands before it. -/
def placed (before : List Char) : List Chunk → List (List Char × Chunk)
  | [] => []
  | chunk :: rest =>
      if chunk.kind.isGap then placed (before ++ chunk.text) rest
      else (before, chunk) :: placed (before ++ chunk.text) rest

/-- The tokens of a text, each with all that stands before it. -/
def located (text : List Char) : List (List Char × Chunk) := placed [] (scan text).chunks

/-- Tokens with the number of newlines before them. -/
def lined (tokens : List (List Char × Chunk)) : List (Nat × Chunk) :=
  tokens.map fun token => (newlines token.1, token.2)

/-- The tokens that tokens become, each behind as many newlines as before. -/
def strictLined : List (Nat × Chunk) → List (Nat × Chunk)
  | [] => []
  | (lines, chunk) :: rest =>
      ((chunk.strict? (rest.head?.map (·.2.kind))).map (lines, ·)).toList ++ strictLined rest

theorem placed_of_cuts {kind : Kind} {front rest : List Char} (before : List Char)
    (cut : kind.Cuts front (front ++ rest)) :
    placed before (scan (front ++ rest)).chunks =
      if kind.isGap then placed (before ++ front) (scan rest).chunks
      else (before, ⟨kind, front⟩) :: placed (before ++ front) (scan rest).chunks := by
  rw [scan_of_cuts cut, placed]

/-- Blanks at the front only stand before what follows, wherever they end. -/
theorem placed_blanks {front : List Char} (blanks : ∀ c ∈ front, isBlank c = true)
    (before rest : List Char) :
    placed before (scan (front ++ rest)).chunks =
      placed (before ++ front) (scan rest).chunks := by
  -- All blanks from some place on are one chunk, so both texts are left behind the same chunk.
  have dropped (before text : List Char) :
      placed before (scan text).chunks =
        placed (before ++ text.takeWhile isBlank) (scan (text.dropWhile isBlank)).chunks := by
    rcases blanks_cases text with ⟨nothing, same⟩ | cut
    · rw [nothing, same, List.append_nil]
    · have skipped := placed_of_cuts before cut
      rwa [List.takeWhile_append_dropWhile] at skipped
  have taken : (front ++ rest).takeWhile isBlank = front ++ rest.takeWhile isBlank :=
    List.takeWhile_append_of_pos blanks
  have behind : (front ++ rest).dropWhile isBlank = rest.dropWhile isBlank :=
    List.dropWhile_append_of_pos blanks
  rw [dropped before, dropped (before ++ front), taken, behind, List.append_assoc]

/-- What is rendered for a token, before a text that it does not reach into: the blanks before it
and, unless it is dropped, the token that it becomes. -/
theorem placed_image {chunk : Chunk} {image : List Char} {next : Option Kind}
    (spelled : chunk.kind.Spells chunk.text) (token : chunk.kind.isGap = false)
    (success : image? chunk.kind chunk.text next = some image) {behind : List Char}
    (apart : Apart behind) (before : List Char) (gap : Nat) :
    placed before (scan (lead gap ++ (image ++ behind))).chunks =
      ((chunk.strict? next).map (before ++ lead gap, ·)).toList ++
        placed (before ++ lead gap ++ image) (scan behind).chunks := by
  rw [placed_blanks (lead_blank gap)]
  rcases strict?_cases spelled token success with
    ⟨dropped, rfl⟩ | ⟨strict, becomes, rfl, spells, isToken⟩
  · rw [dropped, List.nil_append, List.append_nil]
    rfl
  · rw [becomes, placed_of_cuts _ (spells.cuts isToken apart), isToken]
    rfl

/-! ### Lines -/

theorem lined_append (front back : List (List Char × Chunk)) :
    lined (front ++ back) = lined front ++ lined back := List.map_append

theorem head?_kind_placed (before : List Char) (chunks : List Chunk) :
    (lined (placed before chunks)).head?.map (·.2.kind) = nextKind chunks := by
  induction chunks generalizing before with
  | nil => rfl
  | cons chunk rest ih =>
      rw [placed, nextKind, List.find?_cons]
      cases chunk.kind.isGap with
      | true => exact ih _
      | false => rfl

/-- The tokens of chunks are spelled as those are. -/
theorem tokensFrom_spell {chunks : List Chunk}
    (spelled : ∀ chunk ∈ chunks, chunk.kind.Spells chunk.text) (line gap : Nat) :
    ∀ chunk ∈ (tokensFrom line gap chunks).map Token.chunk,
      chunk.kind.Spells chunk.text ∧ chunk.kind.isGap = false := by
  intro chunk member
  rw [map_chunk_tokensFrom] at member
  obtain ⟨inside, token⟩ := List.mem_filter.mp member
  exact ⟨spelled chunk inside, by simpa using token⟩

/-- The invariant of rendering: what has been shown and the newlines of the gap that is still open
make up the newlines of what has been read. From there on every token stays on its line. -/
theorem lined_render {chunks : List Chunk}
    (spelled : ∀ chunk ∈ chunks, chunk.kind.Spells chunk.text) {line gap : Nat}
    {before shown out : List Char} (same : newlines shown + gap = newlines before)
    (success : render (tokensFrom line gap chunks) = .ok out) :
    lined (placed shown (scan out).chunks) = strictLined (lined (placed before chunks)) := by
  induction chunks generalizing line gap before shown out with
  | nil =>
      cases success
      rfl
  | cons chunk rest ih =>
      obtain ⟨here, later⟩ := List.forall_mem_cons.mp spelled
      by_cases blank : chunk.kind.isGap = true
      · -- Nothing is shown for a gap; its newlines join those of the open gap.
        rw [tokensFrom, if_pos blank] at success
        rw [placed, if_pos blank]
        refine ih later ?_ success
        rw [newlines_append]
        omega
      · have token : chunk.kind.isGap = false := by simpa using blank
        rw [tokensFrom, if_neg blank] at success
        rw [placed, if_neg blank]
        obtain ⟨image, behind, found, rendered, rfl⟩ := render_cons success
        rw [head?_kind_tokensFrom] at found
        obtain ⟨apart, -, -⟩ := scan_render (tokensFrom_spell later _ _) rendered
        have passed : newlines (shown ++ lead gap) = newlines before := by
          rw [newlines_append, newlines_lead, same]
        have onward : newlines (shown ++ lead gap ++ image) + 0 =
            newlines (before ++ chunk.text) := by
          have kept := newlines_image here token found
          rw [newlines_append, newlines_append before]
          omega
        rw [placed_image here token found apart, lined_append, ih later onward rendered]
        change _ = strictLined ((newlines before, chunk) :: lined (placed _ rest))
        rw [strictLined, head?_kind_placed, ← passed]
        congr 1
        cases Chunk.strict? chunk (nextKind rest) <;> rfl

/-- The last token stays: what ends a list or a map follows every comma that is dropped. -/
theorem isSome_strict?_none (chunk : Chunk) : (chunk.strict? none).isSome = true := by
  obtain ⟨kind, text⟩ := chunk
  cases kind <;> rfl

/-- Rendered tokens end with the last of them. -/
theorem render_ends {tokens : List Token}
    (spelled : ∀ chunk ∈ tokens.map Token.chunk,
      chunk.kind.Spells chunk.text ∧ chunk.kind.isGap = false)
    (shown : List Char) {out : List Char} (success : render tokens = .ok out) :
    (tokens = [] ∧ out = []) ∨
      ∃ before token, (placed shown (scan out).chunks).getLast? = some (before, token) ∧
        shown ++ out = before ++ token.text := by
  induction tokens generalizing shown out with
  | nil =>
      cases success
      exact Or.inl ⟨rfl, rfl⟩
  | cons token rest ih =>
      obtain ⟨here, later⟩ := List.forall_mem_cons.mp spelled
      obtain ⟨image, behind, found, rendered, rfl⟩ := render_cons success
      obtain ⟨apart, -, -⟩ := scan_render later rendered
      refine Or.inr ?_
      rw [placed_image here.1 here.2 found apart, List.getLast?_append]
      rcases ih later (shown ++ lead token.gap ++ image) rendered with
        ⟨rfl, rfl⟩ | ⟨before, last, final, whole⟩
      · rcases strict?_cases here.1 here.2 found with
          ⟨dropped, -⟩ | ⟨strict, becomes, same, -, -⟩
        · have stays := isSome_strict?_none token.chunk
          rw [show token.chunk.strict? none = none from dropped] at stays
          cases stays
        · refine ⟨shown ++ lead token.gap, strict, ?_, ?_⟩
          · rw [becomes]
            rfl
          · rw [same, List.append_nil, List.append_assoc]
      · refine ⟨before, last, ?_, ?_⟩
        · rw [final, Option.some_or]
        · rw [← whole, List.append_assoc, List.append_assoc]

/-- Every token stays on its line. The tokens of the strict text are those that the tokens become,
each behind as many newlines as the token it comes from has before it; and the strict text ends with
the last of them. -/
theorem toJson_keeps_lines {text out : List Char} (success : toJson text = .ok out) :
    lined (located out) = strictLined (lined (located text)) ∧
      (out = [] ∨ ∃ before token, (located out).getLast? = some (before, token) ∧
        out = before ++ token.text) := by
  obtain ⟨-, rendered⟩ := toJson_eq_ok success
  have spelled := scan_spells text
  refine ⟨lined_render spelled rfl rendered, ?_⟩
  rcases render_ends (tokensFrom_spell spelled 1 0) [] rendered with ⟨-, none⟩ | ends
  · exact Or.inl none
  · exact Or.inr ends

/-- A line comment, a block comment over two lines, a dropped comma on a line of its own and a
double-quoted text with a newline inside, before a number on the sixth line. -/
theorem toJson_keeps_lines_commented :
    ∃ out, toJson "[// one\n/* two\n*/[0x1F\n,],\"a\nb\",\n2]\n".toList = .ok out ∧
      lined (located out) = [(0, ⟨.bracketOpen, ['[']⟩), (2, ⟨.bracketOpen, ['[']⟩),
        (2, ⟨.number, ['3', '1']⟩), (3, ⟨.bracketClose, [']']⟩), (3, ⟨.comma, [',']⟩),
        (3, ⟨.doubleQuoted, ['"', 'a', '\n', 'b', '"']⟩), (4, ⟨.comma, [',']⟩),
        (5, ⟨.number, ['2']⟩), (5, ⟨.bracketClose, [']']⟩)] ∧
      out.getLast? = some ']' := by
  have success : toJson "[// one\n/* two\n*/[0x1F\n,],\"a\nb\",\n2]\n".toList =
      .ok " [\n\n[ 31\n ] , \"a\nb\" ,\n2 ]".toList := by decide +kernel
  refine ⟨_, success, ?_, by decide⟩
  rw [(toJson_keeps_lines success).1]
  decide +kernel

end ControlStore.Relaxed
