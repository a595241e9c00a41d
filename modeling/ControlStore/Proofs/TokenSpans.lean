import ControlStore.Proofs.TokenLines

set_option autoImplicit false

/-!
A scanned text is its tokens and what is skipped between them. Tokens occupy spans of the text, one
behind the other; each is the longest front of what is left that any kind spells, and no other kind
spells it, so the order in which kinds are tried makes no difference. Every chunk shortens what is
left, so that scanning ends.
-/
namespace ControlStore.Relaxed

-- Sums are those of the core library, whatever else is imported beside this module.
attribute [local instance (2000)] Zero.ofOfNat0

/-! ### Spans -/

def byteLength (text : List Char) : Nat := (text.map Char.utf8Size).sum

theorem byteLength_append (front back : List Char) :
    byteLength (front ++ back) = byteLength front + byteLength back := by
  rw [byteLength, List.map_append, List.sum_append]
  rfl

theorem byteLength_pos {text : List Char} (some : text ≠ []) : 0 < byteLength text := by
  obtain ⟨c, rest, rfl⟩ := List.exists_cons_of_ne_nil some
  have size := c.utf8Size_pos
  rw [byteLength, List.map_cons, List.sum_cons]
  omega

/-- A part of a text, from one byte up to another. -/
structure Span where
  start : Nat
  stop : Nat
deriving DecidableEq, Repr

/-- A piece of a text lies at a span. -/
def Span.Holds (span : Span) (text piece : List Char) : Prop :=
  ∃ front back, text = front ++ (piece ++ back) ∧ span.start = byteLength front ∧
    span.stop = byteLength (front ++ piece)

/-- The span of a token behind some text. -/
def span (token : List Char × Chunk) : Span :=
  ⟨byteLength token.1, byteLength (token.1 ++ token.2.text)⟩

/-- The spans of the tokens of a text. -/
def spans (text : List Char) : List Span := (located text).map span

/-- From one place to the first of some spans, between these, and from the last to another place. -/
def stretchesBetween (first : Nat) (spans : List Span) (last : Nat) : List Span :=
  List.zipWith Span.mk (first :: spans.map (·.stop)) (spans.map (·.start) ++ [last])

/-- What lies before the first token of a text, between its tokens and behind the last. -/
def stretches (text : List Char) : List Span :=
  stretchesBetween 0 (spans text) (byteLength text)

/-- Blanks and comments, one behind the other. -/
inductive Skipped : List Char → Prop where
  | nil : Skipped []
  | chunk {kind : Kind} {front rest : List Char} :
      kind.isGap = true → kind.Spells front → Skipped rest → Skipped (front ++ rest)

theorem Skipped.append {front back : List Char} (skipped : Skipped front) (also : Skipped back) :
    Skipped (front ++ back) := by
  induction skipped with
  | nil => exact also
  | chunk gap spelled _ ih =>
      rw [List.append_assoc]
      exact .chunk gap spelled ih

theorem Skipped.of_spells {kind : Kind} {front : List Char} (gap : kind.isGap = true)
    (spelled : kind.Spells front) : Skipped front := by
  have alone := Skipped.chunk gap spelled .nil
  rwa [List.append_nil] at alone

/-! ### Tokens in a cut text -/

/-- A token stands where it was cut off: it is spelled at the front of what is left, and whatever
else is spelled there is shorter, or is the same token. -/
structure StandsIn (text before : List Char) (token : Chunk) (behind : List Char) : Prop where
  split : text = before ++ (token.text ++ behind)
  isToken : token.kind.isGap = false
  spells : token.kind.Spells token.text
  longest : ∀ (kind : Kind) (front : List Char), front <+: token.text ++ behind →
    kind.Spells front → front.length ≤ token.text.length
  only : ∀ kind : Kind, kind.Spells token.text → kind = token.kind

theorem Kind.Cuts.standsIn {kind : Kind} {front behind : List Char}
    (cut : kind.Cuts front (front ++ behind)) (token : kind.isGap = false) (before : List Char) :
    StandsIn (before ++ (front ++ behind)) before ⟨kind, front⟩ behind :=
  ⟨rfl, token, cut.spells, cut.longest, fun _ spelled => spelled.kind_eq cut.spells⟩

theorem Cutting.exists_standsIn {text rest : List Char} {chunks : List Chunk}
    (cutting : Cutting text chunks rest) (before : List Char) :
    ∀ token ∈ placed before chunks, ∃ behind, StandsIn (before ++ text) token.1 token.2 behind := by
  induction cutting generalizing before with
  | done rest => exact fun token member => absurd member List.not_mem_nil
  | @chunk kind front text rest chunks cut _ ih =>
      have later := ih (before ++ front)
      rw [List.append_assoc] at later
      rw [placed]
      cases gap : kind.isGap with
      | true => exact later
      | false => exact List.forall_mem_cons.mpr ⟨⟨text, cut.standsIn gap before⟩, later⟩

/-- Tokens occupy bytes, one token behind the other, and none before the text they stand behind. -/
theorem Cutting.spans_ordered {text rest : List Char} {chunks : List Chunk}
    (cutting : Cutting text chunks rest) (before : List Char) :
    (∀ held ∈ (placed before chunks).map span,
        byteLength before ≤ held.start ∧ held.start < held.stop) ∧
      ((placed before chunks).map span).Pairwise fun first second => first.stop ≤ second.start := by
  induction cutting generalizing before with
  | done rest => exact ⟨fun held member => absurd member List.not_mem_nil, .nil⟩
  | @chunk kind front text rest chunks cut _ ih =>
      obtain ⟨later, ordered⟩ := ih (before ++ front)
      have some := byteLength_pos (List.ne_nil_of_length_pos cut.spells.length_pos)
      have passed := byteLength_append before front
      have onward : ∀ held ∈ (placed (before ++ front) chunks).map span,
          byteLength before ≤ held.start ∧ held.start < held.stop := by
        intro held member
        obtain ⟨behind, nonempty⟩ := later held member
        exact ⟨by omega, nonempty⟩
      rw [placed]
      cases kind.isGap with
      | true => exact ⟨onward, ordered⟩
      | false =>
          refine ⟨List.forall_mem_cons.mpr ⟨⟨Nat.le_refl _, ?_⟩, onward⟩,
            List.pairwise_cons.mpr ⟨fun held member => (later held member).1, ordered⟩⟩
          change byteLength before < byteLength (before ++ front)
          omega

/-- The invariant of cutting: what was skipped since the last token lies behind it. With all that is
cut off up to the end of the text, every stretch between tokens is skipped. -/
theorem Cutting.skips {text rest : List Char} {chunks : List Chunk}
    (cutting : Cutting text chunks rest) (whole : rest = []) (front : List Char) {gap : List Char}
    (skipped : Skipped gap) :
    ∀ stretch ∈ stretchesBetween (byteLength front) ((placed (front ++ gap) chunks).map span)
        (byteLength (front ++ (gap ++ text))),
      ∃ piece, stretch.Holds (front ++ (gap ++ text)) piece ∧ Skipped piece := by
  induction cutting generalizing front gap with
  | done rest =>
      subst whole
      refine List.forall_mem_singleton.mpr ⟨gap, ⟨front, [], rfl, rfl, ?_⟩, skipped⟩
      rw [List.append_nil]
  | @chunk kind piece text rest chunks cut _ ih =>
      rw [placed]
      cases blank : kind.isGap with
      | true =>
          -- The gap grows by the chunk.
          have later := ih whole front (skipped.append (.of_spells blank cut.spells))
          rwa [List.append_assoc gap, ← List.append_assoc front gap] at later
      | false =>
          -- The gap ends before the token, and another one begins behind it.
          have later := ih whole (front ++ gap ++ piece) .nil
          have same : front ++ gap ++ piece ++ ([] ++ text) =
              front ++ (gap ++ (piece ++ text)) := by
            simp only [List.append_assoc, List.nil_append]
          rw [same, List.append_nil] at later
          exact List.forall_mem_cons.mpr ⟨⟨gap, ⟨front, _, rfl, rfl, rfl⟩, skipped⟩, later⟩

theorem map_snd_placed (before : List Char) (chunks : List Chunk) :
    (placed before chunks).map (·.2) = chunks.filter fun chunk => !chunk.kind.isGap := by
  induction chunks generalizing before with
  | nil => rfl
  | cons chunk rest ih =>
      rw [placed, List.filter_cons]
      cases chunk.kind.isGap with
      | true => exact ih _
      | false => exact congrArg (chunk :: ·) (ih _)

/-! ### Steps of scanning -/

/-- The chunks of a text where a function tells the longest chunk; as many characters as belong to a
chunk already cut are passed over. -/
def scanBy (longest : List Char → Option (Kind × Nat)) : Nat → List Char → Scan
  | _, [] => ⟨[], []⟩
  | passing + 1, _ :: text => scanBy longest passing text
  | 0, first :: text =>
      match longest (first :: text) with
      | none => ⟨[], first :: text⟩
      | some (kind, length) =>
          let after := scanBy longest (length - 1) text
          ⟨⟨kind, (first :: text).take length⟩ :: after.chunks, after.rest⟩

theorem scanBy_cons (longest : List Char → Option (Kind × Nat)) (first : Char) (text : List Char) :
    scanBy longest 0 (first :: text) =
      match longest (first :: text) with
      | none => ⟨[], first :: text⟩
      | some (kind, length) =>
          ⟨⟨kind, (first :: text).take length⟩ :: (scanBy longest (length - 1) text).chunks,
            (scanBy longest (length - 1) text).rest⟩ := rfl

theorem scanBy_longest? (passing : Nat) (text : List Char) :
    scanBy longest? passing text = scanFrom passing text := by
  induction text generalizing passing with
  | nil => cases passing <;> rfl
  | cons first text ih =>
      cases passing with
      | succ passing => exact ih passing
      | zero =>
          change _ = scan (first :: text)
          rw [scanBy_cons, scan_cons]
          cases longest? (first :: text) with
          | none => rfl
          | some found => simp only [ih]

/-- The rules of the kinds need no order of precedence. -/
theorem scanBy_longestIn? {order : List Kind} (complete : ∀ kind, kind ∈ order)
    (text : List Char) : scanBy (longestIn? order) 0 text = scan text := by
  rw [funext (longestIn?_eq complete), scanBy_longest?]
  rfl

/-- One step of scanning: the longest chunk is cut off, and some text is left. -/
def Leaves (text rest : List Char) : Prop :=
  ∃ (kind : Kind) (front : List Char), kind.Cuts front text ∧ text = front ++ rest

theorem Leaves.length_lt {text rest : List Char} (step : Leaves text rest) :
    rest.length < text.length := by
  obtain ⟨kind, front, cut, rfl⟩ := step
  have some := cut.spells.length_pos
  rw [List.length_append]
  omega

/-- Every run of steps ends. -/
theorem wellFounded_leaves : WellFounded fun rest text => Leaves text rest :=
  Subrelation.wf Leaves.length_lt (measure List.length).wf

theorem Cutting.length_le {text rest : List Char} {chunks : List Chunk}
    (cutting : Cutting text chunks rest) : chunks.length ≤ text.length := by
  induction cutting with
  | done rest => exact Nat.zero_le _
  | chunk cut _ ih =>
      have some := cut.spells.length_pos
      rw [List.length_cons, List.length_append]
      omega

/-- A text that is scanned to its end is its tokens and what is skipped between them. The tokens
occupy spans that are not empty, in ascending order, and that do not overlap; the stretches before
the first token, between tokens and behind the last are blanks and comments, one behind the other;
each token is the longest front of what is left that any kind spells, and is spelled by no other
kind. The scan of any text is the same in whatever order the kinds are tried. It ends: no run of
steps goes on for ever, and chunks are cut off, no more than there are characters, until nothing
matches. -/
theorem scan_partitions_text (text : List Char) :
    ((scan text).rest = [] →
      (located text).map (·.2) = (scan text).tokens ∧
      (∀ span ∈ spans text, span.start < span.stop) ∧
      (spans text).Pairwise (fun first second => first.stop ≤ second.start) ∧
      (∀ stretch ∈ stretches text, ∃ piece, stretch.Holds text piece ∧ Skipped piece) ∧
      ∀ token ∈ located text, ∃ behind, StandsIn text token.1 token.2 behind) ∧
    (∀ order : List Kind, (∀ kind, kind ∈ order) →
      scanBy (longestIn? order) 0 text = scan text) ∧
    Acc (fun rest text => Leaves text rest) text ∧
    Cutting text (scan text).chunks (scan text).rest ∧ Stuck (scan text).rest ∧
    (scan text).chunks.length ≤ text.length := by
  obtain ⟨cutting, stuck⟩ := cutting_scan text
  refine ⟨fun whole => ?_, fun order complete => scanBy_longestIn? complete text,
    wellFounded_leaves.apply text, cutting, stuck, cutting.length_le⟩
  obtain ⟨occupied, ordered⟩ := cutting.spans_ordered []
  exact ⟨map_snd_placed [] _, fun span member => (occupied span member).2, ordered,
    cutting.skips whole [] .nil, cutting.exists_standsIn []⟩

/-- A comment with a letter of two bytes, a number in full, a comment up to the end of its line and
a quoted text; the kinds are tried in the opposite order. -/
theorem scan_partitions_text_commented :
    (scan "/*é*/[-1.5e+3,//\"\n\x27//\x27] ".toList).rest = [] ∧
      spans "/*é*/[-1.5e+3,//\"\n\x27//\x27] ".toList =
        [⟨6, 7⟩, ⟨7, 14⟩, ⟨14, 15⟩, ⟨19, 23⟩, ⟨23, 24⟩] ∧
      (∃ piece, (Span.mk 15 19).Holds "/*é*/[-1.5e+3,//\"\n\x27//\x27] ".toList piece ∧
        Skipped piece) ∧
      (∃ behind, StandsIn "/*é*/[-1.5e+3,//\"\n\x27//\x27] ".toList "/*é*/[".toList
        ⟨.number, "-1.5e+3".toList⟩ behind) ∧
      scanBy (longestIn? Kind.all.reverse) 0 "/*é*/[-1.5e+3,//\"\n\x27//\x27] ".toList =
        scan "/*é*/[-1.5e+3,//\"\n\x27//\x27] ".toList := by
  obtain ⟨parts, orders, -⟩ := scan_partitions_text "/*é*/[-1.5e+3,//\"\n\x27//\x27] ".toList
  have whole : (scan "/*é*/[-1.5e+3,//\"\n\x27//\x27] ".toList).rest = [] := by decide +kernel
  obtain ⟨-, -, -, skipped, stand⟩ := parts whole
  refine ⟨whole, by decide +kernel, skipped ⟨15, 19⟩ (by decide +kernel),
    stand ("/*é*/[".toList, ⟨.number, "-1.5e+3".toList⟩) (by decide +kernel),
    orders _ fun kind => List.mem_reverse.mpr kind.mem_all⟩

end ControlStore.Relaxed
