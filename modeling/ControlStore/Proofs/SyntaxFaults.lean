import ControlStore.Proofs.HexDigits
import ControlStore.Proofs.StrictTokens

set_option autoImplicit false

/-!
Which texts are relaxed text, and what is told of all others. A text is cut into chunks, each as
long as any kind spells; it is refused at the first place where no kind spells anything, or, where
there is none, at the first token that may not stand where it does. The line counts the newlines
before that place.
-/
namespace ControlStore.Relaxed

-- Powers and sums are those of the core library, whatever else is imported beside this module.
attribute [local instance (2000)] instPowNat Zero.ofOfNat0

/-! ### Cutting a text -/

/-- The characters of chunks, in their order. -/
def joined (chunks : List Chunk) : List Char := chunks.flatMap (·.text)

/-- The chunks that are cut off a text one after the other, each as long as any kind spells, and
what is left behind them. -/
inductive Cutting : List Char → List Chunk → List Char → Prop where
  | done (rest : List Char) : Cutting rest [] rest
  | chunk {kind : Kind} {front text rest : List Char} {chunks : List Chunk} :
      kind.Cuts front (front ++ text) → Cutting text chunks rest →
        Cutting (front ++ text) (⟨kind, front⟩ :: chunks) rest

/-- No kind spells a front of the text. -/
def Stuck (text : List Char) : Prop :=
  ∀ (kind : Kind) (front : List Char), front <+: text → ¬ kind.Spells front

theorem stuck_nil : Stuck [] := by
  intro kind front starts spelled
  have size := spelled.length_pos
  rw [List.prefix_nil.mp starts, List.length_nil] at size
  omega

theorem Cutting.text_eq {text rest : List Char} {chunks : List Chunk}
    (cutting : Cutting text chunks rest) : text = joined chunks ++ rest := by
  induction cutting with
  | done rest => rfl
  | chunk cut behind ih =>
      rw [joined, List.flatMap_cons, List.append_assoc, ← joined, ← ih]

theorem longest?_eq_none_iff {text : List Char} : longest? text = none ↔ Stuck text := by
  constructor
  · intro nothing kind front starts spelled
    obtain ⟨rest, rfl⟩ := starts
    obtain ⟨n, read, -⟩ := spelled.length?_append rest
    obtain ⟨found, impossible⟩ := longest?_isSome read
    rw [nothing] at impossible
    cases impossible
  · intro stuck
    cases found : longest? text with
    | none => rfl
    | some winner =>
        obtain ⟨front, cut, -⟩ := longest?_eq_some_iff.mp found
        exact absurd cut.spells (stuck winner.1 front cut.starts)

/-- The scan of a text is its cutting up to a place where nothing matches; there is no other. -/
theorem scan_eq_iff {text rest : List Char} {chunks : List Chunk} :
    scan text = ⟨chunks, rest⟩ ↔ Cutting text chunks rest ∧ Stuck rest := by
  constructor
  · intro scanned
    induction text using scan_induction generalizing chunks with
    | empty =>
        cases scanned
        exact ⟨.done [], stuck_nil⟩
    | stuck text some none =>
        rw [scan_of_longest?_eq_none some none] at scanned
        cases scanned
        exact ⟨.done _, longest?_eq_none_iff.mp none⟩
    | cut kind front text cuts ih =>
        rw [scan_of_cuts cuts] at scanned
        cases scanned
        obtain ⟨cutting, stuck⟩ := ih rfl
        exact ⟨.chunk cuts cutting, stuck⟩
  · rintro ⟨cutting, stuck⟩
    induction cutting with
    | done rest =>
        by_cases empty : rest = []
        · subst empty
          rfl
        · exact scan_of_longest?_eq_none empty (longest?_eq_none_iff.mpr stuck)
    | chunk cut behind ih => rw [scan_of_cuts cut, ih stuck]

theorem cutting_scan (text : List Char) :
    Cutting text (scan text).chunks (scan text).rest ∧ Stuck (scan text).rest :=
  scan_eq_iff.mp rfl

/-! ### Tokens in their places -/

/-- The kind of the first token among chunks. -/
def nextKind (chunks : List Chunk) : Option Kind :=
  (chunks.find? fun chunk => !chunk.kind.isGap).map (·.kind)

/-- A token that may not stand before a token of some kind: a bare word that is neither a key nor
`true`, `false` or `null`, or a hexadecimal number that does not fit 64 bits. -/
inductive Barred (next : Option Kind) : Chunk → Prop where
  | word {text : List Char} : next ≠ some .colon → text ∉ strictWords → Barred next ⟨.word, text⟩
  | hex {mark : Char} {digits : List Char} {value : Nat} : Hex.Denotes digits value →
      2 ^ (64 : Nat) ≤ value → Barred next ⟨.hex, '0' :: mark :: digits⟩

/-- A hexadecimal token has a decimal form exactly if its value fits. -/
theorem hexImage?_eq_none_iff {mark : Char} {digits : List Char} {next : Option Kind}
    (spelled : Run isHexDigit digits) :
    hexImage? ('0' :: mark :: digits) = none ↔ Barred next ⟨.hex, '0' :: mark :: digits⟩ := by
  obtain ⟨value, denotes⟩ := Hex.exists_denotes spelled.1 spelled.2
  have read := (Hex.denotes_iff.mp denotes).2
  have image : hexImage? ('0' :: mark :: digits) =
      if value < 2 ^ (64 : Nat) then some (Nat.toDigits 10 value) else none := by
    simp only [hexImage?, List.drop_succ_cons, List.drop_zero, read, Option.bind_some]
  rw [image]
  constructor
  · intro refused
    refine .hex denotes ?_
    by_contra fits
    rw [if_pos (Nat.lt_of_not_le fits)] at refused
    cases refused
  · intro barred
    rcases barred with _ | ⟨other, large⟩
    rw [(Hex.denotes_iff.mp other).2, Option.some.injEq] at read
    rw [if_neg (by omega)]

/-- A token has no strict form exactly if it may not stand where it does. -/
theorem image?_eq_none_iff {kind : Kind} {text : List Char} {next : Option Kind}
    (spelled : kind.Spells text) :
    image? kind text next = none ↔ Barred next ⟨kind, text⟩ := by
  cases kind with
  | word =>
      by_cases key : next = some .colon
      · simp only [image?, if_pos key, reduceCtorEq, false_iff]
        rintro ⟨noKey, -⟩
        exact noKey key
      · by_cases strict : text ∈ strictWords
        · simp only [image?, if_neg key, if_pos strict, reduceCtorEq, false_iff]
          rintro ⟨-, noWord⟩
          exact noWord strict
        · simp only [image?, if_neg key, if_neg strict, true_iff]
          exact .word key strict
  | hex =>
      obtain ⟨mark, digits, rfl, -, run⟩ := spelled
      exact hexImage?_eq_none_iff run
  | blanks | lineComment | blockComment | braceOpen | braceClose | bracketOpen | bracketClose
  | colon | comma | doubleQuoted | singleQuoted | number =>
      constructor
      · intro refused
        cases refused
      · intro barred
        cases barred

/-- Every chunk may stand where it does. -/
def Allowed (chunks : List Chunk) : Prop :=
  ∀ chunk behind, chunk :: behind <:+ chunks → ¬ Barred (nextKind behind) chunk

/-- The first chunk that may not stand where it does, with the chunks before and behind it. -/
structure FirstBarred (chunks before : List Chunk) (chunk : Chunk) (behind : List Chunk) :
    Prop where
  split : chunks = before ++ chunk :: behind
  barred : Barred (nextKind behind) chunk
  first : ∀ earlier later, earlier :: later <:+ chunks → behind.length < later.length →
    ¬ Barred (nextKind later) earlier

theorem Allowed.nil : Allowed [] := by
  intro chunk behind ending
  exact absurd (List.suffix_nil.mp ending) (List.cons_ne_nil _ _)

theorem Allowed.cons {chunk : Chunk} {rest : List Chunk} (here : ¬ Barred (nextKind rest) chunk)
    (later : Allowed rest) : Allowed (chunk :: rest) := by
  intro other behind ending
  rcases List.suffix_cons_iff.mp ending with same | deeper
  · cases same
    exact here
  · exact later other behind deeper

theorem FirstBarred.here {chunk : Chunk} {rest : List Chunk}
    (barred : Barred (nextKind rest) chunk) : FirstBarred (chunk :: rest) [] chunk rest := by
  refine ⟨rfl, barred, ?_⟩
  intro earlier later ending longer
  have size := ending.length_le
  simp only [List.length_cons] at size
  omega

theorem FirstBarred.cons {chunk first : Chunk} {rest before behind : List Chunk}
    (here : ¬ Barred (nextKind rest) chunk) (later : FirstBarred rest before first behind) :
    FirstBarred (chunk :: rest) (chunk :: before) first behind := by
  refine ⟨congrArg (chunk :: ·) later.split, later.barred, ?_⟩
  intro earlier others ending longer
  rcases List.suffix_cons_iff.mp ending with same | deeper
  · cases same
    exact here
  · exact later.first earlier others deeper longer

theorem FirstBarred.not_allowed {chunks before behind : List Chunk} {chunk : Chunk}
    (first : FirstBarred chunks before chunk behind) : ¬ Allowed chunks := by
  intro allowed
  exact allowed chunk behind ⟨before, first.split.symm⟩ first.barred

/-- There is one first chunk that may not stand where it does. -/
theorem FirstBarred.unique {chunks before behind before' behind' : List Chunk}
    {chunk chunk' : Chunk} (one : FirstBarred chunks before chunk behind)
    (two : FirstBarred chunks before' chunk' behind') : before' = before ∧ chunk' = chunk := by
  have notLonger : ¬ behind.length < behind'.length := fun longer =>
    one.first chunk' behind' ⟨before', two.split.symm⟩ longer two.barred
  have notShorter : ¬ behind'.length < behind.length := fun longer =>
    two.first chunk behind ⟨before, one.split.symm⟩ longer one.barred
  have size : (chunk' :: behind').length = (chunk :: behind).length := by
    simp only [List.length_cons]
    omega
  obtain ⟨front, back⟩ := List.append_inj' (two.split.symm.trans one.split) size
  exact ⟨front, (List.cons.inj back).1⟩

/-! ### What is told of tokens -/

theorem newlines_append (front back : List Char) :
    newlines (front ++ back) = newlines front + newlines back := List.count_append

theorem joined_cons (chunk : Chunk) (rest : List Chunk) :
    joined (chunk :: rest) = chunk.text ++ joined rest := List.flatMap_cons

theorem sum_newlines (chunks : List Chunk) :
    (chunks.map fun chunk => newlines chunk.text).sum = newlines (joined chunks) := by
  induction chunks with
  | nil => rfl
  | cons chunk rest ih =>
      rw [List.map_cons, List.sum_cons, ih, joined_cons, newlines_append]

theorem head?_kind_tokensFrom (line gap : Nat) (chunks : List Chunk) :
    (tokensFrom line gap chunks).head?.map (·.kind) = nextKind chunks := by
  induction chunks generalizing line gap with
  | nil => rfl
  | cons chunk rest ih =>
      rw [tokensFrom, nextKind, List.find?_cons]
      cases chunk.kind.isGap with
      | true => exact ih _ _
      | false => rfl

/-- Tokens are rendered exactly if each may stand where it does; else the first that may not is
told, on the line that the newlines before it lead to. -/
theorem render_cases {chunks : List Chunk} (spelled : ∀ chunk ∈ chunks, chunk.kind.Spells chunk.text)
    (line gap : Nat) :
    (Allowed chunks ∧ ∃ out, render (tokensFrom line gap chunks) = .ok out) ∨
      ∃ before chunk behind, FirstBarred chunks before chunk behind ∧
        render (tokensFrom line gap chunks) =
          .error ⟨line + newlines (joined before), String.ofList chunk.text⟩ := by
  induction chunks generalizing line gap with
  | nil => exact Or.inl ⟨.nil, [], rfl⟩
  | cons chunk rest ih =>
      obtain ⟨here, later⟩ := List.forall_mem_cons.mp spelled
      have lower (before : List Chunk) :
          line + newlines chunk.text + newlines (joined before) =
            line + newlines (joined (chunk :: before)) := by
        rw [joined_cons, newlines_append, Nat.add_assoc]
      by_cases blank : chunk.kind.isGap = true
      · -- A gap is never barred, and the tokens behind it are rendered on a later line.
        have stands : ¬ Barred (nextKind rest) chunk := by
          rintro (_ | _) <;> cases blank
        rw [tokensFrom, if_pos blank]
        rcases ih later (line + newlines chunk.text) (gap + newlines chunk.text) with
          ⟨allowed, success⟩ | ⟨before, first, behind, found, told⟩
        · exact Or.inl ⟨allowed.cons stands, success⟩
        · exact Or.inr ⟨chunk :: before, first, behind, found.cons stands, lower before ▸ told⟩
      · rw [tokensFrom, if_neg blank, render, head?_kind_tokensFrom]
        have fits : image? chunk.kind chunk.text (nextKind rest) = none ↔
            Barred (nextKind rest) chunk := image?_eq_none_iff here
        cases image : image? chunk.kind chunk.text (nextKind rest) with
        | none => exact Or.inr ⟨[], chunk, rest, .here (fits.mp image), rfl⟩
        | some image =>
            have stands : ¬ Barred (nextKind rest) chunk := by
              intro barred
              rw [fits.mpr barred] at image
              cases image
            rcases ih later (line + newlines chunk.text) 0 with
              ⟨allowed, out, success⟩ | ⟨before, first, behind, found, told⟩
            · rw [success]
              exact Or.inl ⟨allowed.cons stands, _, rfl⟩
            · refine Or.inr ⟨chunk :: before, first, behind, found.cons stands, ?_⟩
              rw [told, ← lower before]
              rfl

/-! ### What is told of texts -/

/-- What is wrong with a text. If it cannot be cut to its end: that nothing matches behind the last
chunk. If it can: the first token that may not stand where it does. The line is one more than the
newlines before that place. -/
inductive FaultOf (text : List Char) : SyntaxFault → Prop where
  | stuck {chunks : List Chunk} {front rest : List Char} : Cutting text chunks rest →
      Stuck rest → rest ≠ [] → text = front ++ rest →
        FaultOf text ⟨newlines front + 1, String.ofList (rest.take (unmatchedLength rest))⟩
  | barred {chunks before behind : List Chunk} {chunk : Chunk} {front : List Char} :
      Cutting text chunks [] → FirstBarred chunks before chunk behind →
        text = front ++ (chunk.text ++ joined behind) →
          FaultOf text ⟨newlines front + 1, String.ofList chunk.text⟩

theorem toJson_of_stuck {text rest : List Char} {chunks : List Chunk}
    (cutting : Cutting text chunks rest) (stuck : Stuck rest) (some : rest ≠ []) :
    toJson text = .error
      ⟨newlines (joined chunks) + 1, String.ofList (rest.take (unmatchedLength rest))⟩ := by
  unfold toJson
  rw [scan_eq_iff.mpr ⟨cutting, stuck⟩]
  dsimp only
  rw [if_neg some, sum_newlines, Nat.add_comm]

/-- A text that can be cut to its end is judged by its tokens. -/
theorem toJson_of_cutting {text : List Char} {chunks : List Chunk}
    (cutting : Cutting text chunks []) :
    toJson text = render (tokensFrom 1 0 chunks) ∧ ∀ chunk ∈ chunks, chunk.kind.Spells chunk.text := by
  have scanned := scan_eq_iff.mpr ⟨cutting, stuck_nil⟩
  refine ⟨?_, ?_⟩
  · unfold toJson
    rw [scanned]
    exact if_pos rfl
  · have spelled := scan_spells text
    rwa [scanned] at spelled

theorem exists_toJson_iff {text : List Char} {chunks : List Chunk}
    (cutting : Cutting text chunks []) : (∃ out, toJson text = .ok out) ↔ Allowed chunks := by
  obtain ⟨rendered, spelled⟩ := toJson_of_cutting cutting
  rw [rendered]
  rcases render_cases spelled 1 0 with ⟨allowed, success⟩ | ⟨before, chunk, behind, first, told⟩
  · exact ⟨fun _ => allowed, fun _ => success⟩
  · constructor
    · rintro ⟨out, success⟩
      rw [told] at success
      cases success
    · exact fun allowed => absurd allowed first.not_allowed

theorem toJson_of_firstBarred {text : List Char} {chunks before behind : List Chunk}
    {chunk : Chunk} (cutting : Cutting text chunks [])
    (first : FirstBarred chunks before chunk behind) :
    toJson text = .error ⟨newlines (joined before) + 1, String.ofList chunk.text⟩ := by
  obtain ⟨rendered, spelled⟩ := toJson_of_cutting cutting
  rcases render_cases spelled 1 0 with ⟨allowed, -⟩ | ⟨before', chunk', behind', also, told⟩
  · exact absurd allowed first.not_allowed
  · obtain ⟨rfl, rfl⟩ := first.unique also
    rw [rendered, told, Nat.add_comm]

theorem joined_append (front back : List Chunk) :
    joined (front ++ back) = joined front ++ joined back := List.flatMap_append

/-- The text of chunks that are split at one of them. -/
theorem FirstBarred.joined_eq {chunks before behind : List Chunk} {chunk : Chunk}
    (first : FirstBarred chunks before chunk behind) :
    joined chunks = joined before ++ (chunk.text ++ joined behind) := by
  rw [first.split, joined_append, joined_cons]

theorem FaultOf.toJson_eq {text : List Char} {fault : SyntaxFault} (told : FaultOf text fault) :
    toJson text = .error fault := by
  cases told with
  | stuck cutting stuck some whole =>
      have same := List.append_cancel_right (whole.symm.trans cutting.text_eq)
      rw [toJson_of_stuck cutting stuck some, same]
  | barred cutting first whole =>
      have same := cutting.text_eq
      rw [List.append_nil, first.joined_eq, whole] at same
      rw [toJson_of_firstBarred cutting first, List.append_cancel_right same]

theorem exists_faultOf {text : List Char} (refused : ¬ ∃ out, toJson text = .ok out) :
    ∃ fault, FaultOf text fault := by
  obtain ⟨cutting, stuck⟩ := cutting_scan text
  by_cases whole : (scan text).rest = []
  · rw [whole] at cutting
    obtain ⟨rendered, spelled⟩ := toJson_of_cutting cutting
    rcases render_cases spelled 1 0 with ⟨-, success⟩ | ⟨before, chunk, behind, first, -⟩
    · exact absurd (rendered ▸ success) refused
    · have text_eq : text = joined before ++ (chunk.text ++ joined behind) := by
        rw [cutting.text_eq, List.append_nil, first.joined_eq]
      exact ⟨_, .barred cutting first text_eq⟩
  · exact ⟨_, .stuck cutting stuck whole cutting.text_eq⟩

/-- A text is relaxed text exactly if it can be cut to its end, each chunk as long as any kind
spells, every bare word is a key or `true`, `false` or `null`, and every hexadecimal number fits 64
bits. Of any other text the fault is told that comes first, and a place where nothing matches counts
before all tokens. -/
theorem toJson_tells_first_fault (text : List Char) :
    ((∃ out, toJson text = .ok out) ↔ ∃ chunks, Cutting text chunks [] ∧ Allowed chunks) ∧
      ∀ fault, toJson text = .error fault ↔ FaultOf text fault := by
  refine ⟨?_, ?_⟩
  · constructor
    · rintro ⟨out, success⟩
      obtain ⟨whole, -⟩ := toJson_eq_ok success
      obtain ⟨cutting, -⟩ := cutting_scan text
      rw [whole] at cutting
      exact ⟨(scan text).chunks, cutting, (exists_toJson_iff cutting).mp ⟨out, success⟩⟩
    · rintro ⟨chunks, cutting, allowed⟩
      exact (exists_toJson_iff cutting).mpr allowed
  · intro fault
    constructor
    · intro failed
      have refused : ¬ ∃ out, toJson text = .ok out := by
        rintro ⟨out, success⟩
        rw [failed] at success
        cases success
      obtain ⟨other, told⟩ := exists_faultOf refused
      have same := told.toJson_eq
      rw [failed] at same
      cases same
      exact told
    · exact FaultOf.toJson_eq

/-- A stray mark on the second line is told before the bare word on the first. -/
example : toJson "\x7bnext: FETCH\n#\x7d".toList = .error ⟨2, "#"⟩ := by decide +kernel

end ControlStore.Relaxed
