import ControlStore.Proofs.FirstFault

set_option autoImplicit false

/-!
Two computations side by side. They match if both fail with related faults or both succeed with
related values; the law of a compound computation is put together from the laws of its parts. Where
only success is followed, the first carries over to the second.
-/
namespace ControlStore

variable {ε ε' α α' β β' : Type}

/-- Both results are faults that are related, or both are values that are related. -/
def Matched (faults : ε → ε' → Prop) (values : α → α' → Prop) :
    Except ε α → Except ε' α' → Prop
  | .ok first, .ok second => values first second
  | .error first, .error second => faults first second
  | _, _ => False

namespace Matched

variable {faults : ε → ε' → Prop} {values : α → α' → Prop} {results : β → β' → Prop}
  {first : Except ε α} {second : Except ε' α'}

theorem refl {faults : ε → ε → Prop} (alike : ∀ fault, faults fault fault) (result : Except ε α) :
    Matched faults Eq result result := by
  cases result with
  | ok value => exact rfl
  | error fault => exact alike fault

theorem error_or_ok (matched : Matched faults values first second) :
    (∃ fault fault', first = .error fault ∧ second = .error fault' ∧ faults fault fault') ∨
      ∃ value value', first = .ok value ∧ second = .ok value' ∧ values value value' := by
  cases first with
  | error fault =>
      cases second with
      | error fault' => exact Or.inl ⟨fault, fault', rfl, rfl, matched⟩
      | ok value' => cases matched
  | ok value =>
      cases second with
      | error fault' => cases matched
      | ok value' => exact Or.inr ⟨value, value', rfl, rfl, matched⟩

/-- Matching computations continued by matching ones. -/
theorem bind {next : α → Except ε β} {next' : α' → Except ε' β'}
    (matched : Matched faults values first second)
    (continued : ∀ value value', values value value' →
      Matched faults results (next value) (next' value')) :
    Matched faults results (first >>= next) (second >>= next') := by
  rcases matched.error_or_ok with ⟨fault, fault', rfl, rfl, told⟩ | ⟨value, value', rfl, rfl, held⟩
  · exact told
  · exact continued value value' held

theorem map {f : α → β} {g : α' → β'} (matched : Matched faults values first second)
    (mapped : ∀ value value', values value value' → results (f value) (g value')) :
    Matched faults results (f <$> first) (g <$> second) := by
  rcases matched.error_or_ok with ⟨fault, fault', rfl, rfl, told⟩ | ⟨value, value', rfl, rfl, held⟩
  · exact told
  · exact mapped value value' held

/-- Computations of the same values, continued alike. -/
theorem bind_eq {first : Except ε α} {second : Except ε' α} {next : α → Except ε β}
    {next' : α → Except ε' β'} (matched : Matched faults Eq first second)
    (continued : ∀ value, Matched faults results (next value) (next' value)) :
    Matched faults results (first >>= next) (second >>= next') :=
  matched.bind fun value _ same => same ▸ continued value

theorem map_eq {first : Except ε α} {second : Except ε' α} (f : α → β)
    (matched : Matched faults Eq first second) :
    Matched faults Eq (f <$> first) (f <$> second) :=
  matched.map fun _ _ same => congrArg f same

/-- A traversal of items and one of their images, matching item by item. -/
theorem mapM_eq {check : α → Except ε β} {check' : α' → Except ε' β} {f : α → α'} {items : List α}
    (matched : ∀ item ∈ items, Matched faults Eq (check item) (check' (f item))) :
    Matched faults Eq (items.mapM check) ((items.map f).mapM check') := by
  induction items with
  | nil => exact rfl
  | cons item rest ih =>
      have later := ih fun other member => matched other (List.mem_cons_of_mem _ member)
      rw [List.map_cons, List.mapM_cons, List.mapM_cons]
      exact (matched item List.mem_cons_self).bind_eq fun value => later.map_eq (value :: ·)

theorem imp {wider : ε → ε' → Prop} {looser : α → α' → Prop}
    (matched : Matched faults values first second)
    (told : ∀ fault fault', faults fault fault' → wider fault fault')
    (held : ∀ value value', values value value' → looser value value') :
    Matched wider looser first second := by
  rcases matched.error_or_ok with ⟨fault, fault', rfl, rfl, here⟩ | ⟨value, value', rfl, rfl, here⟩
  · exact told fault fault' here
  · exact held value value' here

/-- Computations that match one third. -/
theorem meet {ε'' α'' : Type} {faults' : ε'' → ε' → Prop} {values' : α'' → α' → Prop}
    {third : Except ε'' α''} (matched : Matched faults values first second)
    (also : Matched faults' values' third second) :
    Matched (fun fault fault' => ∃ common, faults fault common ∧ faults' fault' common)
      (fun value value' => ∃ common, values value common ∧ values' value' common) first third := by
  rcases matched.error_or_ok with ⟨fault, common, rfl, rfl, here⟩ | ⟨value, common, rfl, rfl, here⟩
  · rcases also.error_or_ok with ⟨fault', _, rfl, same, there⟩ | ⟨_, _, _, impossible, -⟩
    · cases same
      exact ⟨common, here, there⟩
    · cases impossible
  · rcases also.error_or_ok with ⟨_, _, _, impossible, -⟩ | ⟨value', _, rfl, same, there⟩
    · cases impossible
    · cases same
      exact ⟨common, here, there⟩

theorem exists_ok (matched : Matched faults values first second) {value : α}
    (success : first = .ok value) : ∃ value', second = .ok value' ∧ values value value' := by
  rcases matched.error_or_ok with ⟨fault, fault', rfl, rfl, told⟩ | ⟨held, value', rfl, rfl, same⟩
  · cases success
  · cases success
    exact ⟨value', rfl, same⟩

theorem exists_ok_left (matched : Matched faults values first second) {value' : α'}
    (success : second = .ok value') : ∃ value, first = .ok value ∧ values value value' := by
  rcases matched.error_or_ok with ⟨fault, fault', rfl, rfl, told⟩ | ⟨value, held, rfl, rfl, same⟩
  · cases success
  · cases success
    exact ⟨value, rfl, same⟩

/-- Computations that tell the same faults. -/
theorem error_iff {second : Except ε α'} (matched : Matched Eq values first second) (fault : ε) :
    first = .error fault ↔ second = .error fault := by
  rcases matched.error_or_ok with ⟨told, _, rfl, rfl, rfl⟩ | ⟨value, value', rfl, rfl, -⟩
  · rw [Except.error.injEq, Except.error.injEq]
  · constructor <;> intro impossible <;> cases impossible

/-- Two checks that report the same faults match in all but their values. -/
theorem of_reports {reported : List ε} {first : Except ε α} {second : Except ε β}
    (told : Reports reported first) (also : Reports reported second) :
    Matched Eq (fun _ _ => True) first second := by
  cases first with
  | ok value =>
      obtain ⟨value', success⟩ := also.exists_ok_iff.mpr (told.exists_ok_iff.mp ⟨value, rfl⟩)
      rw [success]
      exact trivial
  | error fault =>
      have same := (also.eq_error_iff fault).mpr ((told.eq_error_iff fault).mp rfl)
      rw [same]
      exact rfl

end Matched

/-! ### Success carried over -/

/-- Where the first computation succeeds, the second does with a related value. -/
def Carries (values : α → α' → Prop) (first : Except ε α) (second : Except ε' α') : Prop :=
  ∀ value, first = .ok value → ∃ value', second = .ok value' ∧ values value value'

namespace Carries

variable {values : α → α' → Prop} {results : β → β' → Prop} {first : Except ε α}
  {second : Except ε' α'}

theorem refl {values : α → α → Prop} (alike : ∀ value, values value value) (result : Except ε α) :
    Carries values result result :=
  fun value success => ⟨value, success, alike value⟩

theorem ok {value : α} {value' : α'} (alike : values value value') :
    Carries values (Except.ok value : Except ε α) (Except.ok value' : Except ε' α') :=
  fun _ success => ⟨value', rfl, Except.ok.inj success ▸ alike⟩

theorem of_eq {first second : Except ε α} (same : first = second) : Carries Eq first second :=
  same ▸ refl (fun _ => rfl) first

theorem trans {values : α → α → Prop} {one two three : Except ε α}
    (first : Carries values one two) (second : Carries values two three)
    (join : ∀ one two three, values one two → values two three → values one three) :
    Carries values one three := by
  intro value success
  obtain ⟨middle, found, here⟩ := first value success
  obtain ⟨last, reached, there⟩ := second middle found
  exact ⟨last, reached, join _ _ _ here there⟩

theorem bind {next : α → Except ε β} {next' : α' → Except ε' β'}
    (carries : Carries values first second)
    (continued : ∀ value value', values value value' →
      Carries results (next value) (next' value')) :
    Carries results (first >>= next) (second >>= next') := by
  intro result success
  obtain ⟨value, found, behind⟩ := bind_eq_ok_iff.mp success
  obtain ⟨value', found', like⟩ := carries value found
  obtain ⟨result', behind', likeResult⟩ := continued value value' like result behind
  exact ⟨result', bind_eq_ok_iff.mpr ⟨value', found', behind'⟩, likeResult⟩

theorem map {f : α → β} {g : α' → β'} (carries : Carries values first second)
    (mapped : ∀ value value', values value value' → results (f value) (g value')) :
    Carries results (f <$> first) (g <$> second) := by
  intro result success
  obtain ⟨value, found, rfl⟩ := map_eq_ok_iff.mp success
  obtain ⟨value', found', like⟩ := carries value found
  exact ⟨g value', map_eq_ok_iff.mpr ⟨value', found', rfl⟩, mapped value value' like⟩

end Carries

end ControlStore
