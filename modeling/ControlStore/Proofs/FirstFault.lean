set_option autoImplicit false

/-!
Checks that stop at the first fault. `Reports faults result` ties a check to the list of all faults
of its input: the check succeeds if the list is empty and fails with its first entry otherwise. The
law of a compound check is put together from the laws of its parts.
-/
namespace ControlStore

variable {ε α β : Type}

/-- A check that tells the first of the faults, and succeeds only if there is none. -/
def Reports (faults : List ε) : Except ε α → Prop
  | .ok _ => faults = []
  | .error fault => faults.head? = some fault

namespace Reports

theorem pure (value : α) : Reports ([] : List ε) (.ok value) := rfl

theorem error (fault : ε) : Reports [fault] (.error fault : Except ε α) := rfl

/-- Checks in sequence: the faults of the second come after all faults of the first. -/
theorem bind {first second : List ε} {result : Except ε α} {next : α → Except ε β}
    (reported : Reports first result)
    (continued : ∀ value, result = .ok value → Reports second (next value)) :
    Reports (first ++ second) (result >>= next) := by
  cases result with
  | ok value =>
      have none : first = [] := reported
      rw [none, List.nil_append]
      exact continued value rfl
  | error fault =>
      have told : first.head? = some fault := reported
      change (first ++ second).head? = some fault
      rw [List.head?_append, told, Option.some_or]

theorem map {faults : List ε} {result : Except ε α} (f : α → β)
    (reported : Reports faults result) : Reports faults (f <$> result) := by
  cases result with
  | ok value => exact reported
  | error fault => exact reported

/-- A traversal meets the faults of its items in the order of the items. -/
theorem mapM {faults : α → List ε} {check : α → Except ε β} {items : List α}
    (reported : ∀ item ∈ items, Reports (faults item) (check item)) :
    Reports (items.flatMap faults) (items.mapM check) := by
  induction items with
  | nil => exact pure []
  | cons item rest ih =>
      have later := ih fun other member => reported other (List.mem_cons_of_mem _ member)
      rw [List.flatMap_cons, List.mapM_cons]
      exact (reported item List.mem_cons_self).bind fun value _ => later.map (value :: ·)

theorem exists_ok_iff {faults : List ε} {result : Except ε α} (reported : Reports faults result) :
    (∃ value, result = .ok value) ↔ faults = [] := by
  cases result with
  | ok value => exact ⟨fun _ => reported, fun _ => ⟨value, rfl⟩⟩
  | error fault =>
      have told : faults.head? = some fault := reported
      constructor
      · intro succeeds
        obtain ⟨value, impossible⟩ := succeeds
        cases impossible
      · intro none
        rw [none] at told
        cases told

theorem eq_error_iff {faults : List ε} {result : Except ε α} (reported : Reports faults result)
    (fault : ε) : result = .error fault ↔ faults.head? = some fault := by
  cases result with
  | ok value =>
      have none : faults = [] := reported
      rw [none]
      constructor <;> intro impossible <;> cases impossible
  | error first =>
      have told : faults.head? = some first := reported
      rw [told, Except.error.injEq, Option.some.injEq]

end Reports

theorem exists_ok_of_isOk {result : Except ε α} (ok : result.isOk = true) :
    ∃ value, result = .ok value := by
  cases result with
  | ok value => exact ⟨value, rfl⟩
  | error fault => cases ok

theorem toOption_eq_some_iff {result : Except ε α} {value : α} :
    result.toOption = some value ↔ result = .ok value := by
  cases result <;> simp [Except.toOption]

/-- The fault that a check tells. -/
def fault? : Except ε α → Option ε
  | .ok _ => none
  | .error fault => some fault

theorem fault?_eq_some_iff {result : Except ε α} {fault : ε} :
    fault? result = some fault ↔ result = .error fault := by
  cases result <;> simp [fault?]

/-- A sequence succeeds exactly if its first part does and its second part on the value of it. -/
theorem bind_eq_ok_iff {result : Except ε α} {next : α → Except ε β} {value : β} :
    result >>= next = .ok value ↔ ∃ first, result = .ok first ∧ next first = .ok value := by
  cases result with
  | ok first =>
      constructor
      · intro success
        exact ⟨first, rfl, success⟩
      · intro parts
        obtain ⟨_, same, success⟩ := parts
        cases same
        exact success
  | error fault =>
      constructor
      · intro impossible
        cases impossible
      · intro parts
        obtain ⟨_, impossible, _⟩ := parts
        cases impossible

/-- A sequence that succeeds also succeeds with another second part, if that one does wherever the
first did. -/
theorem bind_eq_ok_imp {result : Except ε α} {next next' : α → Except ε β} {value value' : β}
    (success : result >>= next = .ok value)
    (carried : ∀ first, next first = .ok value → next' first = .ok value') :
    result >>= next' = .ok value' := by
  obtain ⟨first, found, behind⟩ := bind_eq_ok_iff.mp success
  exact bind_eq_ok_iff.mpr ⟨first, found, carried first behind⟩

/-- Sequences with the same first part are the same if their second parts are where it succeeds. -/
theorem bind_congr_ok {result : Except ε α} {next next' : α → Except ε β}
    (same : ∀ value, result = .ok value → next value = next' value) :
    result >>= next = result >>= next' := by
  cases result with
  | ok value => exact same value rfl
  | error fault => rfl

theorem map_eq_ok_iff {result : Except ε α} {f : α → β} {value : β} :
    f <$> result = .ok value ↔ ∃ first, result = .ok first ∧ f first = value := by
  cases result with
  | ok first =>
      constructor
      · intro success
        exact ⟨first, rfl, Except.ok.inj success⟩
      · intro parts
        obtain ⟨_, same, rfl⟩ := parts
        cases same
        rfl
  | error fault =>
      constructor
      · intro impossible
        cases impossible
      · intro parts
        obtain ⟨_, impossible, _⟩ := parts
        cases impossible

/-- A traversal sees nothing of its items but what the check makes of them. -/
theorem mapM_congr_of_map {check : α → Except ε β} {items items' : List α}
    (same : items'.map check = items.map check) : items'.mapM check = items.mapM check := by
  have traversed := congrArg (List.mapM id) same
  rwa [List.mapM_map, List.mapM_map] at traversed

/-- A traversal succeeds with one result for each item, at the same position. -/
theorem mapM_eq_ok_getElem? {check : α → Except ε β} {items : List α} {results : List β}
    (success : items.mapM check = .ok results) :
    results.length = items.length ∧
      ∀ (i : Nat) (item : α), items[i]? = some item →
        ∃ result, results[i]? = some result ∧ check item = .ok result := by
  induction items generalizing results with
  | nil =>
      cases success
      exact ⟨rfl, fun i item found => by cases found⟩
  | cons head rest ih =>
      rw [List.mapM_cons] at success
      obtain ⟨first, here, success⟩ := bind_eq_ok_iff.mp success
      obtain ⟨others, later, success⟩ := bind_eq_ok_iff.mp success
      cases success
      obtain ⟨length, pointwise⟩ := ih later
      refine ⟨by rw [List.length_cons, List.length_cons, length], ?_⟩
      intro i item found
      cases i with
      | zero =>
          cases found
          exact ⟨first, rfl, here⟩
      | succ i => exact pointwise i item found

/-- What a successful traversal collects are the results of its items. -/
theorem mem_of_mapM_eq_ok {check : α → Except ε β} {items : List α} {results : List β}
    (success : items.mapM check = .ok results) {result : β} :
    result ∈ results ↔ ∃ item ∈ items, check item = .ok result := by
  obtain ⟨length, pointwise⟩ := mapM_eq_ok_getElem? success
  constructor
  · intro member
    obtain ⟨i, inside, located⟩ := List.getElem_of_mem member
    have bound : i < items.length := length ▸ inside
    obtain ⟨found, same, checked⟩ := pointwise i items[i] (List.getElem?_eq_getElem bound)
    rw [List.getElem?_eq_getElem inside, located] at same
    cases same
    exact ⟨items[i], List.getElem_mem bound, checked⟩
  · intro collected
    obtain ⟨item, member, checked⟩ := collected
    obtain ⟨i, located⟩ := List.getElem?_of_mem member
    obtain ⟨found, same, also⟩ := pointwise i item located
    rw [checked] at also
    cases also
    exact List.mem_of_getElem? same

end ControlStore
