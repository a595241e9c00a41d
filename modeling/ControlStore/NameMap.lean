set_option autoImplicit false

/-!
Maps from names to values, kept in the order of the names. Names are compared character by
character, which is also the order of their UTF-8 bytes. The order is part of the type, so a map
has one form, whatever order its entries came in.
-/
namespace ControlStore

/-- A finite map with its entries in ascending order of their names. -/
structure NameMap (α : Type) where
  entries : List (String × α)
  ascending : entries.Pairwise (fun first second => first.1 < second.1)

namespace NameMap

variable {α : Type}

def empty : NameMap α := ⟨[], List.Pairwise.nil⟩

instance : Inhabited (NameMap α) := ⟨empty⟩

/-- Puts an entry at its place; an entry of the same name is replaced. -/
def place (name : String) (value : α) : List (String × α) → List (String × α)
  | [] => [(name, value)]
  | (key, held) :: rest =>
      if name < key then (name, value) :: (key, held) :: rest
      else if key < name then (key, held) :: place name value rest
      else (name, value) :: rest

theorem mem_place {name : String} {value : α} {entries : List (String × α)}
    {entry : String × α} (member : entry ∈ place name value entries) :
    entry = (name, value) ∨ entry ∈ entries := by
  induction entries with
  | nil => simpa only [place, List.mem_singleton, List.not_mem_nil, or_false] using member
  | cons head rest ih =>
      obtain ⟨key, held⟩ := head
      simp only [place] at member
      split at member
      · simpa only [List.mem_cons] using member
      · split at member
        · rcases List.mem_cons.mp member with here | later
          · exact Or.inr (by simp [here])
          · rcases ih later with same | old
            · exact Or.inl same
            · exact Or.inr (List.mem_cons_of_mem _ old)
        · rcases List.mem_cons.mp member with here | later
          · exact Or.inl here
          · exact Or.inr (List.mem_cons_of_mem _ later)

theorem place_ascending (name : String) (value : α) (entries : List (String × α))
    (ascending : entries.Pairwise (fun first second => first.1 < second.1)) :
    (place name value entries).Pairwise (fun first second => first.1 < second.1) := by
  induction entries with
  | nil => exact List.pairwise_singleton _ _
  | cons head rest ih =>
      obtain ⟨key, held⟩ := head
      have tail := List.pairwise_cons.mp ascending
      simp only [place]
      split
      · rename_i before
        refine List.pairwise_cons.mpr ⟨?_, ascending⟩
        intro entry member
        rcases List.mem_cons.mp member with here | later
        · simpa only [here] using before
        · exact String.lt_trans before (tail.1 entry later)
      · split
        · rename_i after
          refine List.pairwise_cons.mpr ⟨?_, ih tail.2⟩
          intro entry member
          rcases mem_place member with new | old
          · simpa only [new] using after
          · exact tail.1 entry old
        · rename_i notBefore notAfter
          have same : name = key :=
            String.le_antisymm (String.not_lt.mp notAfter) (String.not_lt.mp notBefore)
          refine List.pairwise_cons.mpr ⟨?_, tail.2⟩
          intro entry member
          simpa only [same] using tail.1 entry member

/-- Gives a name a value, in place of any value it had. -/
def insert (map : NameMap α) (name : String) (value : α) : NameMap α :=
  ⟨place name value map.entries, place_ascending name value map.entries map.ascending⟩

/-- Inserts the entries from left to right, so of one name the last value counts. -/
def ofList (entries : List (String × α)) : NameMap α :=
  entries.foldl (fun map entry => map.insert entry.1 entry.2) empty

/-- The value of a name. -/
def find? (map : NameMap α) (name : String) : Option α :=
  (map.entries.find? (·.1 == name)).map (·.2)

def names (map : NameMap α) : List String := map.entries.map (·.1)

theorem ext {first second : NameMap α} (same : first.entries = second.entries) :
    first = second := by
  cases first
  cases second
  cases same
  rfl

instance [DecidableEq α] : DecidableEq (NameMap α) := fun first second =>
  decidable_of_iff (first.entries = second.entries) ⟨ext, fun same => same ▸ rfl⟩

private theorem find?_place (name key : String) (value : α) (entries : List (String × α)) :
    ((place name value entries).find? (·.1 == key)).map (·.2) =
      if name = key then some value else (entries.find? (·.1 == key)).map (·.2) := by
  induction entries with
  | nil => by_cases same : name = key <;> simp [place, same]
  | cons head rest ih =>
      obtain ⟨other, held⟩ := head
      simp only [place]
      split
      · by_cases same : name = key <;> simp [List.find?_cons, same]
      · split
        · rename_i after
          by_cases here : other = key
          · have differ : name ≠ key := by
              intro same
              exact String.lt_irrefl key (by rw [here, same] at after; exact after)
            simp [here, differ]
          · simp [here, ih]
        · rename_i notBefore notAfter
          have equal : name = other :=
            String.le_antisymm (String.not_lt.mp notAfter) (String.not_lt.mp notBefore)
          by_cases same : name = key
          · simp [same]
          · simp [same, ← equal]

theorem find?_insert (map : NameMap α) (name key : String) (value : α) :
    (map.insert name value).find? key = if name = key then some value else map.find? key :=
  find?_place name key value map.entries

private theorem find?_eq_some_of_mem {entries : List (String × α)} {entry : String × α}
    (ascending : entries.Pairwise (fun first second => first.1 < second.1))
    (member : entry ∈ entries) : entries.find? (·.1 == entry.1) = some entry := by
  induction entries with
  | nil => cases member
  | cons head rest ih =>
      have tail := List.pairwise_cons.mp ascending
      rcases List.mem_cons.mp member with here | later
      · simp [← here]
      · have differ : head.1 ≠ entry.1 := by
          intro same
          have below := tail.1 entry later
          rw [same] at below
          exact String.lt_irrefl _ below
        simp [differ, ih tail.2 later]

theorem find?_eq_some_iff {map : NameMap α} {name : String} {value : α} :
    map.find? name = some value ↔ (name, value) ∈ map.entries := by
  constructor
  · intro found
    obtain ⟨entry, located, same⟩ := Option.map_eq_some_iff.mp found
    have named : entry.1 = name := by simpa using List.find?_some located
    have member := List.mem_of_find?_eq_some located
    rwa [show (name, value) = entry by rw [← named, ← same]]
  · intro member
    simp only [find?, find?_eq_some_of_mem map.ascending member, Option.map_some]

private theorem entries_eq_of_mem_iff {first second : List (String × α)}
    (left : first.Pairwise (fun a b => a.1 < b.1))
    (right : second.Pairwise (fun a b => a.1 < b.1))
    (same : ∀ entry, entry ∈ first ↔ entry ∈ second) : first = second := by
  induction first generalizing second with
  | nil =>
      cases second with
      | nil => rfl
      | cons head rest => cases (same head).mpr List.mem_cons_self
  | cons head rest ih =>
      cases second with
      | nil => cases (same head).mp List.mem_cons_self
      | cons other more =>
          have leftTail := List.pairwise_cons.mp left
          have rightTail := List.pairwise_cons.mp right
          have heads : head = other := by
            rcases List.mem_cons.mp ((same head).mp List.mem_cons_self) with equal | later
            · exact equal
            · rcases List.mem_cons.mp ((same other).mpr List.mem_cons_self) with equal | earlier
              · exact equal.symm
              · have cycle := String.lt_trans (rightTail.1 head later) (leftTail.1 other earlier)
                exact absurd cycle (String.lt_irrefl _)
          subst heads
          congr 1
          apply ih leftTail.2 rightTail.2
          intro entry
          constructor
          · intro member
            rcases List.mem_cons.mp ((same entry).mp (List.mem_cons_of_mem _ member)) with
              equal | later
            · have below := leftTail.1 entry member
              rw [equal] at below
              exact absurd below (String.lt_irrefl _)
            · exact later
          · intro member
            rcases List.mem_cons.mp ((same entry).mpr (List.mem_cons_of_mem _ member)) with
              equal | later
            · have below := rightTail.1 entry member
              rw [equal] at below
              exact absurd below (String.lt_irrefl _)
            · exact later

/-- Maps that give every name the same value are equal. -/
theorem eq_of_find? {first second : NameMap α}
    (same : ∀ name, first.find? name = second.find? name) : first = second := by
  apply ext
  apply entries_eq_of_mem_iff first.ascending second.ascending
  rintro ⟨name, value⟩
  rw [← find?_eq_some_iff, ← find?_eq_some_iff, same name]

end NameMap

end ControlStore
