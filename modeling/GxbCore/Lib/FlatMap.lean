import Mathlib.Order.Lattice

/-!
# Flat maps

A map as the list of its entries in the order of their keys.  To assign a value
replaces the entry of the key, or enters one at its place.
-/

namespace GxbCore

variable {κ ν : Type} [LinearOrder κ]

/-- `map[key] = value` -/
def assign (key : κ) (value : ν) : List (κ × ν) → List (κ × ν)
  | [] => [(key, value)]
  | entry :: rest =>
      if entry.1 = key then (key, value) :: rest
      else if key < entry.1 then (key, value) :: entry :: rest
      else entry :: assign key value rest

theorem mem_keys_assign {key other : κ} {value : ν} {entries : List (κ × ν)} :
    other ∈ (assign key value entries).map Prod.fst ↔
      other = key ∨ other ∈ entries.map Prod.fst := by
  induction entries with
  | nil => simp [assign]
  | cons entry rest ih =>
      rw [assign]
      split
      · next same => simp [same]
      · split
        · simp
        · rw [List.map_cons, List.mem_cons, ih, List.map_cons,
            List.mem_cons]
          exact or_left_comm

/-- A key has a value exactly when it is one of the keys. -/
theorem lookup_eq_none_iff_keys {κ ν : Type} [BEq κ] [LawfulBEq κ] {key : κ}
    {entries : List (κ × ν)} :
    entries.lookup key = none ↔ key ∉ entries.map Prod.fst := by
  rw [List.lookup_eq_none_iff]
  constructor
  · intro differs member
    obtain ⟨entry, inside, same⟩ := List.mem_map.mp member
    simpa [same] using differs entry inside
  · intro absent entry inside
    by_contra same
    apply absent
    have isKey : key = entry.1 := by simpa using same
    exact isKey ▸ List.mem_map_of_mem inside

end GxbCore
