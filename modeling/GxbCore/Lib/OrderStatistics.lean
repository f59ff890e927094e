import Mathlib.Data.List.Sort

/-!
# The entry at a rank

What `std::nth_element` puts at a position has the key that sorting would put
there, and all entries from that position on have keys at least as large.
-/

namespace GxbCore

variable {α κ : Type} [LinearOrder κ] {key : α → κ}

/-- The entry at position `rank` of the list sorted by the key. -/
def nthElement (key : α → κ) (items : List α) (rank : Nat) : Option α :=
  (items.insertionSort fun first second => key first ≤ key second)[rank]?

section Sorted

variable {items : List α} {rank : Nat} {item : α}

theorem nthElement_mem (found : nthElement key items rank = some item) :
    item ∈ items := by
  have sorted := List.mem_of_getElem? found
  exact (List.mem_insertionSort _).mp sorted

/-- In a sorted list the entries from a position on are at least as large as
the entry there. -/
theorem key_le_of_mem_drop {other : α}
    (sorted : items.Pairwise fun first second => key first ≤ key second)
    (found : items[rank]? = some item) (later : other ∈ items.drop rank) :
    key item ≤ key other := by
  obtain ⟨inside, rfl⟩ := List.getElem?_eq_some_iff.mp found
  have split :=
    List.pairwise_cons.mp (List.drop_eq_getElem_cons inside ▸ sorted.drop)
  rw [List.drop_eq_getElem_cons inside, List.mem_cons] at later
  rcases later with same | beyond
  · rw [same]
  · exact split.1 other beyond

/-- All but `rank` of the entries have a key at least as large as the entry at
`rank`. -/
theorem length_sub_le_countP_nthElement
    (found : nthElement key items rank = some item) :
    items.length - rank ≤
      items.countP (fun other => key item ≤ key other) := by
  let ordered := items.insertionSort fun first second => key first ≤ key second
  have perm : ordered.Perm items := List.perm_insertionSort _ items
  have total : Std.Total fun first second : α => key first ≤ key second :=
    ⟨fun first second => le_total (key first) (key second)⟩
  have transitive : IsTrans α fun first second => key first ≤ key second :=
    ⟨fun _ _ _ => le_trans⟩
  have sorted : ordered.Pairwise fun first second => key first ≤ key second :=
    List.pairwise_insertionSort _ items
  have all :
      (ordered.drop rank).countP (fun other => key item ≤ key other) =
        (ordered.drop rank).length := by
    rw [List.countP_eq_length]
    intro other later
    exact decide_eq_true (key_le_of_mem_drop sorted found later)
  calc items.length - rank
      = (ordered.drop rank).countP (fun other => key item ≤ key other) := by
        rw [all, List.length_drop, perm.length_eq]
    _ ≤ ordered.countP (fun other => key item ≤ key other) :=
        (List.drop_sublist rank _).countP_le
    _ = items.countP (fun other => key item ≤ key other) := perm.countP_eq _

end Sorted

end GxbCore
