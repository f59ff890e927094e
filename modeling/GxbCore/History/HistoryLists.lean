import GxbCore.History.AccountHistory

/-!
# What the history lists are

The list of an account is its entries from the oldest to the newest.  Their
sequence numbers are consecutive and end at `totalOps`; from `mostRecentOp` the
`next` pointers go down the list and end at the null id.  An entry is made at
one end and pruned at the other, and each of the two keeps this.
-/

namespace GxbCore.History

variable {Op Result : Type}

/-- Following `next` from an id visits these entries and then ends at the null
id. -/
def LinkedDown : Nat → List AccountTransactionHistory → Prop
  | start, [] => start = nullEntryId
  | start, entry :: older => entry.id = start ∧ LinkedDown entry.next older

/-- The entries of an account, the oldest first, agree with its statistics. -/
structure AccountKept
    (stats : AccountStatistics)
    (entries : List AccountTransactionHistory) : Prop where
  sequences :
    entries.map AccountTransactionHistory.sequence =
      List.range' (stats.removedOps + 1) entries.length
  counted : stats.removedOps + entries.length = stats.totalOps
  fits : stats.totalOps < counterRange
  linked : LinkedDown stats.mostRecentOp entries.reverse

namespace AccountTransactionHistory

variable (id : Nat) (entry : AccountTransactionHistory)

@[simp]
theorem cut_id : (entry.cut id).id = entry.id := by
  by_cases same : entry.id = id
  · simp [cut, same]
  · simp [cut, same]

@[simp]
theorem cut_account : (entry.cut id).account = entry.account := by
  by_cases same : entry.id = id
  · simp [cut, same]
  · simp [cut, same]

@[simp]
theorem cut_operationId : (entry.cut id).operationId = entry.operationId := by
  by_cases same : entry.id = id
  · simp [cut, same]
  · simp [cut, same]

@[simp]
theorem cut_self : entry.cut entry.id = { entry with next := nullEntryId } :=
  if_pos rfl

theorem cut_of_ne {id : Nat} {entry : AccountTransactionHistory}
    (other : entry.id ≠ id) : entry.cut id = entry :=
  if_neg other

end AccountTransactionHistory

section Lists

variable {stats : AccountStatistics}
variable {entries : List AccountTransactionHistory}
variable {entry : AccountTransactionHistory}

theorem AccountKept.fresh : AccountKept AccountStatistics.fresh [] := by
  constructor
  · rfl
  · rfl
  · decide
  · rfl

theorem AccountKept.grow (kept : AccountKept stats entries)
    (room : stats.totalOps + 1 < counterRange)
    (numbered : entry.sequence = stats.totalOps + 1)
    (pointing : entry.next = stats.mostRecentOp) :
    AccountKept
      { stats with mostRecentOp := entry.id, totalOps := entry.sequence }
      (entries ++ [entry]) := by
  have counted := kept.counted
  constructor
  · have start : stats.removedOps + 1 + entries.length = entry.sequence := by
      omega
    simp only [List.map_append, List.map_cons, List.map_nil,
      List.length_append, List.length_cons, List.length_nil]
    rw [kept.sequences, Nat.zero_add, ← List.range'_append_1, start]
    rfl
  · simp only [List.length_append, List.length_cons, List.length_nil]
    omega
  · simp only [numbered]
    exact room
  · rw [List.reverse_append]
    refine ⟨rfl, ?_⟩
    rw [pointing]
    exact kept.linked

theorem LinkedDown.cut
    {start : Nat} {newer older : List AccountTransactionHistory}
    (linked : LinkedDown start (newer ++ entry :: older)) :
    LinkedDown start
      (newer ++ [{ entry with next := nullEntryId }]) := by
  induction newer generalizing start with
  | nil => exact ⟨linked.1, rfl⟩
  | cons first rest ih =>
      exact ⟨linked.1, ih linked.2⟩

variable {earliest : AccountTransactionHistory}

theorem AccountKept.prune
    (kept : AccountKept stats (earliest :: entry :: entries)) :
    AccountKept
      { stats with removedOps := (stats.removedOps + 1) % counterRange }
      ({ entry with next := nullEntryId } :: entries) := by
  have counted := kept.counted
  have fits := kept.fits
  simp only [List.length_cons] at counted
  have small : (stats.removedOps + 1) % counterRange = stats.removedOps + 1 :=
    Nat.mod_eq_of_lt (by omega)
  constructor
  · have sequences := kept.sequences
    simp only [List.map_cons, List.length_cons, List.range'_succ,
      List.cons.injEq] at sequences
    simp only [List.map_cons, List.length_cons, List.range'_succ,
      List.cons.injEq, small]
    exact sequences.2
  · simp only [List.length_cons, small]
    omega
  · exact fits
  · have linked := kept.linked
    simp only [List.reverse_cons, List.append_assoc,
      List.cons_append, List.nil_append] at linked
    simp only [List.reverse_cons]
    exact linked.cut

theorem counterSub_add {left right : Nat} (small : right < counterRange) :
    counterSub (left + right) left = right := by
  have split : left + right + counterRange - left = right + counterRange := by
    omega
  rw [counterSub, split, Nat.add_mod_right]
  exact Nat.mod_eq_of_lt small

theorem AccountKept.length (kept : AccountKept stats entries) :
    entries.length = counterSub stats.totalOps stats.removedOps := by
  have counted := kept.counted
  have fits := kept.fits
  rw [← counted]
  exact (counterSub_add (by omega)).symm

/-- The index by sequence lists the entries in the order they were made. -/
theorem AccountKept.sorted (kept : AccountKept stats entries) :
    entries.insertionSort
        (fun left right => left.sequence ≤ right.sequence) = entries := by
  apply List.Pairwise.insertionSort_eq
  have increasing :
      (entries.map AccountTransactionHistory.sequence).Pairwise (· ≤ ·) := by
    rw [kept.sequences]
    exact List.pairwise_le_range'
  exact List.pairwise_map.mp increasing

theorem AccountKept.newest_ne
    (kept : AccountKept stats (earliest :: entry :: entries))
    (distinct :
      ((earliest :: entry :: entries).map
        AccountTransactionHistory.id).Nodup) :
    earliest.id ≠ stats.mostRecentOp := by
  have linked := kept.linked
  cases newest : (entry :: entries).reverse with
  | nil => simp at newest
  | cons last rest =>
      rw [List.reverse_cons, newest] at linked
      have isLast : last.id = stats.mostRecentOp := linked.1
      have member : last ∈ entry :: entries := by
        rw [← List.mem_reverse, newest]
        exact List.mem_cons_self
      have apart := (List.nodup_cons.mp distinct).1
      intro same
      apply apart
      rw [same, ← isLast]
      exact List.mem_map_of_mem member

end Lists

end GxbCore.History
