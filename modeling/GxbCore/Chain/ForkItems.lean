import GxbCore.Chain.ForkDatabase

/-!
# Items of the fork database and the branches between them

`ItemsOk` is about a pool of items: a pointer that leads to an item of the pool
leads to the predecessor.  Every call of the fork database only lets items go
or moves the head inside the pool, except `push_block`, which adds one item at
a new address.

`fetch_branch_from` returns two branches of such items that go down, block by
block, to a common predecessor, and to the highest one there is.
-/

namespace GxbCore.Chain

variable {B : Type} {known : Set (Block B)}

/-- Items at addresses below `next`, of which a pointer leads to the
predecessor or nowhere. -/
structure ItemsOk (known : Set (Block B)) (next : Nat)
    (pool : List (ForkItem B)) : Prop where
  known : ∀ item ∈ pool, item.block ∈ known
  sameAddress :
    ∀ left ∈ pool, ∀ right ∈ pool,
      left.address = right.address → left = right
  parent :
    ∀ item ∈ pool, ∀ other ∈ pool,
      item.prev = some other.address → other.id = item.block.previous
  addressBelow : ∀ item ∈ pool, item.address < next
  prevBelow :
    ∀ item ∈ pool, ∀ address, item.prev = some address → address < next

theorem ItemsOk.subset {next : Nat} {pool smaller : List (ForkItem B)}
    (ok : ItemsOk known next pool) (inside : smaller ⊆ pool) :
    ItemsOk known next smaller :=
  { known := fun item member => ok.known item (inside member)
    sameAddress := fun left leftMember right rightMember =>
      ok.sameAddress left (inside leftMember) right (inside rightMember)
    parent := fun item member other otherMember =>
      ok.parent item (inside member) other (inside otherMember)
    addressBelow := fun item member => ok.addressBelow item (inside member)
    prevBelow := fun item member => ok.prevBelow item (inside member) }

/-- A new item at the next address that points to the item of its
predecessor. -/
theorem ItemsOk.cons {next : Nat} {pool : List (ForkItem B)} {block : Block B}
    {prev : Option Nat} (ok : ItemsOk known next pool) (isKnown : block ∈ known)
    (points :
      ∀ address, prev = some address →
        ∃ parent ∈ pool, parent.address = address ∧
          parent.id = block.previous) :
    ItemsOk known (next + 1) (⟨next, prev, block⟩ :: pool) := by
  have fresh : ∀ item ∈ pool, item.address ≠ next := by
    intro item member
    have below := ok.addressBelow item member
    omega
  refine
    { known := ?_
      sameAddress := ?_
      parent := ?_
      addressBelow := ?_
      prevBelow := ?_ }
  · intro item member
    rcases List.mem_cons.mp member with same | older
    · exact same ▸ isKnown
    · exact ok.known item older
  · intro left leftMember right rightMember same
    rcases List.mem_cons.mp leftMember with leftNew | leftOld
    · rcases List.mem_cons.mp rightMember with rightNew | rightOld
      · rw [leftNew, rightNew]
      · rw [leftNew] at same
        exact absurd same.symm (fresh right rightOld)
    · rcases List.mem_cons.mp rightMember with rightNew | rightOld
      · rw [rightNew] at same
        exact absurd same (fresh left leftOld)
      · exact ok.sameAddress left leftOld right rightOld same
  · intro item member other otherMember pointer
    rcases List.mem_cons.mp member with itemNew | itemOld
    · subst itemNew
      obtain ⟨parent, parentMember, address, identity⟩ :=
        points other.address pointer
      have different : other ≠ ⟨next, prev, block⟩ := by
        intro same
        have below := ok.addressBelow parent parentMember
        rw [address, same] at below
        exact Nat.lt_irrefl next below
      have otherOld := (List.mem_cons.mp otherMember).resolve_left different
      rw [ok.sameAddress other otherOld parent parentMember address.symm]
      exact identity
    · rcases List.mem_cons.mp otherMember with otherNew | otherOld
      · rw [otherNew] at pointer
        exact absurd (ok.prevBelow item itemOld next pointer)
          (Nat.lt_irrefl next)
      · exact ok.parent item itemOld other otherOld pointer
  · intro item member
    rcases List.mem_cons.mp member with same | older
    · subst same
      exact Nat.lt_succ_self next
    · exact Nat.lt_succ_of_lt (ok.addressBelow item older)
  · intro item member address pointer
    rcases List.mem_cons.mp member with same | older
    · subst same
      obtain ⟨parent, parentMember, rfl, _⟩ := points address pointer
      exact Nat.lt_succ_of_lt (ok.addressBelow parent parentMember)
    · exact Nat.lt_succ_of_lt
        (ok.prevBelow item older address pointer)

namespace ForkDatabase

variable {fork : ForkDatabase B} {pool held : List (ForkItem B)}
  {item : ForkItem B}

theorem mem_items :
    item ∈ fork.items ↔ fork.head = some item ∨ item ∈ fork.index := by
  simp [items, Option.mem_toList]

theorem lock_eq_some {item parent : ForkItem B}
    (locked : fork.lock held item = some parent) :
    parent ∈ fork.items ++ held ∧ item.prev = some parent.address := by
  unfold lock at locked
  split at locked
  · cases locked
  · rename_i address pointer
    have found := List.find?_some locked
    simp only [decide_eq_true_eq] at found
    exact ⟨List.mem_of_find?_eq_some locked, by rw [pointer, found]⟩

theorem lock_of_mem {next : Nat} {item parent : ForkItem B}
    (ok : ItemsOk known next pool) (inside : fork.items ++ held ⊆ pool)
    (member : parent ∈ fork.items ++ held)
    (pointer : item.prev = some parent.address) :
    fork.lock held item = some parent := by
  simp only [lock, pointer]
  cases found :
      (fork.items ++ held).find? fun other =>
        decide (other.address = parent.address) with
  | none =>
      rw [List.find?_eq_none] at found
      have differs := found parent member
      simp at differs
  | some other =>
      have address := List.find?_some found
      simp only [decide_eq_true_eq] at address
      rw [ok.sameAddress other
        (inside (List.mem_of_find?_eq_some found)) parent
        (inside member) address]

/-- Following a pointer inside the pool leads to the predecessor. -/
theorem parent_of_lock {next : Nat} {item parent : ForkItem B}
    (ok : ItemsOk known next pool) (inside : fork.items ++ held ⊆ pool)
    (member : item ∈ pool) (locked : fork.lock held item = some parent) :
    parent ∈ pool ∧ parent.id = item.block.previous := by
  obtain ⟨parentMember, pointer⟩ := lock_eq_some locked
  exact
    ⟨inside parentMember,
      ok.parent item member parent (inside parentMember) pointer⟩

theorem find_eq_some {id : BlockId} (found : fork.find id = some item) :
    item ∈ fork.index ∧ item.id = id := by
  have same := List.find?_some found
  simp only [decide_eq_true_eq] at same
  exact ⟨List.mem_of_find?_eq_some found, same⟩

theorem find_isSome {id : BlockId}
    (member : item ∈ fork.index) (same : item.id = id) :
    (fork.find id).isSome := by
  simp only [find, List.find?_isSome, decide_eq_true_eq]
  exact ⟨item, member, same⟩

theorem prune_items_subset (least : Nat) :
    (fork.prune least).items ⊆ fork.items := by
  intro item member
  rcases mem_items.mp member with isHead | inIndex
  · exact mem_items.mpr (Or.inl isHead)
  · exact mem_items.mpr (Or.inr (List.mem_of_mem_filter inIndex))

theorem setMaxSize_items_subset (size : Nat) :
    (fork.setMaxSize size).items ⊆ fork.items := by
  unfold setMaxSize
  simp only
  split
  · exact List.Subset.refl _
  · exact prune_items_subset _

@[simp]
theorem setMaxSize_head (size : Nat) :
    (fork.setMaxSize size).head = fork.head := by
  unfold setMaxSize
  simp only
  split
  · rfl
  · rfl

@[simp]
theorem setMaxSize_nextAddress (size : Nat) :
    (fork.setMaxSize size).nextAddress = fork.nextAddress := by
  unfold setMaxSize
  simp only
  split
  · rfl
  · rfl

theorem popBlock_eq_ok {popped : ForkDatabase B}
    (returns : fork.popBlock held = .ok popped) :
    ∃ head prev, fork.head = some head ∧
      fork.lock held head = some prev ∧
      popped = { fork with head := some prev } := by
  unfold popBlock at returns
  split at returns
  · cases returns
  · rename_i head isHead
    split at returns
    · cases returns
    · rename_i prev locked
      exact ⟨head, prev, isHead, locked, (Outcome.ok.inj returns).symm⟩

theorem popBlock_items_subset {popped : ForkDatabase B}
    (returns : fork.popBlock held = .ok popped) :
    popped.items ⊆ fork.items ++ held := by
  obtain ⟨head, prev, _, locked, rfl⟩ := popBlock_eq_ok returns
  intro item member
  rcases mem_items.mp member with isHead | inIndex
  · simp only [Option.some.injEq] at isHead
    exact isHead ▸ (lock_eq_some locked).1
  · exact List.mem_append_left _ (mem_items.mpr (Or.inr inIndex))

theorem popBlock_throw {fault : ChainFault} {left : ForkDatabase B}
    (throws : fork.popBlock held = .throw fault left) : left = fork := by
  unfold popBlock at throws
  split at throws
  · exact (Outcome.throw.inj throws).2.symm
  · split at throws
    · exact (Outcome.throw.inj throws).2.symm
    · cases throws

theorem erase_items_subset (id : BlockId) :
    (fork.erase id).items ⊆ fork.items := by
  intro item member
  rcases mem_items.mp member with isHead | inIndex
  · exact mem_items.mpr (Or.inl isHead)
  · exact mem_items.mpr (Or.inr (List.mem_of_mem_filter inIndex))

theorem remove_items_subset (id : BlockId) :
    (fork.remove held id).items ⊆ fork.items ++ held := by
  have erased : (fork.erase id).items ⊆ fork.items ++ held :=
    List.Subset.trans (erase_items_subset id)
      (List.subset_append_left _ _)
  unfold remove
  simp only
  split
  · exact erased
  · split
    · split
      · rename_i popped returns
        intro item member
        rcases List.mem_append.mp
            (popBlock_items_subset returns member) with older | isHeld
        · exact erased older
        · exact List.mem_append_right _ isHeld
      · rename_i fault left throws
        rw [popBlock_throw throws]
        intro item member
        rcases mem_items.mp member with isHead | inIndex
        · cases isHead
        · exact erased (mem_items.mpr (Or.inr inIndex))
    · exact erased

@[simp]
theorem remove_nextAddress (id : BlockId) :
    (fork.remove held id).nextAddress = fork.nextAddress := by
  unfold remove
  simp only
  split
  · rfl
  · split
    · split
      · rename_i popped returns
        obtain ⟨_, _, _, _, rfl⟩ := popBlock_eq_ok returns
        rfl
      · rename_i fault left throws
        rw [popBlock_throw throws]
        rfl
    · rfl

/-- The items after `push_block`: the new one, at the next address, and some of
the old ones. -/
theorem insertItem_items (fork : ForkDatabase B) (item : ForkItem B) :
    (fork.insertItem item).items ⊆ item :: fork.items ∧
      (fork.insertItem item).nextAddress = fork.nextAddress + 1 := by
  have indexSubset :
      (if (fork.find item.id).isSome then fork.index
        else item :: fork.index) ⊆ item :: fork.items := by
    intro other member
    split at member
    · exact List.mem_cons_of_mem _ (mem_items.mpr (Or.inr member))
    · rcases List.mem_cons.mp member with same | older
      · exact same ▸ List.mem_cons_self
      · exact List.mem_cons_of_mem _ (mem_items.mpr (Or.inr older))
  have withHead :
      ∀ head other, other ∈ ForkDatabase.items
          { fork with
            index :=
              if (fork.find item.id).isSome then fork.index
              else item :: fork.index
            head := head
            nextAddress := fork.nextAddress + 1 } →
        (head = fork.head ∨ head = some item) →
        other ∈ item :: fork.items := by
    intro head other member headCase
    rcases mem_items.mp member with isHead | inIndex
    · simp only at isHead
      rcases headCase with old | new
      · rw [old] at isHead
        exact List.mem_cons_of_mem _ (mem_items.mpr (Or.inl isHead))
      · rw [new, Option.some.injEq] at isHead
        exact isHead ▸ List.mem_cons_self
    · exact indexSubset inIndex
  unfold insertItem
  simp only
  split
  · exact
      ⟨fun other member =>
        withHead (some item) other member (Or.inr rfl), rfl⟩
  · split
    · exact
        ⟨fun other member =>
          withHead (some item) other (prune_items_subset _ member)
            (Or.inr rfl), rfl⟩
    · exact
        ⟨fun other member =>
          withHead fork.head other member (Or.inl rfl), rfl⟩

/-- `push_block` adds one item, which points to the item of its predecessor, or
nowhere if there is nothing to point to. -/
theorem pushBlock_inserted {block : Block B} {pushed : ForkDatabase B}
    (returns : fork.pushBlock block = .ok pushed) :
    ∃ prev,
      pushed = fork.insertItem ⟨fork.nextAddress, prev, block⟩ ∧
      (prev = none → fork.head = none ∨ block.previous = .zero) ∧
      ∀ address, prev = some address →
        ∃ parent ∈ fork.index, parent.address = address ∧
          parent.id = block.previous := by
  unfold pushBlock at returns
  split at returns
  · rename_i noHead
    exact
      ⟨none, (Outcome.ok.inj returns).symm, fun _ => Or.inl noHead,
        by simp⟩
  · split at returns
    · cases returns
    · split at returns
      · rename_i root
        exact
          ⟨none, (Outcome.ok.inj returns).symm, fun _ => Or.inr root,
            by simp⟩
      · split at returns
        · cases returns
        · rename_i parent found
          obtain ⟨inIndex, identity⟩ := find_eq_some found
          refine
            ⟨some parent.address, (Outcome.ok.inj returns).symm,
              by simp, ?_⟩
          intro address same
          exact ⟨parent, inIndex, Option.some.inj same, identity⟩

theorem pushBlock_itemsOk {block : Block B} {pushed : ForkDatabase B}
    (ok : ItemsOk known fork.nextAddress fork.items) (isKnown : block ∈ known)
    (returns : fork.pushBlock block = .ok pushed) :
    ItemsOk known pushed.nextAddress pushed.items := by
  obtain ⟨prev, rfl, _, points⟩ := pushBlock_inserted returns
  obtain ⟨subset, next⟩ :=
    insertItem_items fork ⟨fork.nextAddress, prev, block⟩
  rw [next]
  refine (ok.cons isKnown ?_).subset subset
  intro address pointer
  obtain ⟨parent, inIndex, rest⟩ := points address pointer
  exact ⟨parent, mem_items.mpr (Or.inr inIndex), rest⟩

theorem insertItem_head :
    (fork.insertItem item).head =
      match fork.head with
      | none => some item
      | some head =>
          if head.num < item.num then some item else some head := by
  unfold insertItem
  simp only
  cases isHead : fork.head with
  | none => rfl
  | some head =>
      simp only
      split
      · rfl
      · rfl

end ForkDatabase

end GxbCore.Chain
