import GxbCore.Chain.ForkRecovery

/-!
# When a push that throws leaves the chain as it was

A block that extends the chain and does not apply is taken back by its session.
A fork switch is taken back by popping the blocks of the new branch that did
apply and applying the old branch again, and these pops can get stuck: they
move the head of the fork database down from the *old* head, past the block
where the branches meet if as many new blocks applied as old ones were popped,
and the item they need there may be gone, or there may never have been one.
-/

namespace GxbCore.Chain

variable {B X : Type} {rules : Rules B X} {known : Set (Block B)}
  {db : ChainDatabase B X} {newBlock : Block B}

/-- A push that throws leaves the object state, and with it the head and the
main chain, as it was. -/
def Atomic (rules : Rules B X) (skipForkDb : Bool) (newBlock : Block B)
    (db : ChainDatabase B X) : Prop :=
  (pushBlock rules skipForkDb newBlock db).returned = false →
    (pushBlock rules skipForkDb newBlock db).state.state = db.state

/-- The pops of a switch do not get stuck half way, neither on the old branch
nor, when a block of the new branch does not apply, on the blocks below it; or
they get stuck on blocks that are the old branch again. -/
structure Recovers (rules : Rules B X) (switch : Switch B)
    (db : ChainDatabase B X) : Prop where
  pops :
    CanPop switch.held 1 db →
      CanPop switch.held switch.second.length db
  restores :
    ∀ below good bad later reached count,
      Popped switch.held switch.second.length db below →
      switch.first.reverse = good ++ bad :: later →
      applyAll rules (good.map ForkItem.block) below.state =
        some reached →
      (∀ after, applyState rules bad.block reached ≠ .ok after) →
      count < good.length →
      CanPop switch.held count
        (switch.failed rules good (bad :: later) below) →
      ¬ CanPop switch.held (count + 1)
        (switch.failed rules good (bad :: later) below) →
      (good.map ForkItem.block).take (good.length - count) =
        switch.second.reverse.map ForkItem.block

theorem pushBlock_of_attempts {fork : ForkDatabase B} {newHead : ForkItem B}
    (attempts : Attempts db newBlock fork newHead) :
    pushBlock rules false newBlock db =
      switchForks rules newBlock newHead { db with forkDb := fork } := by
  simp only [pushBlock, attempts.pushed, attempts.head,
    Bool.false_eq_true, if_false]
  rw [if_pos attempts.elsewhere, if_pos attempts.higher]

theorem atomic_of_not_attempts (skipForkDb : Bool)
    (none :
      skipForkDb = false →
        ∀ fork newHead, ¬ Attempts db newBlock fork newHead) :
    Atomic rules skipForkDb newBlock db := by
  have linear :
      ∀ start : ChainDatabase B X,
        (pushLinear rules newBlock start).returned = false →
        (pushLinear rules newBlock start).state.state = start.state := by
    intro start throws
    rcases applyAndStore_cases rules newBlock.id newBlock start with
      ⟨after, returns, _⟩ | ⟨fault, after, fails, refused⟩
    · simp [pushLinear, returns] at throws
    · simp only [pushLinear, fails, Outcome.state_throw]
      exact refused.current
  unfold Atomic
  have course := pushBlock_cases rules skipForkDb newBlock db
  generalize pushBlock rules skipForkDb newBlock db = outcome at course ⊢
  cases course with
  | skipped isSkipped => exact linear db
  | refused fault left refuses => exact fun _ => rfl
  | kept fork newHead pushed head elsewhere notHigher =>
      intro throws
      cases throws
  | linear fork newHead pushed head builds =>
      exact linear { db with forkDb := fork }
  | switched fork newHead notSkipped attempts =>
      exact absurd attempts (none notSkipped fork newHead)

section Switching

variable {fork : ForkDatabase B} {newHead : ForkItem B}
  {first second : List (ForkItem B)} {older : List (Block B)}

theorem pushBranch_all (switch : Switch B) {items : List (ForkItem B)}
    {below : ChainDatabase B X} {after : ChainState B X}
    (applies :
      applyAll rules (items.map ForkItem.block) below.state =
        some after) :
    (pushBranch rules switch items below).returned = true := by
  obtain ⟨final, returns, _⟩ :=
    forEach_applyAndStore ForkItem.id applies
  have whole := pushBranch_append switch [] returns
  rw [List.append_nil] at whole
  rw [whole]
  rfl

/-- A snapshot from below the present state is another state. -/
theorem popped_state_ne {count : Nat} {left : ChainDatabase B X}
    (ok : ObjectsOk known rules db.objects) (some : 0 < count)
    (bound : count ≤ db.state.history.length)
    (dropped :
      left.objects.current :: left.objects.saved =
        (db.objects.current :: db.objects.saved).drop count) :
    left.state ≠ db.state := by
  intro same
  have below : left.state.history = db.state.history.drop count :=
    ok.dropped_history bound dropped
  rw [same] at below
  have lengths := congrArg List.length below
  rw [List.length_drop] at lengths
  omega

theorem applyAll_refused {good later : List (ForkItem B)}
    {bad : ForkItem B} {state reached : ChainState B X}
    (applies : applyAll rules (good.map ForkItem.block) state = some reached)
    (refused : ∀ after, applyState rules bad.block reached ≠ .ok after) :
    applyAll rules ((good ++ bad :: later).map ForkItem.block) state =
      none := by
  rw [List.map_append, applyAll_append, applies, Option.bind_some,
    List.map_cons]
  cases stops : applyState rules bad.block reached with
  | error fault => simp only [applyAll, stops]
  | ok after => exact absurd stops (refused after)

theorem applyAll_blocks_eq {left right : List (Block B)}
    {state after : ChainState B X}
    (leftApplies : applyAll rules left state = some after)
    (rightApplies : applyAll rules right state = some after) :
    left = right := by
  have histories :=
    (applyAll_history leftApplies).symm.trans
      (applyAll_history rightApplies)
  exact List.reverse_injective (List.append_cancel_right histories)

/-- The second half of a switch, from the database with the old branch
popped. -/
theorem pushBranch_atomic_iff {switch : Switch B} {below : ChainDatabase B X}
    (okBelow : ObjectsOk known rules below.objects)
    (history : below.state.history = older)
    (switchOk : SwitchOk known db.forkDb.items older switch)
    (popped : Popped switch.held switch.second.length db below)
    (replays :
      applyAll rules (switch.second.reverse.map ForkItem.block)
        below.state = some db.state) :
    ((pushBranch rules switch switch.first.reverse below).returned =
        false →
      (pushBranch rules switch switch.first.reverse below).state.state =
        db.state) ↔
      Recovers rules switch db := by
  have knownItems :
      ∀ {good later : List (ForkItem B)} {bad : ForkItem B},
        switch.first.reverse = good ++ bad :: later →
        ∀ item ∈ good, item.block ∈ known := by
    intro good later bad parts item member
    apply switchOk.known
    apply switchOk.first_subset
    rw [← List.mem_reverse, parts]
    exact List.mem_append_left _ member
  rcases applyAll_cases rules switch.first.reverse below.state with
    ⟨after, applies⟩ |
    ⟨good, bad, later, reached, parts, applies, refused⟩
  · -- the whole branch applies
    have returns := pushBranch_all switch applies
    constructor
    · intro _
      refine
        { pops := fun _ => popped.canPop
          restores := ?_ }
      intro other good bad later reached count poppedToo parts
        goodApplies refused
      rw [poppedToo.unique popped] at goodApplies
      rw [parts, applyAll_refused goodApplies refused] at applies
      cases applies
    · intro _ throws
      rw [returns] at throws
      cases throws
  · constructor
    · intro atomic
      refine
        { pops := fun _ => popped.canPop
          restores := ?_ }
      intro other good bad later reached count poppedToo parts
        goodApplies refused fewer able stuck
      obtain rfl : other = below := poppedToo.unique popped
      rcases pushBranch_failed okBelow history switchOk.target
          (knownItems parts) goodApplies refused replays with
        ⟨all, _⟩ |
        ⟨count', _, able', stuck', fault, final, throws, finalApplies,
          _⟩
      · exact absurd (all.mono fewer) stuck
      · obtain rfl : count' = count :=
          able'.unique stuck' able stuck
        rw [← parts] at throws
        have same : final.state = db.state := by
          rw [throws] at atomic
          exact atomic rfl
        rw [same] at finalApplies
        exact applyAll_blocks_eq finalApplies replays
    · intro recovers _
      rcases pushBranch_failed okBelow history switchOk.target
          (knownItems parts) applies refused replays with
        ⟨_, fault, final, throws, restored, _⟩ |
        ⟨count, fewer, able, stuck, fault, final, throws, finalApplies,
          _⟩
      · rw [parts, throws]
        exact restored
      · have same :=
          recovers.restores below good bad later reached count popped
            parts applies refused fewer able stuck
        rw [same, replays, Option.some.injEq] at finalApplies
        rw [parts, throws]
        exact finalApplies.symm

/-- A switch that throws leaves the chain as it was exactly when its pops do
not get stuck half way. -/
theorem switchForks_atomic_iff (newBlock : Block B) (free : CollisionFree known)
    (ok : DatabaseOk known rules db) (isHead : db.forkDb.head = some newHead)
    (higher : db.headBlockNum < newHead.num)
    (found :
      db.forkDb.fetchBranchFrom newHead.id db.headBlockId =
        some (first, second)) :
    ((switchForks rules newBlock newHead db).returned = false →
      (switchForks rules newBlock newHead db).state.state = db.state) ↔
      Recovers rules ⟨newBlock, newHead, first, second⟩ db := by
  obtain ⟨older, switch, switchEq, shape, course⟩ :=
    switchForks_cases newBlock free ok isHead higher found
  rw [← switchEq]
  rcases course with ⟨below, point, goesOn⟩ |
    ⟨count, fault, left, throws, fewer, stuck, able, dropped, _⟩
  · rw [goesOn]
    exact pushBranch_atomic_iff point.objects point.history
      point.switchOk point.popped point.replays
  · rw [throws, Outcome.state_throw, Outcome.returned_throw]
    have notAll : ¬ CanPop switch.held switch.second.length db :=
      fun all => stuck (all.mono fewer)
    constructor
    · intro atomic
      have none : count = 0 := by
        by_contra more
        refine popped_state_ne ok.objects (Nat.pos_of_ne_zero more) ?_
          dropped (atomic rfl)
        rw [shape, List.length_append, List.length_map]
        omega
      subst none
      exact
        { pops := fun one => absurd one stuck
          restores := fun _ _ _ _ _ _ popped =>
            absurd popped.canPop notAll }
    · intro recovers _
      have none : count = 0 := by
        by_contra more
        exact notAll
          (recovers.pops (able.mono (Nat.pos_of_ne_zero more)))
      subst none
      exact (List.cons.inj dropped).1

end Switching

end GxbCore.Chain
