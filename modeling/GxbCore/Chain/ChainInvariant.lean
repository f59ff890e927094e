import GxbCore.Chain.PushBlock

/-!
# What every push keeps

A state fits its history: the head is the last block of it, and every block
names the one below.  Every snapshot on the undo stack is the state before one
block.  In the fork database a pointer that can be followed leads to the item
of the predecessor.

From these it follows that a pop takes one block off the history, that the old
branch of a switch is the top of the main chain, and that a switch never goes
below the block at which its branches meet.
-/

namespace GxbCore.Chain

variable {B X : Type} {rules : Rules B X} {known : Set (Block B)}

def mainBlock (state : ChainState B X) (num : Nat) : Option (Block B) :=
  state.history.find? fun block => decide (block.num = num)

/-- The object state fits its history, and nothing it counts is ahead of the
head. -/
structure StateOk (known : Set (Block B)) (state : ChainState B X) :
    Prop where
  linked : Linked state.history
  headId : state.headBlockId = lastId state.history
  headNum : state.headBlockNum = state.history.length
  known : ∀ block ∈ state.history, block ∈ known
  irreversible : state.lastIrreversibleBlockNum ≤ state.headBlockNum
  confirmed :
    ∀ witness, state.lastConfirmedBlockNum witness ≤ state.headBlockNum

theorem getD_insertionSort_le {values : List Nat} {bound : Nat}
    (bounded : ∀ value ∈ values, value ≤ bound) (offset : Nat) :
    (values.insertionSort (· ≤ ·)).getD offset 0 ≤ bound := by
  rw [List.getD_eq_getElem?_getD]
  cases found : (values.insertionSort (· ≤ ·))[offset]? with
  | none => exact Nat.zero_le bound
  | some value =>
      have member := List.mem_of_getElem? found
      exact bounded value ((List.mem_insertionSort _).mp member)

theorem irreversibleCandidate_le {state : ChainState B X} {bound : Nat}
    (confirmed : ∀ witness, state.lastConfirmedBlockNum witness ≤ bound) :
    irreversibleCandidate state ≤ bound := by
  apply getD_insertionSort_le
  intro value member
  obtain ⟨witness, _, rfl⟩ := List.mem_map.mp member
  exact confirmed witness

/-- What `apply_block` changes in the fields that the chain logic reads. -/
structure Extends (block : Block B) (before after : ChainState B X) :
    Prop where
  previous : block.previous = before.headBlockId
  history : after.history = block :: before.history
  headId : after.headBlockId = block.id
  headNum : after.headBlockNum = block.num
  irreversible :
    (∀ witness, before.lastConfirmedBlockNum witness ≤ block.num) →
    before.lastIrreversibleBlockNum ≤ block.num →
    after.lastIrreversibleBlockNum ≤ block.num
  confirmed :
    (∀ witness, before.lastConfirmedBlockNum witness ≤ block.num) →
    ∀ witness, after.lastConfirmedBlockNum witness ≤ block.num

variable {block : Block B} {before after : ChainDatabase B X}

theorem beginBlock_eq_ok {before begun : ChainState B X}
    (returns : beginBlock rules block before = .ok begun) :
    before.headBlockId = block.previous ∧
      ∃ rest,
        begun =
          { before with
            headBlockNum := block.num
            headBlockId := block.id
            rest := rest
            history := block :: before.history } := by
  unfold beginBlock at returns
  split at returns
  · cases returns
  · rename_i builds
    refine ⟨not_not.mp builds, ?_⟩
    split at returns
    · cases returns
    · rename_i rest _
      simp only at returns
      split at returns
      · exact ⟨rest, (Except.ok.inj returns).symm⟩
      · cases returns

theorem finishBlock_eq_ok {begun after : ChainState B X}
    (returns : finishBlock rules block begun = .ok after) :
    ∃ active rest,
      after =
        { updateLastIrreversibleBlock
            (updateSigningWitness block begun) with
          activeWitnesses := active
          rest := rest } := by
  unfold finishBlock at returns
  simp only at returns
  split at returns
  · cases returns
  · rename_i active rest _
    exact ⟨active, rest, (Except.ok.inj returns).symm⟩

/-- The one lemma about `apply_block` on the object state. -/
theorem applyState_extends {before after : ChainState B X}
    (returns : applyState rules block before = .ok after) :
    Extends block before after := by
  unfold applyState at returns
  split at returns
  · cases returns
  · rename_i begun beginReturns
    obtain ⟨builds, rest, rfl⟩ := beginBlock_eq_ok beginReturns
    obtain ⟨active, newRest, rfl⟩ := finishBlock_eq_ok returns
    have fields :
        ∀ state : ChainState B X,
          (updateLastIrreversibleBlock state).history = state.history ∧
          (updateLastIrreversibleBlock state).headBlockId =
            state.headBlockId ∧
          (updateLastIrreversibleBlock state).headBlockNum =
            state.headBlockNum ∧
          (updateLastIrreversibleBlock state).lastConfirmedBlockNum =
            state.lastConfirmedBlockNum := by
      intro state
      unfold updateLastIrreversibleBlock
      split
      · exact ⟨rfl, rfl, rfl, rfl⟩
      · exact ⟨rfl, rfl, rfl, rfl⟩
    have confirmedAfter :
        (∀ witness, before.lastConfirmedBlockNum witness ≤ block.num) →
        ∀ witness,
          (if witness = block.witness then block.num
            else before.lastConfirmedBlockNum witness) ≤ block.num := by
      intro bounded witness
      split
      · exact Nat.le_refl _
      · exact bounded witness
    refine
      { previous := builds.symm
        history := (fields _).1
        headId := (fields _).2.1
        headNum := (fields _).2.2.1
        irreversible := ?_
        confirmed := ?_ }
    · intro bounded low
      simp only [updateLastIrreversibleBlock]
      split
      · exact irreversibleCandidate_le (confirmedAfter bounded)
      · exact low
    · intro bounded witness
      simp only [(fields _).2.2.2]
      exact confirmedAfter bounded witness

theorem StateOk.extend {before after : ChainState B X}
    (ok : StateOk known before) (isKnown : block ∈ known)
    (extended : Extends block before after) : StateOk known after := by
  have number : block.num = before.headBlockNum + 1 := by
    rw [Block.num, extended.previous, ok.headId, ok.linked.lastId_num,
      ok.headNum]
  have confirmedBefore :
      ∀ witness, before.lastConfirmedBlockNum witness ≤ block.num :=
    fun witness => by
      have bound := ok.confirmed witness
      omega
  have irreversibleBefore : before.lastIrreversibleBlockNum ≤ block.num := by
    have bound := ok.irreversible
    omega
  exact
    { linked := by
        rw [extended.history]
        exact ⟨extended.previous.trans ok.headId, ok.linked⟩
      headId := by rw [extended.headId, extended.history, lastId_cons]
      headNum := by
        rw [extended.headNum, extended.history, List.length_cons, number,
          ok.headNum]
      known := by
        rw [extended.history]
        intro other member
        rcases List.mem_cons.mp member with same | older
        · exact same ▸ isKnown
        · exact ok.known other older
      irreversible := by
        rw [extended.headNum]
        exact extended.irreversible confirmedBefore irreversibleBefore
      confirmed := by
        rw [extended.headNum]
        exact extended.confirmed confirmedBefore }

/-- Every snapshot is the state just before one block. -/
def Undoable (rules : Rules B X) :
    ChainState B X → List (ChainState B X) → Prop
  | _, [] => True
  | state, last :: older =>
      (∃ block, applyState rules block last = .ok state) ∧
        Undoable rules last older

theorem Undoable.take {state : ChainState B X} {saved : List (ChainState B X)}
    (undoable : Undoable rules state saved) (count : Nat) :
    Undoable rules state (saved.take count) := by
  induction count generalizing state saved with
  | zero =>
      simp [Undoable]
  | succ count ih =>
      cases saved with
      | nil => simp [Undoable]
      | cons last older =>
          exact ⟨undoable.1, ih undoable.2⟩

/-- The object state and the snapshots below it. -/
structure ObjectsOk (known : Set (Block B)) (rules : Rules B X)
    (objects : Snapshots (ChainState B X)) : Prop where
  current : StateOk known objects.current
  saved : ∀ state ∈ objects.saved, StateOk known state
  undoable : Undoable rules objects.current objects.saved

theorem ObjectsOk.headBlockId_eq {db : ChainDatabase B X}
    (ok : ObjectsOk known rules db.objects) :
    db.headBlockId = lastId db.state.history :=
  ok.current.headId

theorem ObjectsOk.headBlockNum_eq {db : ChainDatabase B X}
    (ok : ObjectsOk known rules db.objects) :
    db.headBlockNum = db.state.history.length :=
  ok.current.headNum

/-- Losing the oldest snapshots, as pending sessions may make it happen. -/
theorem ObjectsOk.take {objects : Snapshots (ChainState B X)}
    (ok : ObjectsOk known rules objects) (count limit : Nat) :
    ObjectsOk known rules
      ⟨objects.current, objects.saved.take count, limit⟩ :=
  { current := ok.current
    saved := fun state member =>
      ok.saved state (List.mem_of_mem_take member)
    undoable := ok.undoable.take count }

/-- `pop_undo` -/
theorem ObjectsOk.restore {objects before : Snapshots (ChainState B X)}
    (ok : ObjectsOk known rules objects)
    (restored : objects.restore = some before) :
    ObjectsOk known rules before ∧
      ∃ block, applyState rules block before.current =
        .ok objects.current := by
  cases stack : objects.saved with
  | nil =>
      simp [Snapshots.restore_of_nil stack] at restored
  | cons last older =>
      rw [Snapshots.restore_of_cons stack, Option.some.injEq] at restored
      subst restored
      have undoable := ok.undoable
      rw [stack] at undoable
      have saved := ok.saved
      rw [stack] at saved
      exact
        ⟨{ current := saved last List.mem_cons_self
           saved := fun state member =>
            saved state (List.mem_cons_of_mem last member)
           undoable := undoable.2 },
          undoable.1⟩

/-- The fork database after the `set_max_size` call of a block, if the block
gets that far. -/
def sizedFork (rules : Rules B X) (block : Block B)
    (state : ChainState B X) (fork : ForkDatabase B) : ForkDatabase B :=
  match beginBlock rules block state with
  | .error _ => fork
  | .ok begun => fork.setMaxSize (forkMaxSize begun fork)

structure Applied (rules : Rules B X) (id : BlockId) (block : Block B)
    (before after : ChainDatabase B X) : Prop where
  applies : applyState rules block before.state = .ok after.state
  saved :
    after.objects.saved =
      before.state :: before.objects.saved.take before.objects.limit
  limit :
    after.objects.limit =
      block.num - before.state.lastIrreversibleBlockNum + 1
  forkDb :
    after.forkDb = sizedFork rules block before.state before.forkDb
  blockLog : after.blockLog = before.blockLog.store id block

/-- What a block that does not apply leaves. -/
structure Refused (rules : Rules B X) (block : Block B)
    (before after : ChainDatabase B X) : Prop where
  refused : ∀ state, applyState rules block before.state ≠ .ok state
  current : after.state = before.state
  saved :
    after.objects.saved = before.objects.saved.take before.objects.limit
  forkDb :
    after.forkDb = sizedFork rules block before.state before.forkDb
  blockLog : after.blockLog = before.blockLog

/-- The one lemma about a session around `apply_block` and `store`. -/
theorem applyAndStore_cases (rules : Rules B X) (id : BlockId)
    (block : Block B) (before : ChainDatabase B X) :
    (∃ after, applyAndStore rules id block before = .ok after ∧
      Applied rules id block before after) ∨
    (∃ fault after,
      applyAndStore rules id block before = .throw fault after ∧
      Refused rules block before after) := by
  have sameState : (startUndoSession before).state = before.state := rfl
  cases begins : beginBlock rules block before.state with
  | error fault =>
      refine Or.inr ⟨fault, undoSession (startUndoSession before), ?_, ?_⟩
      · simp only [applyAndStore, applyBlock, sameState, begins]
      · exact
          { refused := by simp [applyState, begins]
            current := rfl
            saved := rfl
            forkDb := by
              simp only [sizedFork, begins]
              rfl
            blockLog := rfl }
  | ok begun =>
      obtain ⟨_, rest, begunEq⟩ := beginBlock_eq_ok begins
      cases finishes : finishBlock rules block begun with
      | error fault =>
          refine Or.inr
            ⟨fault,
              undoSession (setSizes begun (startUndoSession before)),
              ?_, ?_⟩
          · simp only [applyAndStore, applyBlock, sameState, begins,
              finishes]
          · exact
              { refused := by simp [applyState, begins, finishes]
                current := rfl
                saved := rfl
                forkDb := by
                  simp only [sizedFork, begins]
                  rfl
                blockLog := rfl }
      | ok finished =>
          refine Or.inl
            ⟨{ setSizes begun (startUndoSession before) with
                objects :=
                  (setSizes begun
                    (startUndoSession before)).objects.write finished
                blockLog := before.blockLog.store id block }, ?_, ?_⟩
          · simp only [applyAndStore, applyBlock, sameState, begins,
              finishes]
            rfl
          · exact
              { applies := by
                  simp only [applyState, begins, finishes]
                  rfl
                saved := rfl
                limit := by
                  rw [begunEq]
                  rfl
                forkDb := by
                  simp only [sizedFork, begins]
                  rfl
                blockLog := rfl }

theorem Applied.objectsOk {id : BlockId}
    (applied : Applied rules id block before after) (isKnown : block ∈ known)
    (ok : ObjectsOk known rules before.objects) :
    ObjectsOk known rules after.objects :=
  { current :=
      ok.current.extend isKnown (applyState_extends applied.applies)
    saved := by
      rw [applied.saved]
      intro state member
      rcases List.mem_cons.mp member with same | older
      · exact same ▸ ok.current
      · exact ok.saved state (List.mem_of_mem_take older)
    undoable := by
      rw [applied.saved]
      exact ⟨⟨block, applied.applies⟩, ok.undoable.take _⟩ }

theorem Refused.objectsOk (refused : Refused rules block before after)
    (ok : ObjectsOk known rules before.objects) :
    ObjectsOk known rules after.objects := by
  have kept :=
    ok.take before.objects.limit after.objects.limit
  rw [← refused.saved] at kept
  have same : after.objects.current = before.objects.current :=
    refused.current
  rw [← same] at kept
  exact kept

end GxbCore.Chain
