import GxbCore.Lib.OrderStatistics
import GxbCore.Schedule.Shuffle

/-!
# Blocks that are confirmed

Every witness keeps the number of the last block it produced.  After each block
the last irreversible block is raised to the number that all but a given part of
the active witnesses have reached.  The maintenance may replace the active
witnesses afterwards.

What transactions and the maintenance do elsewhere is the parameter `Rules`:
they create witnesses and change signing keys, and they choose the active
witnesses and the parameters.
-/

namespace GxbCore.Schedule

def GRAPHENE_100_PERCENT : Nat :=
  10000

def GRAPHENE_IRREVERSIBLE_THRESHOLD : Nat :=
  70 * (GRAPHENE_100_PERCENT / 100)

def GRAPHENE_MAX_UNDO_HISTORY : UInt32 :=
  10000

/-- What a transaction can do to witnesses. -/
inductive WitnessEdit
  | create (signingKey : PublicKey)
  | setKey (id : WitnessId) (signingKey : PublicKey)
  deriving Repr, DecidableEq

/-- What the maintenance decides on. -/
structure Maintained (X : Type) where
  activeWitnesses : ActiveWitnesses
  blockInterval : UInt8
  maintenanceSkipSlots : UInt8
  nextMaintenanceTime : UInt32
  rest : X

/-- What a block does beside the schedule. -/
structure Rules (X : Type) where
  validateSignee : Block → PublicKey → Bool
  /-- the transactions of the block -/
  applyTransactions :
    Block → ChainState → X → Except ScheduleError (List WitnessEdit × X)
  /-- `perform_chain_maintenance` -/
  performChainMaintenance :
    Block → ChainState → X → Except ScheduleError (Maintained X)

namespace ChainState

/-- `modify` on a witness. -/
def modifyWitness (id : WitnessId) (change : Witness → Witness)
    (state : ChainState) : ChainState :=
  { state with
    witnesses :=
      state.witnesses.map fun witness =>
        if witness.id = id then change witness else witness }

/-- One change of a witness by a transaction. -/
def edit (state : ChainState) : WitnessEdit → ChainState
  | .create signingKey =>
      { state with
        witnesses :=
          state.witnesses ++ [⟨state.nextWitnessId, signingKey, 0, 0, 0⟩]
        nextWitnessId := state.nextWitnessId + 1 }
  | .setKey id signingKey =>
      state.modifyWitness id fun witness =>
        { witness with signingKey := signingKey }

end ChainState

/-- One missed slot in `update_global_dynamic_data`. -/
def countMissed (producer : WitnessId) (state : ChainState) (i : Nat) :
    Except ScheduleError ChainState := do
  let id ←
    orThrow (state.getScheduledWitness (UInt32.ofNat i + 1))
      ScheduleError.emptySchedule
  let witnessMissed ←
    orThrow (state.findWitness id) ScheduleError.unknownWitness
  if witnessMissed.id = producer then
    return state
  else
    return state.modifyWitness id fun witness =>
      { witness with totalMissed := witness.totalMissed + 1 }

/-- `database::update_global_dynamic_data` without the measures of
participation; `skipHistory` is `skip_undo_history_check`. -/
def updateGlobalDynamicData (skipHistory : Bool) (block : Block)
    (state : ChainState) : Except ScheduleError ChainState := do
  let missedBlocks := state.getSlotAtTime block.timestamp - 1
  let state ←
    (List.range missedBlocks.toNat).foldlM (countMissed block.witness) state
  let state := { state with
    headBlockNumber := block.blockNum
    headBlockId := block.id
    time := block.timestamp
    currentAslot := state.currentAslot + (missedBlocks + 1).toUInt64 }
  require
    (skipHistory = true ∨
      state.headBlockNumber - state.lastIrreversibleBlockNum <
        GRAPHENE_MAX_UNDO_HISTORY)
    ScheduleError.noUndoHistory
  return state

/-- `database::update_signing_witness` without the pay. -/
def updateSigningWitness (block : Block) (state : ChainState) :
    ChainState :=
  let newBlockAslot :=
    state.currentAslot + (state.getSlotAtTime block.timestamp).toUInt64
  state.modifyWitness block.witness fun witness =>
    { witness with
      lastAslot := newBlockAslot
      lastConfirmedBlockNum := block.blockNum }

/-- How many of the active witnesses may be behind. -/
def irreversibleOffset (size : Nat) : Nat :=
  (GRAPHENE_100_PERCENT - GRAPHENE_IRREVERSIBLE_THRESHOLD) * size /
    GRAPHENE_100_PERCENT

/-- `database::update_last_irreversible_block` -/
def updateLastIrreversibleBlock (state : ChainState) :
    Except ScheduleError ChainState := do
  let witObjs ←
    state.activeWitnesses.ids.mapM fun id =>
      orThrow (state.findWitness id) ScheduleError.unknownWitness
  let offset := irreversibleOffset witObjs.length
  let atOffset ←
    orThrow (nthElement (·.lastConfirmedBlockNum.toNat) witObjs offset)
      ScheduleError.noActiveWitness
  let newLastIrreversibleBlockNum := atOffset.lastConfirmedBlockNum
  if state.lastIrreversibleBlockNum < newLastIrreversibleBlockNum then
    return { state with
      lastIrreversibleBlockNum := newLastIrreversibleBlockNum }
  else
    return state

structure BlockSkip where
  header : SkipFlags
  undoHistory : Bool
  deriving Repr, DecidableEq

section Blocks

variable {X : Type} (rules : Rules X)

/-- The state once the maintenance is done. -/
def ChainState.maintain (state : ChainState) (maintained : Maintained X) :
    ChainState :=
  { state with
    activeWitnesses := maintained.activeWitnesses
    blockInterval := maintained.blockInterval
    maintenanceSkipSlots := maintained.maintenanceSkipSlots
    nextMaintenanceTime := maintained.nextMaintenanceTime }

/-- `_apply_block` up to the update of the last irreversible block. -/
def confirmBlock (skip : BlockSkip) (block : Block)
    (state : ChainState) (rest : X) :
    Except ScheduleError (ChainState × X) := do
  let _ ← validateBlockHeader rules.validateSignee skip.header state block
  let (edits, rest) ← rules.applyTransactions block state rest
  let state := edits.foldl ChainState.edit state
  let state ← updateGlobalDynamicData skip.undoHistory block state
  let state ← updateLastIrreversibleBlock (updateSigningWitness block state)
  return (state, rest)

def maintainIf (block : Block) (maintNeeded : Bool)
    (state : ChainState) (rest : X) :
    Except ScheduleError (ChainState × X) :=
  if maintNeeded then do
    let maintained ← rules.performChainMaintenance block state rest
    return (state.maintain maintained, maintained.rest)
  else
    .ok (state, rest)

/-- `_apply_block` from the maintenance on. -/
def concludeBlock (block : Block) (maintNeeded : Bool)
    (state : ChainState) (rest : X) :
    Except ScheduleError (ChainState × X) := do
  let (state, rest) ← maintainIf rules block maintNeeded state rest
  let state ←
    updateWitnessSchedule { state with maintenanceFlag := maintNeeded }
  return (state, rest)

/-- `database::_apply_block` -/
def applyBlock (skip : BlockSkip) (block : Block)
    (state : ChainState) (rest : X) :
    Except ScheduleError (ChainState × X) := do
  let maintNeeded := decide (state.nextMaintenanceTime ≤ block.timestamp)
  let (state, rest) ← confirmBlock rules skip block state rest
  concludeBlock rules block maintNeeded state rest

end Blocks

/-- The number of the last block that the witness produced, on a chain with its
newest block first. -/
def lastProduced (chain : List Block) (id : WitnessId) : UInt32 :=
  match chain.find? (·.witness = id) with
  | some block => block.blockNum
  | none => 0

/-- The head is the newest block of the chain.  Every block is later than the
one before it, so its number does not exceed its time and cannot wrap. -/
structure Heads (chain : List Block) (state : ChainState) : Prop where
  numbered : state.headBlockNumber.toNat = chain.length
  linked : state.headBlockId.num = state.headBlockNumber
  early : state.headBlockNumber.toNat ≤ state.time.toNat
  reached : ∀ block ∈ chain, block.blockNum ≤ state.headBlockNumber
  irreversible : state.lastIrreversibleBlockNum ≤ state.headBlockNumber

/-- Every witness keeps the number of the last block it produced. -/
structure Credits (chain : List Block) (state : ChainState) : Prop where
  confirmed :
    ∀ witness ∈ state.witnesses,
      witness.lastConfirmedBlockNum = lastProduced chain witness.id
  produced : ∀ block ∈ chain, block.witness < state.nextWitnessId
  numbered : ∀ witness ∈ state.witnesses, witness.id < state.nextWitnessId

/-- Head, time, irreversible block and active witnesses are the same, and no
witness is gone. -/
structure SameHead (before after : ChainState) : Prop where
  number : after.headBlockNumber = before.headBlockNumber
  id : after.headBlockId = before.headBlockId
  time : after.time = before.time
  irreversible :
    after.lastIrreversibleBlockNum = before.lastIrreversibleBlockNum
  active : after.activeWitnesses = before.activeWitnesses
  nextId : before.nextWitnessId ≤ after.nextWitnessId

theorem SameHead.refl (state : ChainState) : SameHead state state :=
  ⟨rfl, rfl, rfl, rfl, rfl, Nat.le_refl _⟩

theorem SameHead.trans {before middle after : ChainState}
    (first : SameHead before middle) (second : SameHead middle after) :
    SameHead before after where
  number := second.number.trans first.number
  id := second.id.trans first.id
  time := second.time.trans first.time
  irreversible := second.irreversible.trans first.irreversible
  active := second.active.trans first.active
  nextId := Nat.le_trans first.nextId second.nextId

section Heads

variable {chain : List Block} {state after : ChainState} {block : Block}

theorem Heads.toNat_blockNum (heads : Heads chain state)
    (linked : state.headBlockId = block.previous)
    (later : state.time < block.timestamp) :
    block.blockNum.toNat = state.headBlockNumber.toNat + 1 := by
  have early := heads.early
  have after := UInt32.lt_iff_toNat_lt.mp later
  have bounded := block.timestamp.toNat_lt
  rw [Block.blockNum, ← linked, heads.linked, UInt32.toNat_add]
  apply Nat.mod_eq_of_lt
  show state.headBlockNumber.toNat + 1 < 2 ^ 32
  omega

theorem Heads.push (heads : Heads chain state)
    (linked : state.headBlockId = block.previous)
    (later : state.time < block.timestamp)
    (number : after.headBlockNumber = block.blockNum)
    (id : after.headBlockId = block.id) (time : after.time = block.timestamp)
    (irreversible :
      after.lastIrreversibleBlockNum = state.lastIrreversibleBlockNum) :
    Heads (block :: chain) after := by
  have succ := heads.toNat_blockNum linked later
  have grows : state.headBlockNumber ≤ block.blockNum := by
    rw [UInt32.le_iff_toNat_le, succ]
    exact Nat.le_succ _
  refine ⟨?_, ?_, ?_, ?_, ?_⟩
  · rw [number, succ, heads.numbered, List.length_cons]
  · rw [number, id]
    rfl
  · have early := heads.early
    have afterHead := UInt32.lt_iff_toNat_lt.mp later
    rw [number, time, succ]
    omega
  · intro other member
    rw [number]
    rcases List.mem_cons.mp member with rfl | older
    · exact UInt32.le_refl _
    · exact UInt32.le_trans (heads.reached other older) grows
  · rw [irreversible, number]
    exact UInt32.le_trans heads.irreversible grows

end Heads

section Credits

variable {chain : List Block} {state after : ChainState} {block : Block}

theorem lastProduced_cons (block : Block) (chain : List Block)
    (id : WitnessId) :
    lastProduced (block :: chain) id =
      if block.witness = id then block.blockNum else lastProduced chain id := by
  by_cases same : block.witness = id
  · simp [lastProduced, same]
  · simp [lastProduced, same]

variable {id : WitnessId}

theorem lastProduced_eq_zero (none : ∀ block ∈ chain, block.witness ≠ id) :
    lastProduced chain id = 0 := by
  induction chain with
  | nil => rfl
  | cons block chain ih =>
      rw [lastProduced_cons, if_neg (none block List.mem_cons_self)]
      apply ih
      intro older member
      exact none older (List.mem_cons_of_mem block member)

theorem lastProduced_le {bound : UInt32}
    (reached : ∀ block ∈ chain, block.blockNum ≤ bound) (id : WitnessId) :
    lastProduced chain id ≤ bound := by
  cases found : chain.find? (·.witness = id) with
  | none =>
      rw [lastProduced, found]
      exact UInt32.zero_le
  | some block =>
      rw [lastProduced, found]
      exact reached block (List.mem_of_find?_eq_some found)

/-- A number above zero that was reached is the number of a block. -/
theorem any_of_le_lastProduced {num : UInt32} (positive : 0 < num)
    (reached : num ≤ lastProduced chain id) :
    chain.any fun block => block.witness = id ∧ num ≤ block.blockNum := by
  cases found : chain.find? (·.witness = id) with
  | none =>
      rw [lastProduced, found] at reached
      exact absurd (UInt32.lt_of_lt_of_le positive reached) (by decide)
  | some block =>
      rw [lastProduced, found] at reached
      have member := List.mem_of_find?_eq_some found
      have same := List.find?_some found
      rw [List.any_eq_true]
      refine ⟨block, member, ?_⟩
      exact decide_eq_true ⟨of_decide_eq_true same, reached⟩

theorem mem_modifyWitness {change : Witness → Witness} {witness : Witness} :
    witness ∈ (state.modifyWitness id change).witnesses ↔
      ∃ old ∈ state.witnesses,
        (if old.id = id then change old else old) = witness := by
  rw [ChainState.modifyWitness, List.mem_map]

theorem Credits.modifyWitness (credits : Credits chain state) (id : WitnessId)
    {change : Witness → Witness}
    (sameId : ∀ witness, (change witness).id = witness.id)
    (sameNum :
      ∀ witness, (change witness).lastConfirmedBlockNum =
        witness.lastConfirmedBlockNum) :
    Credits chain (state.modifyWitness id change) := by
  have kept :
      ∀ old : Witness,
        (if old.id = id then change old else old).id = old.id ∧
          (if old.id = id then change old else old).lastConfirmedBlockNum =
            old.lastConfirmedBlockNum := by
    intro old
    by_cases isIt : old.id = id
    · rw [if_pos isIt]
      exact ⟨sameId old, sameNum old⟩
    · rw [if_neg isIt]
      exact ⟨rfl, rfl⟩
  refine ⟨?_, credits.produced, ?_⟩
  · intro witness member
    obtain ⟨old, oldMember, rfl⟩ := mem_modifyWitness.mp member
    rw [(kept old).1, (kept old).2]
    exact credits.confirmed old oldMember
  · intro witness member
    obtain ⟨old, oldMember, rfl⟩ := mem_modifyWitness.mp member
    rw [(kept old).1]
    exact credits.numbered old oldMember

theorem Credits.create
    (credits : Credits chain state) (signingKey : PublicKey) :
    Credits chain (state.edit (.create signingKey)) := by
  refine ⟨?_, ?_, ?_⟩
  · intro witness member
    rcases List.mem_append.mp member with old | new
    · exact credits.confirmed witness old
    · rw [List.mem_singleton.mp new]
      symm
      apply lastProduced_eq_zero
      intro block produced
      exact Nat.ne_of_lt (credits.produced block produced)
  · intro block produced
    exact Nat.lt_succ_of_lt (credits.produced block produced)
  · intro witness member
    rcases List.mem_append.mp member with old | new
    · exact Nat.lt_succ_of_lt (credits.numbered witness old)
    · rw [List.mem_singleton.mp new]
      exact Nat.lt_succ_self _

theorem Credits.edit (credits : Credits chain state) (edit : WitnessEdit) :
    Credits chain (state.edit edit) := by
  cases edit with
  | create signingKey => exact credits.create signingKey
  | setKey id signingKey =>
      exact credits.modifyWitness id (fun _ => rfl) (fun _ => rfl)

theorem sameHead_modifyWitness (state : ChainState) (id : WitnessId)
    (change : Witness → Witness) :
    SameHead state (state.modifyWitness id change) :=
  ⟨rfl, rfl, rfl, rfl, rfl, Nat.le_refl _⟩

theorem sameHead_edit (state : ChainState) (edit : WitnessEdit) :
    SameHead state (state.edit edit) := by
  cases edit with
  | create signingKey => exact ⟨rfl, rfl, rfl, rfl, rfl, Nat.le_succ _⟩
  | setKey id signingKey => exact sameHead_modifyWitness state id _

theorem Credits.edits
    (credits : Credits chain state) (edits : List WitnessEdit) :
    Credits chain (edits.foldl ChainState.edit state) ∧
      SameHead state (edits.foldl ChainState.edit state) := by
  induction edits generalizing state with
  | nil => exact ⟨credits, SameHead.refl state⟩
  | cons edit edits ih =>
      have rest := ih (credits.edit edit)
      exact ⟨rest.1, (sameHead_edit state edit).trans rest.2⟩

theorem Credits.countMissed {producer : WitnessId} {i : Nat}
    (credits : Credits chain state)
    (counted : countMissed producer state i = .ok after) :
    Credits chain after ∧ SameHead state after := by
  simp only [Schedule.countMissed, bind_eq_ok, orThrow_eq_ok] at counted
  obtain ⟨id, _, missed, _, counted⟩ := counted
  by_cases own : missed.id = producer
  · simp only [own, if_true] at counted
    cases counted
    exact ⟨credits, SameHead.refl state⟩
  · simp only [own, if_false] at counted
    cases counted
    exact ⟨credits.modifyWitness id (fun _ => rfl) (fun _ => rfl),
      sameHead_modifyWitness state id _⟩

theorem Credits.countAllMissed {producer : WitnessId} {slots : List Nat}
    (credits : Credits chain state)
    (counted : slots.foldlM (Schedule.countMissed producer) state = .ok after) :
    Credits chain after ∧ SameHead state after := by
  refine @foldlM_keeps _ _ _ _
    (fun current => Credits chain current ∧ SameHead state current) _ _ _ ?_
    ⟨credits, SameHead.refl state⟩ counted
  rintro i _ before next ⟨creditsBefore, same⟩ round
  have kept := creditsBefore.countMissed round
  exact ⟨kept.1, same.trans kept.2⟩

theorem updateGlobalDynamicData_spec {skipHistory : Bool}
    (credits : Credits chain state)
    (updated : updateGlobalDynamicData skipHistory block state = .ok after) :
    Credits chain after ∧
      after.headBlockNumber = block.blockNum ∧
      after.headBlockId = block.id ∧
      after.time = block.timestamp ∧
      after.lastIrreversibleBlockNum = state.lastIrreversibleBlockNum ∧
      after.activeWitnesses = state.activeWitnesses ∧
      state.nextWitnessId ≤ after.nextWitnessId := by
  simp only [updateGlobalDynamicData, bind_eq_ok, require_eq_ok] at updated
  obtain ⟨counted, counts, _, _, returned⟩ := updated
  cases returned
  have kept := credits.countAllMissed counts
  refine ⟨⟨kept.1.confirmed, kept.1.produced, kept.1.numbered⟩,
    rfl, rfl, rfl, ?_, ?_, ?_⟩
  · exact kept.2.irreversible
  · exact kept.2.active
  · exact kept.2.nextId

theorem Credits.push (credits : Credits chain state)
    (known : block.witness < state.nextWitnessId) :
    Credits (block :: chain) (updateSigningWitness block state) := by
  refine ⟨?_, ?_, ?_⟩
  · intro witness member
    obtain ⟨old, oldMember, rfl⟩ := mem_modifyWitness.mp member
    rw [lastProduced_cons]
    by_cases isIt : old.id = block.witness
    · simp [isIt]
    · have other : block.witness ≠ old.id := fun same => isIt same.symm
      simp only [isIt, other, if_false]
      exact credits.confirmed old oldMember
  · intro other member
    rcases List.mem_cons.mp member with rfl | older
    · exact known
    · exact credits.produced other older
  · intro witness member
    obtain ⟨old, oldMember, rfl⟩ := mem_modifyWitness.mp member
    have before := credits.numbered old oldMember
    by_cases isIt : old.id = block.witness
    · rw [if_pos isIt]
      exact before
    · rw [if_neg isIt]
      exact before

/-- The active witnesses that produced a block numbered `num` or higher. -/
def confirmers (chain : List Block) (num : UInt32)
    (active : ActiveWitnesses) : List WitnessId :=
  active.ids.filter fun id =>
    chain.any fun block => block.witness = id ∧ num ≤ block.blockNum

theorem findWitness_eq_some {witness : Witness}
    (found : state.findWitness id = some witness) :
    witness ∈ state.witnesses ∧ witness.id = id := by
  rw [ChainState.findWitness] at found
  have same := List.find?_some found
  exact ⟨List.mem_of_find?_eq_some found, of_decide_eq_true same⟩

theorem mapM_findWitness {ids : List WitnessId} {objects : List Witness}
    (found :
      (ids.mapM fun id =>
        orThrow (state.findWitness id) ScheduleError.unknownWitness) =
        .ok objects) :
    objects.map (·.id) = ids ∧ ∀ witness ∈ objects, witness ∈ state.witnesses := by
  induction ids generalizing objects with
  | nil =>
      cases found
      exact ⟨rfl, fun _ none => absurd none List.not_mem_nil⟩
  | cons id ids ih =>
      simp only [List.mapM_cons, bind_eq_ok, orThrow_eq_ok] at found
      obtain ⟨first, isFirst, rest, isRest, returned⟩ := found
      cases returned
      have here := findWitness_eq_some isFirst
      have there := ih isRest
      refine ⟨?_, ?_⟩
      · rw [List.map_cons, here.2, there.1]
      · intro witness member
        rcases List.mem_cons.mp member with rfl | later
        · exact here.1
        · exact there.2 witness later

/-- The irreversible block is raised only to a number that the quorum
reached. -/
theorem updateLastIrreversibleBlock_spec (credits : Credits chain state)
    (reached : ∀ block ∈ chain, block.blockNum ≤ state.headBlockNumber)
    (updated : updateLastIrreversibleBlock state = .ok after) :
    after = state ∨
      ∃ num : UInt32,
        after = { state with lastIrreversibleBlockNum := num } ∧
        state.lastIrreversibleBlockNum < num ∧
        num ≤ state.headBlockNumber ∧
        state.activeWitnesses.ids.length -
            irreversibleOffset state.activeWitnesses.ids.length ≤
          (confirmers chain num state.activeWitnesses).length := by
  simp only [updateLastIrreversibleBlock, bind_eq_ok, orThrow_eq_ok] at updated
  obtain ⟨objects, isObjects, atOffset, isAt, returned⟩ := updated
  obtain ⟨ids, known⟩ := mapM_findWitness isObjects
  by_cases raises :
      state.lastIrreversibleBlockNum < atOffset.lastConfirmedBlockNum
  · right
    simp only [raises, if_true] at returned
    cases returned
    refine ⟨atOffset.lastConfirmedBlockNum, rfl, raises, ?_, ?_⟩
    · rw [credits.confirmed atOffset (known atOffset (nthElement_mem isAt))]
      exact lastProduced_le reached atOffset.id
    · rw [← List.length_map (·.id), ids] at isAt
      have quorum := length_sub_le_countP_nthElement isAt
      rw [← List.length_map (·.id), ids] at quorum
      apply Nat.le_trans quorum
      rw [confirmers, ← List.countP_eq_length_filter, ← ids, List.countP_map]
      apply List.countP_mono_left
      intro witness member above
      have positive : 0 < atOffset.lastConfirmedBlockNum :=
        UInt32.lt_of_le_of_lt UInt32.zero_le raises
      apply any_of_le_lastProduced positive
      rw [← credits.confirmed witness (known witness member)]
      exact UInt32.le_iff_toNat_le.mpr (of_decide_eq_true above)
  · left
    simp only [raises, if_false] at returned
    cases returned
    rfl

end Credits

section Chains

variable {X : Type} {rules : Rules X} {chain : List Block}
  {state after : ChainState} {rest restAfter : X} {skip : BlockSkip}
  {block : Block}

theorem confirmBlock_spec
    (heads : Heads chain state) (credits : Credits chain state)
    (confirmed :
      confirmBlock rules skip block state rest = .ok (after, restAfter)) :
    Heads (block :: chain) after ∧ Credits (block :: chain) after ∧
      state.lastIrreversibleBlockNum ≤ after.lastIrreversibleBlockNum ∧
      (after.lastIrreversibleBlockNum ≠ state.lastIrreversibleBlockNum →
        state.activeWitnesses.ids.length -
            irreversibleOffset state.activeWitnesses.ids.length ≤
          (confirmers (block :: chain) after.lastIrreversibleBlockNum
            state.activeWitnesses).length) := by
  simp only [confirmBlock, bind_eq_ok] at confirmed
  obtain ⟨signing, valid, ⟨edits, _⟩, _, moved, updated, final, raised,
    returned⟩ := confirmed
  cases returned
  obtain ⟨linked, later, found⟩ := validateBlockHeader_linked valid
  obtain ⟨editedCredits, editedHead⟩ := credits.edits edits
  obtain ⟨movedCredits, number, id, time, irreversible, active, nextId⟩ :=
    updateGlobalDynamicData_spec editedCredits updated
  have known : block.witness < moved.nextWitnessId := by
    obtain ⟨member, same⟩ := findWitness_eq_some found
    rw [← same]
    exact Nat.lt_of_lt_of_le (credits.numbered signing member)
      (Nat.le_trans editedHead.nextId nextId)
  have movedHeads : Heads (block :: chain) (updateSigningWitness block moved) :=
    heads.push linked later number id time
      (irreversible.trans editedHead.irreversible)
  have signedCredits := movedCredits.push known
  have sameNum :
      (updateSigningWitness block moved).lastIrreversibleBlockNum =
        state.lastIrreversibleBlockNum :=
    irreversible.trans editedHead.irreversible
  have sameActive :
      (updateSigningWitness block moved).activeWitnesses =
        state.activeWitnesses :=
    active.trans editedHead.active
  rcases updateLastIrreversibleBlock_spec signedCredits movedHeads.reached
      raised with rfl | ⟨num, rfl, above, below, quorum⟩
  · refine ⟨movedHeads, signedCredits, ?_, ?_⟩
    · rw [sameNum]
      exact UInt32.le_refl _
    · intro differs
      exact absurd sameNum differs
  · refine ⟨⟨movedHeads.numbered, movedHeads.linked, movedHeads.early,
      movedHeads.reached, below⟩, ⟨signedCredits.confirmed,
      signedCredits.produced, signedCredits.numbered⟩, ?_, ?_⟩
    · rw [sameNum] at above
      exact UInt32.le_of_lt above
    · intro _
      rw [sameActive] at quorum
      exact quorum

theorem maintainIf_frame {maintNeeded : Bool}
    (maintained :
      maintainIf rules block maintNeeded state rest = .ok (after, restAfter)) :
    after.headBlockNumber = state.headBlockNumber ∧
      after.headBlockId = state.headBlockId ∧ after.time = state.time ∧
      after.lastIrreversibleBlockNum = state.lastIrreversibleBlockNum ∧
      after.witnesses = state.witnesses ∧
      after.nextWitnessId = state.nextWitnessId := by
  rw [maintainIf] at maintained
  by_cases needed : maintNeeded = true
  · simp only [needed, if_true, bind_eq_ok] at maintained
    obtain ⟨decided, _, returned⟩ := maintained
    cases returned
    exact ⟨rfl, rfl, rfl, rfl, rfl, rfl⟩
  · simp only [needed, Bool.false_eq_true, if_false] at maintained
    cases maintained
    exact ⟨rfl, rfl, rfl, rfl, rfl, rfl⟩

theorem updateWitnessSchedule_eq
    (updated : updateWitnessSchedule state = .ok after) :
    ∃ shuffled : ShuffledWitnesses,
      after = { state with currentShuffledWitnesses := shuffled } := by
  simp only [updateWitnessSchedule, bind_eq_ok, require_eq_ok] at updated
  obtain ⟨_, _, updated⟩ := updated
  by_cases reschedules : state.Reschedules
  · simp only [reschedules, if_true, bind_eq_ok] at updated
    obtain ⟨shuffled, _, returned⟩ := updated
    cases returned
    exact ⟨shuffled, rfl⟩
  · simp only [reschedules, if_false] at updated
    cases updated
    exact ⟨_, rfl⟩

theorem concludeBlock_spec {maintNeeded : Bool} (heads : Heads chain state)
    (credits : Credits chain state)
    (concluded :
      concludeBlock rules block maintNeeded state rest =
        .ok (after, restAfter)) :
    Heads chain after ∧ Credits chain after ∧
      after.lastIrreversibleBlockNum = state.lastIrreversibleBlockNum := by
  simp only [concludeBlock, bind_eq_ok] at concluded
  obtain ⟨⟨kept, restKept⟩, maintained, scheduled, updated, returned⟩ :=
    concluded
  cases returned
  obtain ⟨number, id, time, irreversible, witnesses, nextId⟩ :=
    maintainIf_frame maintained
  obtain ⟨shuffled, rfl⟩ := updateWitnessSchedule_eq updated
  refine ⟨⟨?_, ?_, ?_, ?_, ?_⟩, ⟨?_, ?_, ?_⟩, irreversible⟩
  · exact number ▸ heads.numbered
  · show kept.headBlockId.num = kept.headBlockNumber
    rw [id, number, heads.linked]
  · show kept.headBlockNumber.toNat ≤ kept.time.toNat
    rw [number, time]
    exact heads.early
  · show ∀ block ∈ chain, block.blockNum ≤ kept.headBlockNumber
    rw [number]
    exact heads.reached
  · show kept.lastIrreversibleBlockNum ≤ kept.headBlockNumber
    rw [irreversible, number]
    exact heads.irreversible
  · exact witnesses ▸ credits.confirmed
  · show ∀ block ∈ chain, block.witness < kept.nextWitnessId
    rw [nextId]
    exact credits.produced
  · show ∀ witness ∈ kept.witnesses, witness.id < kept.nextWitnessId
    rw [nextId, witnesses]
    exact credits.numbered

inductive Extends (rules : Rules X) (chain : List Block)
    (state : ChainState) (rest : X) :
    List Block → ChainState → X → Prop
  | none : Extends rules chain state rest chain state rest
  | block
      {longer : List Block} {middle after : ChainState} {restMiddle restAfter : X}
      {skip : BlockSkip} {block : Block}
      (earlier : Extends rules chain state rest longer middle restMiddle)
      (applied :
        applyBlock rules skip block middle restMiddle = .ok (after, restAfter)) :
      Extends rules chain state rest (block :: longer) after restAfter

structure Genesis (state : ChainState) : Prop where
  head : state.headBlockNumber = 0
  id : state.headBlockId.num = 0
  irreversible : state.lastIrreversibleBlockNum = 0
  unconfirmed : ∀ witness ∈ state.witnesses, witness.lastConfirmedBlockNum = 0
  numbered : ∀ witness ∈ state.witnesses, witness.id < state.nextWitnessId

theorem Genesis.heads (genesis : Genesis state) : Heads [] state where
  numbered := by rw [genesis.head]; rfl
  linked := by rw [genesis.head, genesis.id]
  early := by rw [genesis.head]; exact Nat.zero_le _
  reached := fun _ none => absurd none List.not_mem_nil
  irreversible := by rw [genesis.head, genesis.irreversible]; exact UInt32.le_refl _

theorem Genesis.credits (genesis : Genesis state) : Credits [] state where
  confirmed := genesis.unconfirmed
  produced := fun _ none => absurd none List.not_mem_nil
  numbered := genesis.numbered

theorem applyBlock_spec
    (heads : Heads chain state) (credits : Credits chain state)
    (applied :
      applyBlock rules skip block state rest = .ok (after, restAfter)) :
    Heads (block :: chain) after ∧ Credits (block :: chain) after ∧
      state.lastIrreversibleBlockNum ≤ after.lastIrreversibleBlockNum := by
  simp only [applyBlock, bind_eq_ok] at applied
  obtain ⟨⟨middle, restMiddle⟩, confirmed, concluded⟩ := applied
  obtain ⟨middleHeads, middleCredits, raised, _⟩ :=
    confirmBlock_spec heads credits confirmed
  obtain ⟨finalHeads, finalCredits, same⟩ :=
    concludeBlock_spec middleHeads middleCredits concluded
  exact ⟨finalHeads, finalCredits, same ▸ raised⟩

/-- What holds of a chain holds of every longer one, and the irreversible block
is not lowered. -/
theorem Extends.keeps {longer : List Block} (heads : Heads chain state)
    (credits : Credits chain state)
    (extended : Extends rules chain state rest longer after restAfter) :
    Heads longer after ∧ Credits longer after ∧
      state.lastIrreversibleBlockNum ≤ after.lastIrreversibleBlockNum := by
  induction extended with
  | none => exact ⟨heads, credits, UInt32.le_refl _⟩
  | block _ applied ih =>
      obtain ⟨middleHeads, middleCredits, raised⟩ := ih
      obtain ⟨finalHeads, finalCredits, last⟩ :=
        applyBlock_spec middleHeads middleCredits applied
      exact ⟨finalHeads, finalCredits, UInt32.le_trans raised last⟩

/-- Along every chain the last irreversible block is never lowered and never
above the head.  When a block raises it, the quorum of the active witnesses has
produced a block with that number or a higher one on this chain. -/
theorem irreversible_by_quorum
    {start : ChainState} {startRest : X}
    (genesis : Genesis start)
    (built : Extends rules [] start startRest chain state rest) :
    state.lastIrreversibleBlockNum ≤ state.headBlockNumber ∧
    (∀ (longer : List Block) (later : ChainState) (restLater : X),
      Extends rules chain state rest longer later restLater →
      state.lastIrreversibleBlockNum ≤ later.lastIrreversibleBlockNum) ∧
    (∀ witness ∈ state.witnesses,
      witness.lastConfirmedBlockNum = lastProduced chain witness.id) ∧
    (∀ (skip : BlockSkip) (block : Block) (after : ChainState)
      (restAfter : X),
      confirmBlock rules skip block state rest = .ok (after, restAfter) →
      state.lastIrreversibleBlockNum ≤ after.lastIrreversibleBlockNum ∧
      after.lastIrreversibleBlockNum ≤ after.headBlockNumber ∧
      (after.lastIrreversibleBlockNum ≠ state.lastIrreversibleBlockNum →
        state.activeWitnesses.ids.length -
            state.activeWitnesses.ids.length *
                (GRAPHENE_100_PERCENT - GRAPHENE_IRREVERSIBLE_THRESHOLD) /
              GRAPHENE_100_PERCENT ≤
          (confirmers (block :: chain) after.lastIrreversibleBlockNum
            state.activeWitnesses).length)) := by
  obtain ⟨heads, credits, _⟩ := built.keeps genesis.heads genesis.credits
  refine ⟨heads.irreversible, ?_, credits.confirmed, ?_⟩
  · intro longer later restLater extended
    exact (extended.keeps heads credits).2.2
  · intro skip block after restAfter confirmed
    obtain ⟨finalHeads, _, raised, quorum⟩ :=
      confirmBlock_spec heads credits confirmed
    refine ⟨raised, finalHeads.irreversible, ?_⟩
    intro differs
    have enough := quorum differs
    rw [irreversibleOffset, Nat.mul_comm] at enough
    exact enough

end Chains

/-- Nothing happens beside the blocks. -/
def idleRules : Rules Unit where
  validateSignee := fun block key => block.signature = key
  applyTransactions := fun _ _ _ => .ok ([], ())
  performChainMaintenance := fun _ state _ =>
    .ok ⟨state.activeWitnesses, state.blockInterval,
      state.maintenanceSkipSlots, state.nextMaintenanceTime, ()⟩

/-- Two witnesses that take turns every five seconds. -/
def twoWitnesses : ChainState where
  headBlockNumber := 0
  headBlockId := ⟨0, 0⟩
  time := 100
  maintenanceFlag := false
  currentAslot := 0
  lastIrreversibleBlockNum := 0
  blockInterval := 5
  maintenanceSkipSlots := 3
  activeWitnesses := ⟨[1, 2], by decide⟩
  currentShuffledWitnesses := ⟨[1, 2], by decide⟩
  witnesses := [⟨1, 11, 0, 0, 0⟩, ⟨2, 12, 0, 0, 0⟩]
  nextWitnessId := 3
  nextMaintenanceTime := 3600

/-- The first block, by the second witness. -/
def blockOne : Block where
  previous := ⟨0, 0⟩
  timestamp := 105
  witness := 2
  digest := 51
  signature := 12

/-- The second block, by the first one. -/
def blockTwo : Block where
  previous := ⟨1, 51⟩
  timestamp := 110
  witness := 1
  digest := 52
  signature := 11

def afterBlockOne : ChainState :=
  { twoWitnesses with
    headBlockNumber := 1
    headBlockId := ⟨1, 51⟩
    time := 105
    currentAslot := 1
    witnesses := [⟨1, 11, 0, 0, 0⟩, ⟨2, 12, 1, 0, 1⟩] }

/-- The first block is irreversible once both have produced. -/
theorem irreversible_by_quorum_blockTwo :
    (confirmers [blockTwo, blockOne] 1 twoWitnesses.activeWitnesses).length =
        2 ∧
      2 - 2 * (GRAPHENE_100_PERCENT - GRAPHENE_IRREVERSIBLE_THRESHOLD) /
          GRAPHENE_100_PERCENT ≤
        (confirmers [blockTwo, blockOne] 1
          twoWitnesses.activeWitnesses).length := by
  have genesis : Genesis twoWitnesses :=
    ⟨rfl, rfl, rfl, by decide, by decide⟩
  have applied :
      applyBlock idleRules ⟨⟨false, false⟩, false⟩ blockOne twoWitnesses () =
        .ok (afterBlockOne, ()) := rfl
  have built :
      Extends idleRules [] twoWitnesses () [blockOne] afterBlockOne () :=
    Extends.block Extends.none applied
  refine ⟨by decide, ?_⟩
  have quorum :=
    (irreversible_by_quorum genesis built).2.2.2 ⟨⟨false, false⟩, false⟩
      blockTwo _ () rfl
  exact quorum.2.2 (by decide)

end GxbCore.Schedule
