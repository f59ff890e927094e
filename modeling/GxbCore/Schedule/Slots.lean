import Mathlib.Algebra.Group.Nat.Defs
import Mathlib.Order.Lattice
import GxbCore.Lib.Fallible

/-!
# Slots and their times

A block belongs to a slot: the time after the head block is cut into pieces of
`block_interval` seconds, numbered from one, and `get_slot_time` and
`get_slot_at_time` go from the number to the time and back.  After a
maintenance block some slots are skipped, and the head block need not lie on a
multiple of the interval.

Times are seconds in 32 bits, slot numbers are 32 bits wide and absolute slots
64, all of them wrapping.
-/

namespace GxbCore.Schedule

/-- `witness_id_type`, by instance. -/
abbrev WitnessId := Nat

abbrev PublicKey := Nat

/-- `block_id_type`: the first word of the digest is replaced by the number of
the block. -/
structure BlockId where
  num : UInt32
  digest : Nat
  deriving Repr, DecidableEq

/-- `signed_block`: its header and what its signature is. -/
structure Block where
  previous : BlockId
  timestamp : UInt32
  witness : WitnessId
  digest : Nat
  signature : Nat
  deriving Repr, DecidableEq

/-- `block_header::block_num` -/
def Block.blockNum (block : Block) : UInt32 :=
  block.previous.num + 1

/-- `signed_block_header::id` -/
def Block.id (block : Block) : BlockId where
  num := block.blockNum
  digest := block.digest

/-- `witness_object`, as far as block production reads and writes it. -/
structure Witness where
  id : WitnessId
  signingKey : PublicKey
  lastAslot : UInt64
  totalMissed : Int
  lastConfirmedBlockNum : UInt32
  deriving Repr, DecidableEq

/-- `flat_set<witness_id_type>`: the ids in ascending order, each of them
once. -/
structure ActiveWitnesses where
  ids : List WitnessId
  ascending : ids.Pairwise (· < ·)
  deriving Repr, DecidableEq

/-- `witness_schedule_object`: the order in which the witnesses take their
turns, none of them twice. -/
structure ShuffledWitnesses where
  ids : List WitnessId
  distinct : ids.Nodup
  deriving Repr, DecidableEq

/-- What the schedule and the slots depend on: of the dynamic global
properties, of the chain parameters, the active witnesses, the current
schedule and the witnesses. -/
structure ChainState where
  headBlockNumber : UInt32
  headBlockId : BlockId
  time : UInt32
  maintenanceFlag : Bool
  currentAslot : UInt64
  lastIrreversibleBlockNum : UInt32
  blockInterval : UInt8
  maintenanceSkipSlots : UInt8
  activeWitnesses : ActiveWitnesses
  currentShuffledWitnesses : ShuffledWitnesses
  witnesses : List Witness
  nextWitnessId : WitnessId
  nextMaintenanceTime : UInt32
  deriving Repr, DecidableEq

namespace ChainState

variable (state : ChainState)

/-- `database::get_slot_time`.  The start of the head block's slot is computed
in 64 bits and the rest in 32. -/
def getSlotTime (slotNum : UInt32) : UInt32 :=
  if slotNum = 0 then 0
  else
    let interval := state.blockInterval.toUInt32
    if state.headBlockNumber = 0 then
      -- the first block is at genesis time plus one block interval
      state.time + slotNum * interval
    else
      let headBlockAbsSlot := state.time.toNat / state.blockInterval.toNat
      let headSlotTime :=
        UInt32.ofNat (headBlockAbsSlot * state.blockInterval.toNat)
      let slotNum :=
        if state.maintenanceFlag then
          slotNum + state.maintenanceSkipSlots.toUInt32
        else slotNum
      headSlotTime + slotNum * interval

/-- `database::get_slot_at_time`; zero for a time before the first slot. -/
def getSlotAtTime (when : UInt32) : UInt32 :=
  let firstSlotTime := state.getSlotTime 1
  if when < firstSlotTime then 0
  else
    UInt32.ofNat
      ((when.toNat - firstSlotTime.toNat) / state.blockInterval.toNat + 1)

/-- `database::get_scheduled_witness`; nothing when the schedule is empty,
where the source divides by zero. -/
def getScheduledWitness (slotNum : UInt32) : Option WitnessId :=
  let currentAslot := state.currentAslot + slotNum.toUInt64
  let ids := state.currentShuffledWitnesses.ids
  ids[currentAslot.toNat % ids.length]?

def findWitness (id : WitnessId) : Option Witness :=
  state.witnesses.find? (·.id = id)

end ChainState

/-- What is left out of the checks of a header. -/
structure SkipFlags where
  witnessSignature : Bool
  witnessScheduleCheck : Bool
  deriving Repr, DecidableEq

/-- The exceptions of the functions here. -/
inductive ScheduleError
  | unlinkedBlock
  | timeNotAfterHead
  | unknownWitness
  | wrongSignee
  | beforeFirstSlot
  | wrongTime
  | emptySchedule
  | noUndoHistory
  | noActiveWitness
  | badIndex
  | failedElsewhere
  deriving Repr, DecidableEq

/-- `database::validate_block_header`; `validateSignee` is the check of the
signature against a key. -/
def validateBlockHeader
    (validateSignee : Block → PublicKey → Bool)
    (skip : SkipFlags) (state : ChainState) (nextBlock : Block) :
    Except ScheduleError Witness := do
  require (state.headBlockId = nextBlock.previous)
    ScheduleError.unlinkedBlock
  require (state.time < nextBlock.timestamp) ScheduleError.timeNotAfterHead
  let witness ←
    orThrow (state.findWitness nextBlock.witness) ScheduleError.unknownWitness
  require
    (skip.witnessSignature = true ∨
      validateSignee nextBlock witness.signingKey = true)
    ScheduleError.wrongSignee
  if skip.witnessScheduleCheck then
    return witness
  else
    let slotNum := state.getSlotAtTime nextBlock.timestamp
    require (0 < slotNum) ScheduleError.beforeFirstSlot
    let scheduledWitness ←
      orThrow (state.getScheduledWitness slotNum) ScheduleError.emptySchedule
    require (nextBlock.witness = scheduledWitness) ScheduleError.wrongTime
    return witness

namespace ChainState

variable (state : ChainState)

def skippedSlots : Nat :=
  if state.headBlockNumber = 0 then 0
  else if state.maintenanceFlag then state.maintenanceSkipSlots.toNat
  else 0

/-- Where the slots are counted from: genesis itself, or the slot boundary at
or before the head block. -/
def slotOrigin : Nat :=
  if state.headBlockNumber = 0 then state.time.toNat
  else
    state.time.toNat / state.blockInterval.toNat * state.blockInterval.toNat

/-- The time of a slot in unbounded seconds. -/
def slotInstant (slot : Nat) : Nat :=
  state.slotOrigin + (slot + state.skippedSlots) * state.blockInterval.toNat

variable {state}

theorem slotInstant_succ (slot : Nat) :
    state.slotInstant (slot + 1) =
      state.slotInstant slot + state.blockInterval.toNat := by
  simp only [slotInstant, Nat.add_right_comm slot 1, Nat.add_mul, Nat.one_mul,
    Nat.add_assoc]

theorem slotInstant_one_add (slot : Nat) :
    state.slotInstant (slot + 1) =
      state.slotInstant 1 + slot * state.blockInterval.toNat := by
  induction slot with
  | zero => simp
  | succ slot ih =>
      rw [slotInstant_succ, ih, Nat.add_mul, Nat.one_mul,
        Nat.add_assoc]

theorem slotInstant_mono {first second : Nat} (le : first ≤ second) :
    state.slotInstant first ≤ state.slotInstant second := by
  apply Nat.add_le_add_left
  apply Nat.mul_le_mul_right
  exact Nat.add_le_add_right le _

/-- A slot is not before the seconds it counts, since each lasts at least
one. -/
theorem slot_le_slotInstant
    (positive : 0 < state.blockInterval.toNat) (slot : Nat) :
    slot + state.skippedSlots ≤ state.slotInstant slot := by
  have atLeast :
      slot + state.skippedSlots ≤
        (slot + state.skippedSlots) * state.blockInterval.toNat :=
    Nat.le_mul_of_pos_right _ positive
  apply Nat.le_trans atLeast
  exact Nat.le_add_left _ _

/-- While the time fits 32 bits, no step of its computation wraps. -/
theorem toNat_getSlotTime (positive : 0 < state.blockInterval.toNat)
    {slotNum : UInt32} (numbered : slotNum ≠ 0)
    (fits : state.slotInstant slotNum.toNat < 2 ^ 32) :
    (state.getSlotTime slotNum).toNat = state.slotInstant slotNum.toNat := by
  have counted := slot_le_slotInstant positive slotNum.toNat
  by_cases genesis : state.headBlockNumber = 0
  · simp only [slotInstant, slotOrigin, skippedSlots, genesis, if_true,
      Nat.add_zero] at fits ⊢
    simp only [getSlotTime, numbered, genesis, if_false, if_true,
      UInt32.toNat_add, UInt32.toNat_mul, UInt8.toNat_toUInt32]
    rw [Nat.mod_eq_of_lt (by omega : slotNum.toNat * _ < 2 ^ 32),
      Nat.mod_eq_of_lt fits]
  · -- the boundary before the head block is not after it
    have boundary :
        state.time.toNat / state.blockInterval.toNat *
          state.blockInterval.toNat < 2 ^ 32 :=
      Nat.lt_of_le_of_lt (Nat.div_mul_le_self _ _) state.time.toNat_lt
    have number :
        (if state.maintenanceFlag = true then
          slotNum + state.maintenanceSkipSlots.toUInt32
          else slotNum).toNat = slotNum.toNat + state.skippedSlots := by
      by_cases flag : state.maintenanceFlag = true
      · simp only [skippedSlots, genesis, flag, if_false, if_true] at counted ⊢
        rw [UInt32.toNat_add, UInt8.toNat_toUInt32,
          Nat.mod_eq_of_lt (by omega)]
      · simp [skippedSlots, genesis, flag]
    have product :
        (slotNum.toNat + state.skippedSlots) * state.blockInterval.toNat <
          2 ^ 32 :=
      Nat.lt_of_le_of_lt (Nat.le_add_left _ _) fits
    have whole := fits
    simp only [slotInstant, slotOrigin, genesis, if_false] at whole ⊢
    simp only [getSlotTime, numbered, genesis, if_false, UInt32.toNat_add,
      UInt32.toNat_mul, UInt8.toNat_toUInt32, number]
    rw [Nat.mod_eq_of_lt product, UInt32.toNat_ofNat_of_lt' boundary,
      Nat.mod_eq_of_lt whole]

theorem toNat_getSlotAtTime (positive : 0 < state.blockInterval.toNat)
    (fits : state.slotInstant 1 < 2 ^ 32) (when : UInt32) :
    (state.getSlotAtTime when).toNat =
      if when.toNat < state.slotInstant 1 then 0
      else
        (when.toNat - state.slotInstant 1) / state.blockInterval.toNat + 1 := by
  have first : (state.getSlotTime 1).toNat = state.slotInstant 1 :=
    toNat_getSlotTime positive (by decide) fits
  simp only [getSlotAtTime, UInt32.lt_iff_toNat_lt, first]
  by_cases early : when.toNat < state.slotInstant 1
  · simp only [early, if_true]
    rfl
  · simp only [early, if_false]
    have atLeast := slot_le_slotInstant positive 1
    have quotient :=
      Nat.div_le_self (when.toNat - state.slotInstant 1)
        state.blockInterval.toNat
    have bounded := when.toNat_lt
    apply UInt32.toNat_ofNat_of_lt'
    show _ < 2 ^ 32
    omega

/-- The slot of a time is the one that has begun and whose successor has
not. -/
theorem slotInstant_getSlotAtTime (positive : 0 < state.blockInterval.toNat)
    (fits : state.slotInstant 1 < 2 ^ 32) {when : UInt32}
    (late : state.slotInstant 1 ≤ when.toNat) :
    state.slotInstant (state.getSlotAtTime when).toNat ≤ when.toNat ∧
      when.toNat <
        state.slotInstant ((state.getSlotAtTime when).toNat + 1) := by
  have begun :
      state.slotInstant
          ((when.toNat - state.slotInstant 1) / state.blockInterval.toNat +
            1) =
        state.slotInstant 1 +
          (when.toNat - state.slotInstant 1) / state.blockInterval.toNat *
            state.blockInterval.toNat :=
    slotInstant_one_add _
  rw [toNat_getSlotAtTime positive fits, if_neg (by omega),
    slotInstant_succ (_ + 1), begun]
  have floor :=
    Nat.div_mul_le_self (when.toNat - state.slotInstant 1)
      state.blockInterval.toNat
  have above :=
    Nat.lt_div_mul_add (b := state.blockInterval.toNat)
      (a := when.toNat - state.slotInstant 1) positive
  constructor
  · omega
  · omega

/-- Only one slot has begun without its successor having begun. -/
theorem slot_unique {time first second : Nat}
    (begunFirst : state.slotInstant first ≤ time)
    (beforeFirst : time < state.slotInstant (first + 1))
    (begunSecond : state.slotInstant second ≤ time)
    (beforeSecond : time < state.slotInstant (second + 1)) :
    first = second := by
  rcases Nat.lt_trichotomy first second with less | same | more
  · have later :
        state.slotInstant (first + 1) ≤ state.slotInstant second :=
      slotInstant_mono less
    omega
  · exact same
  · have later :
        state.slotInstant (second + 1) ≤ state.slotInstant first :=
      slotInstant_mono more
    omega

/-- A slot numbered from one whose end still fits 32 bits. -/
structure FitsSlot (state : ChainState) (slot : UInt32) : Prop where
  numbered : 1 ≤ slot
  fits : state.slotInstant (slot.toNat + 1) < 2 ^ 32

namespace FitsSlot

variable {slot : UInt32}

theorem toNat_pos (fitting : FitsSlot state slot) : 1 ≤ slot.toNat :=
  UInt32.le_iff_toNat_le.mp fitting.numbered

theorem ne_zero (fitting : FitsSlot state slot) : slot ≠ 0 := by
  intro zero
  have pos := fitting.toNat_pos
  rw [zero] at pos
  exact absurd pos (by decide)

theorem toNat_getSlotTime (fitting : FitsSlot state slot)
    (positive : 0 < state.blockInterval.toNat) :
    (state.getSlotTime slot).toNat = state.slotInstant slot.toNat := by
  apply ChainState.toNat_getSlotTime positive fitting.ne_zero
  exact Nat.lt_of_le_of_lt (slotInstant_mono (Nat.le_succ _)) fitting.fits

end FitsSlot

theorem toNat_succ (positive : 0 < state.blockInterval.toNat) {slot : UInt32}
    (fits : state.slotInstant (slot.toNat + 1) < 2 ^ 32) :
    (slot + 1).toNat = slot.toNat + 1 := by
  have counted := slot_le_slotInstant positive (slot.toNat + 1)
  rw [UInt32.toNat_add]
  apply Nat.mod_eq_of_lt
  show slot.toNat + 1 < 2 ^ 32
  omega

theorem toNat_getSlotTime_succ (positive : 0 < state.blockInterval.toNat)
    {slot : UInt32} (fits : state.slotInstant (slot.toNat + 1) < 2 ^ 32) :
    (state.getSlotTime (slot + 1)).toNat =
      state.slotInstant (slot.toNat + 1) := by
  have succ := toNat_succ positive fits
  have nonzero : slot + 1 ≠ 0 := by
    intro zero
    rw [zero] at succ
    exact absurd succ.symm (Nat.succ_ne_zero _)
  rw [toNat_getSlotTime positive nonzero (by rw [succ]; exact fits), succ]

/-- The slot that the time lies in. -/
def InSlot (state : ChainState) (slot when : UInt32) : Prop :=
  state.getSlotTime slot ≤ when ∧ when < state.getSlotTime (slot + 1)

theorem inSlot_iff (positive : 0 < state.blockInterval.toNat)
    {slot when : UInt32} (fitting : FitsSlot state slot) :
    InSlot state slot when ↔
      state.slotInstant slot.toNat ≤ when.toNat ∧
        when.toNat < state.slotInstant (slot.toNat + 1) := by
  rw [InSlot, UInt32.le_iff_toNat_le, UInt32.lt_iff_toNat_lt,
    fitting.toNat_getSlotTime positive,
    toNat_getSlotTime_succ positive fitting.fits]

/-- A time is before the first slot, or in the slot that is found for it. -/
theorem inSlot_getSlotAtTime
    (positive : 0 < state.blockInterval.toNat) {when : UInt32}
    (fits : state.slotInstant ((state.getSlotAtTime when).toNat + 1) < 2 ^ 32) :
    (state.getSlotAtTime when = 0 ∧ when < state.getSlotTime 1) ∨
      (FitsSlot state (state.getSlotAtTime when) ∧
        InSlot state (state.getSlotAtTime when) when) := by
  have fitsOne : state.slotInstant 1 < 2 ^ 32 :=
    Nat.lt_of_le_of_lt (slotInstant_mono (Nat.le_add_left 1 _)) fits
  have first : (state.getSlotTime 1).toNat = state.slotInstant 1 :=
    toNat_getSlotTime positive (by decide) fitsOne
  have slot := toNat_getSlotAtTime positive fitsOne when
  by_cases early : when.toNat < state.slotInstant 1
  · left
    rw [if_pos early] at slot
    refine ⟨UInt32.toNat_inj.mp slot, ?_⟩
    rw [UInt32.lt_iff_toNat_lt, first]
    exact early
  · right
    rw [if_neg early] at slot
    have fitting : FitsSlot state (state.getSlotAtTime when) := by
      refine ⟨?_, fits⟩
      rw [UInt32.le_iff_toNat_le, slot]
      exact Nat.le_add_left 1 _
    refine ⟨fitting, (inSlot_iff positive fitting).mpr ?_⟩
    exact slotInstant_getSlotAtTime positive fitsOne (by omega)

theorem getSlotAtTime_getSlotTime (positive : 0 < state.blockInterval.toNat)
    {slot : UInt32} (numbered : 1 ≤ slot)
    (fits : state.slotInstant slot.toNat < 2 ^ 32) :
    state.getSlotAtTime (state.getSlotTime slot) = slot := by
  have pos : 1 ≤ slot.toNat := UInt32.le_iff_toNat_le.mp numbered
  have nonzero : slot ≠ 0 := by
    intro zero
    rw [zero] at pos
    exact absurd pos (by decide)
  have time := toNat_getSlotTime positive nonzero fits
  have late : state.slotInstant 1 ≤ state.slotInstant slot.toNat :=
    slotInstant_mono pos
  have found :=
    slotInstant_getSlotAtTime positive (by omega) (le_of_le_of_eq late time.symm)
  apply UInt32.toNat_inj.mp
  refine slot_unique found.1 found.2 (Nat.le_of_eq time.symm) ?_
  rw [time, slotInstant_succ]
  omega

end ChainState

section Headers

variable {validateSignee : Block → PublicKey → Bool} {skip : SkipFlags}
  {state : ChainState} {nextBlock : Block} {witness : Witness}

theorem validateBlockHeader_linked
    (valid :
      validateBlockHeader validateSignee skip state nextBlock = .ok witness) :
    state.headBlockId = nextBlock.previous ∧
      state.time < nextBlock.timestamp ∧
      state.findWitness nextBlock.witness = some witness := by
  simp only [validateBlockHeader, bind_eq_ok, require_eq_ok, orThrow_eq_ok]
    at valid
  obtain ⟨_, linked, _, later, found, isFound, _, _, rest⟩ := valid
  refine ⟨linked, later, ?_⟩
  have returned : found = witness := by
    by_cases skipped : skip.witnessScheduleCheck = true
    · simp only [skipped, if_true, pure, Except.pure, Except.ok.injEq] at rest
      exact rest
    · simp only [skipped, if_false, bind_eq_ok, pure, Except.pure,
        Except.ok.injEq, Bool.false_eq_true] at rest
      obtain ⟨_, _, _, _, _, _, same⟩ := rest
      exact same
  rw [isFound, returned]

theorem validateBlockHeader_scheduled
    (checked : skip.witnessScheduleCheck = false)
    (valid :
      validateBlockHeader validateSignee skip state nextBlock = .ok witness) :
    0 < state.getSlotAtTime nextBlock.timestamp ∧
      state.getScheduledWitness (state.getSlotAtTime nextBlock.timestamp) =
        some nextBlock.witness := by
  simp only [validateBlockHeader, checked, Bool.false_eq_true, if_false,
    bind_eq_ok, require_eq_ok, orThrow_eq_ok] at valid
  obtain ⟨_, _, _, _, _, _, _, _, _, begun, scheduled, isScheduled, _, same,
    _⟩ := valid
  refine ⟨begun, ?_⟩
  rw [isScheduled, same]

end Headers

/-- While the times fit 32 bits, slots and times are inverse to each other: the
slot at the time of a slot is that slot, and a time is before the first slot or
lies in the slot that is found for it.  A header that is accepted names the
witness of the one slot its timestamp lies in. -/
theorem slots_and_times_inverse
    (state : ChainState) (positive : 0 < state.blockInterval) :
    (∀ slot : UInt32, 1 ≤ slot →
      state.slotInstant slot.toNat < 2 ^ 32 →
      state.getSlotAtTime (state.getSlotTime slot) = slot) ∧
    (∀ when : UInt32,
      state.slotInstant ((state.getSlotAtTime when).toNat + 1) < 2 ^ 32 →
      (state.getSlotAtTime when = 0 ∧ when < state.getSlotTime 1) ∨
        (1 ≤ state.getSlotAtTime when ∧
          state.getSlotTime (state.getSlotAtTime when) ≤ when ∧
          when < state.getSlotTime (state.getSlotAtTime when + 1))) ∧
    (∀ (validateSignee : Block → PublicKey → Bool) (skip : SkipFlags)
      (nextBlock : Block) (witness : Witness),
      skip.witnessScheduleCheck = false →
      validateBlockHeader validateSignee skip state nextBlock = .ok witness →
      state.slotInstant
        ((state.getSlotAtTime nextBlock.timestamp).toNat + 1) < 2 ^ 32 →
      ∃ slot : UInt32,
        (∀ other : UInt32,
          (1 ≤ other ∧ state.slotInstant (other.toNat + 1) < 2 ^ 32 ∧
            state.getSlotTime other ≤ nextBlock.timestamp ∧
            nextBlock.timestamp < state.getSlotTime (other + 1)) ↔
          other = slot) ∧
        state.getScheduledWitness slot = some nextBlock.witness) := by
  have seconds : 0 < state.blockInterval.toNat :=
    UInt8.lt_iff_toNat_lt.mp positive
  refine ⟨?_, ?_, ?_⟩
  · intro slot numbered fits
    exact ChainState.getSlotAtTime_getSlotTime seconds numbered fits
  · intro time fits
    rcases ChainState.inSlot_getSlotAtTime seconds fits with early | inside
    · exact .inl early
    · exact .inr ⟨inside.1.numbered, inside.2.1, inside.2.2⟩
  · intro validateSignee skip nextBlock witness checked valid fits
    have scheduled := validateBlockHeader_scheduled checked valid
    refine ⟨state.getSlotAtTime nextBlock.timestamp, ?_, scheduled.2⟩
    rcases ChainState.inSlot_getSlotAtTime seconds fits with early | inside
    · rw [early.1] at scheduled
      exact absurd scheduled.1 (by decide)
    · intro other
      constructor
      · rintro ⟨numbered, fitsOther, begun, before⟩
        have otherIn :=
          (ChainState.inSlot_iff seconds ⟨numbered, fitsOther⟩).mp
            ⟨begun, before⟩
        have foundIn := (ChainState.inSlot_iff seconds inside.1).mp inside.2
        apply UInt32.toNat_inj.mp
        exact ChainState.slot_unique otherIn.1 otherIn.2 foundIn.1 foundIn.2
      · intro same
        rw [same]
        exact ⟨inside.1.numbered, inside.1.fits, inside.2.1, inside.2.2⟩

/-- A head off its slot boundary right after a maintenance block: five seconds
a slot, three slots skipped. -/
def afterMaintenance : ChainState where
  headBlockNumber := 7
  headBlockId := ⟨7, 70⟩
  time := 103
  maintenanceFlag := true
  currentAslot := 20
  lastIrreversibleBlockNum := 4
  blockInterval := 5
  maintenanceSkipSlots := 3
  activeWitnesses := ⟨[1, 2, 3], by decide⟩
  currentShuffledWitnesses := ⟨[2, 3, 1], by decide⟩
  witnesses := [⟨1, 11, 0, 0, 7⟩, ⟨2, 12, 0, 0, 6⟩, ⟨3, 13, 0, 0, 5⟩]
  nextWitnessId := 4
  nextMaintenanceTime := 3600

def secondSlotBlock : Block where
  previous := ⟨7, 70⟩
  timestamp := 127
  witness := 3
  digest := 80
  signature := 13

theorem slots_and_times_inverse_afterMaintenance :
    afterMaintenance.getSlotAtTime (afterMaintenance.getSlotTime 2) = 2 ∧
      afterMaintenance.getSlotTime 2 = 125 ∧
      (∃ slot : UInt32,
        (∀ other : UInt32,
          (1 ≤ other ∧
            afterMaintenance.slotInstant (other.toNat + 1) < 2 ^ 32 ∧
            afterMaintenance.getSlotTime other ≤ 127 ∧
            127 < afterMaintenance.getSlotTime (other + 1)) ↔
          other = slot) ∧
        afterMaintenance.getScheduledWitness slot = some 3) := by
  have inverse := slots_and_times_inverse afterMaintenance (by decide)
  refine ⟨inverse.1 2 (by decide) (by decide), by decide, ?_⟩
  exact inverse.2.2 (fun block key => block.signature = key)
    ⟨false, false⟩ secondSlotBlock ⟨3, 13, 0, 0, 5⟩ rfl (by decide)
    (by decide)

end GxbCore.Schedule
