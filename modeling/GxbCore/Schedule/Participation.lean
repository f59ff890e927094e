import GxbCore.Schedule.Confirmations

/-!
# The measures of participation

Every block shifts a register of 128 bits by the slots that have passed, and
the share of its bits that are set is the participation rate, below which a
witness stops producing.  A block is entered before the slots that were missed
ahead of it, so that the bits speak of the slots before the head block's: the
head block itself is counted by the next one.
-/

namespace GxbCore.Schedule

def GRAPHENE_RECENTLY_MISSED_COUNT_INCREMENT : UInt32 :=
  4

def GRAPHENE_RECENTLY_MISSED_COUNT_DECREMENT : UInt32 :=
  3

/-- What `dynamic_global_property_object` measures. -/
structure Participation where
  recentSlotsFilled : BitVec 128
  recentlyMissedCount : UInt32
  deriving DecidableEq

namespace Participation

/-- At genesis. -/
def initial : Participation :=
  ⟨BitVec.allOnes 128, 0⟩

/-- The measures in `update_global_dynamic_data`. -/
def update (lastCheckpoint : Option UInt32) (blockNum missedBlocks : UInt32)
    (measured : Participation) : Participation where
  recentlyMissedCount :=
    if blockNum = 1 then 0
    else if lastCheckpoint.any (blockNum ≤ ·) then 0
    else if missedBlocks ≠ 0 then
      measured.recentlyMissedCount +
        GRAPHENE_RECENTLY_MISSED_COUNT_INCREMENT * missedBlocks
    else if GRAPHENE_RECENTLY_MISSED_COUNT_INCREMENT <
        measured.recentlyMissedCount then
      measured.recentlyMissedCount - GRAPHENE_RECENTLY_MISSED_COUNT_DECREMENT
    else if 0 < measured.recentlyMissedCount then
      measured.recentlyMissedCount - 1
    else
      measured.recentlyMissedCount
  recentSlotsFilled :=
    ((measured.recentSlotsFilled <<< 1) + 1) <<< missedBlocks.toNat

def popcount (bits : BitVec 128) : Nat :=
  (List.range 128).countP bits.getLsbD

/-- `database::witness_participation_rate` -/
def witnessParticipationRate (measured : Participation) : Nat :=
  GRAPHENE_100_PERCENT * popcount measured.recentSlotsFilled / 128

end Participation

open Participation

section Slots

variable {X : Type} {rules : Rules X} {state after : ChainState}
  {rest restAfter : X} {skip : BlockSkip} {block : Block}

theorem edits_slots (edits : List WitnessEdit) (state : ChainState) :
    (edits.foldl ChainState.edit state).currentAslot = state.currentAslot ∧
      (edits.foldl ChainState.edit state).getSlotAtTime =
        state.getSlotAtTime := by
  induction edits generalizing state with
  | nil => exact ⟨rfl, rfl⟩
  | cons edit edits ih =>
      obtain ⟨aslot, slots⟩ := ih (state.edit edit)
      cases edit with
      | create signingKey => exact ⟨aslot, slots⟩
      | setKey id signingKey => exact ⟨aslot, slots⟩

theorem countMissed_aslot {producer : WitnessId} {i : Nat}
    (counted : countMissed producer state i = .ok after) :
    after.currentAslot = state.currentAslot := by
  simp only [countMissed, bind_eq_ok, orThrow_eq_ok] at counted
  obtain ⟨id, _, missed, _, counted⟩ := counted
  split at counted
  · cases counted
    rfl
  · cases counted
    rfl

theorem updateGlobalDynamicData_aslot {skipHistory : Bool}
    (updated : updateGlobalDynamicData skipHistory block state = .ok after) :
    after.currentAslot =
      state.currentAslot + (state.getSlotAtTime block.timestamp).toUInt64 := by
  simp only [updateGlobalDynamicData, bind_eq_ok] at updated
  obtain ⟨counted, counts, _, _, returned⟩ := updated
  cases returned
  have same : counted.currentAslot = state.currentAslot := by
    refine @foldlM_keeps _ _ _ _
      (fun current => current.currentAslot = state.currentAslot) _ _ _ ?_ rfl
      counts
    intro i _ before next kept round
    exact (countMissed_aslot round).trans kept
  simp only [same, UInt32.sub_add_cancel]

theorem updateLastIrreversibleBlock_aslot
    (raised : updateLastIrreversibleBlock state = .ok after) :
    after.currentAslot = state.currentAslot := by
  simp only [updateLastIrreversibleBlock, bind_eq_ok] at raised
  obtain ⟨_, _, _, _, returned⟩ := raised
  split at returned
  · cases returned
    rfl
  · cases returned
    rfl

theorem maintainIf_aslot {maintNeeded : Bool}
    (maintained :
      maintainIf rules block maintNeeded state rest = .ok (after, restAfter)) :
    after.currentAslot = state.currentAslot := by
  unfold maintainIf at maintained
  split at maintained
  · obtain ⟨decided, _, returned⟩ := bind_eq_ok.mp maintained
    cases returned
    rfl
  · cases maintained
    rfl

/-- A block takes the chain to the slot of its timestamp. -/
theorem applyBlock_aslot
    (applied :
      applyBlock rules skip block state rest = .ok (after, restAfter)) :
    after.currentAslot =
      state.currentAslot + (state.getSlotAtTime block.timestamp).toUInt64 := by
  simp only [applyBlock, confirmBlock, concludeBlock, bind_eq_ok] at applied
  obtain ⟨_, ⟨_, _, ⟨edits, _⟩, _, moved, updated, raised, raises, isRaised⟩,
    ⟨kept, _⟩, maintained, scheduled, schedules, returned⟩ := applied
  cases returned
  cases isRaised
  obtain ⟨shuffled, rfl⟩ := updateWitnessSchedule_eq schedules
  obtain ⟨aslot, slots⟩ := edits_slots edits state
  calc kept.currentAslot
      = raised.currentAslot := maintainIf_aslot maintained
    _ = (updateSigningWitness block moved).currentAslot :=
        updateLastIrreversibleBlock_aslot raises
    _ = moved.currentAslot := rfl
    _ = _ := updateGlobalDynamicData_aslot updated
    _ = _ := by rw [aslot, slots]

end Slots

section Register

variable {bits : BitVec 128} {i : Nat}

theorem getLsbD_entered (inside : i < 128) :
    ((bits <<< 1) + 1#128).getLsbD i =
      if i = 0 then true else bits.getLsbD (i - 1) := by
  rw [BitVec.add_eq_or_of_and_eq_zero]
  · simp only [BitVec.getLsbD_or, BitVec.getLsbD_shiftLeft]
    cases i with
    | zero => simp
    | succ i => simp [inside]
  · ext place bound
    simp
    omega

/-- The register after a block and the slots missed ahead of it. -/
theorem getLsbD_shifted (missed : Nat) (inside : i < 128) :
    (((bits <<< 1) + 1#128) <<< missed).getLsbD i =
      if i < missed then false
      else if i = missed then true
      else bits.getLsbD (i - missed - 1) := by
  rw [BitVec.getLsbD_shiftLeft]
  by_cases newer : i < missed
  · simp [newer]
  · rw [getLsbD_entered (by omega)]
    have place : i - missed = 0 ↔ i = missed := by omega
    simp [newer, inside, place]

end Register

/-- Chains built from genesis, with the slots that were filled, newest first:
the slot of genesis is zero.  Every block has a slot. -/
inductive Measured {X : Type} (rules : Rules X)
    (lastCheckpoint : Option UInt32) (start : ChainState) (startRest : X) :
    List Nat → List Block → ChainState → X → Participation → Prop
  | genesis :
      Measured rules lastCheckpoint start startRest [0] [] start startRest
        initial
  | block {slots : List Nat} {chain : List Block} {state after : ChainState}
      {rest restAfter : X} {measured : Participation} {skip : BlockSkip}
      {block : Block}
      (earlier :
        Measured rules lastCheckpoint start startRest slots chain state rest
          measured)
      (timely : state.getSlotAtTime block.timestamp ≠ 0)
      (applied :
        applyBlock rules skip block state rest = .ok (after, restAfter)) :
      Measured rules lastCheckpoint start startRest
        ((state.currentAslot.toNat +
          (state.getSlotAtTime block.timestamp).toNat) :: slots)
        (block :: chain) after restAfter
        (measured.update lastCheckpoint block.blockNum
          (state.getSlotAtTime block.timestamp - 1))

/-- The slots were filled one after another, the head block's last, and the bits
say which of the slots before the head block's were filled.  The slots before
genesis count as filled. -/
structure SlotsKnown (slots : List Nat) (state : ChainState)
    (measured : Participation) : Prop where
  head : slots.head? = some state.currentAslot.toNat
  descending : slots.Pairwise (· > ·)
  counted : slots.length = state.headBlockNumber.toNat + 1
  bits :
    ∀ i < 128,
      measured.recentSlotsFilled.getLsbD i = true ↔
        state.currentAslot.toNat ≤ i ∨ state.currentAslot.toNat - 1 - i ∈ slots

namespace SlotsKnown

variable {slots : List Nat} {state after : ChainState}
  {measured : Participation}

theorem le_head (known : SlotsKnown slots state measured) {slot : Nat}
    (member : slot ∈ slots) : slot ≤ state.currentAslot.toNat := by
  have head := known.head
  have descending := known.descending
  cases slots with
  | nil => cases member
  | cons newest older =>
      rw [List.head?_cons, Option.some.injEq] at head
      rcases List.mem_cons.mp member with rfl | inOlder
      · exact Nat.le_of_eq head
      · have smaller := (List.pairwise_cons.mp descending).1 slot inOlder
        omega

theorem head_mem (known : SlotsKnown slots state measured) :
    state.currentAslot.toNat ∈ slots :=
  List.mem_of_mem_head? known.head

/-- The step: a block in a slot behind the head block's. -/
theorem push (known : SlotsKnown slots state measured)
    {lastCheckpoint : Option UInt32} {blockNum slot : UInt32}
    (timely : slot ≠ 0)
    (aslot :
      after.currentAslot.toNat = state.currentAslot.toNat + slot.toNat)
    (number :
      after.headBlockNumber.toNat = state.headBlockNumber.toNat + 1) :
    SlotsKnown ((state.currentAslot.toNat + slot.toNat) :: slots) after
      (measured.update lastCheckpoint blockNum (slot - 1)) := by
  have positive : 1 ≤ slot := by
    rw [UInt32.le_iff_toNat_le, UInt32.toNat_one]
    refine Nat.one_le_iff_ne_zero.mpr fun zero => timely ?_
    exact UInt32.toNat_inj.mp zero
  have missed : (slot - 1).toNat + 1 = slot.toNat := by
    have atLeast := UInt32.le_iff_toNat_le.mp positive
    rw [UInt32.toNat_sub_of_le _ _ positive]
    rw [UInt32.toNat_one] at atLeast ⊢
    omega
  refine ⟨?_, ?_, ?_, ?_⟩
  · rw [List.head?_cons, aslot]
  · refine List.pairwise_cons.mpr ⟨?_, known.descending⟩
    intro older member
    have below := known.le_head member
    omega
  · rw [List.length_cons, known.counted, number]
  · intro i inside
    rw [update, aslot, ← missed, List.mem_cons]
    refine (Bool.eq_iff_iff.mp (getLsbD_shifted _ inside)).trans ?_
    have below : ∀ place ∈ slots, place ≤ state.currentAslot.toNat :=
      fun place member => known.le_head member
    have head := known.head_mem
    have bits := known.bits (i - (slot - 1).toNat - 1) (by omega)
    generalize (slot - 1).toNat = missed at bits ⊢
    generalize state.currentAslot.toNat = aslot at below head bits ⊢
    rcases Nat.lt_trichotomy i missed with newer | here | older
    · have isNewer : aslot < aslot + (missed + 1) - 1 - i := by omega
      have notOld : aslot + (missed + 1) - 1 - i ∉ slots := fun member =>
        absurd (below _ member) (Nat.not_le.mpr isNewer)
      simp only [newer, if_true, notOld, or_false, Bool.false_eq_true,
        false_iff]
      omega
    · have isHead : aslot + (missed + 1) - 1 - i = aslot := by omega
      have notNewer : ¬i < missed := by omega
      simp [here, head]
    · have isOlder :
          aslot + (missed + 1) - 1 - i = aslot - 1 - (i - missed - 1) := by
        omega
      have notNewer : ¬i < missed := by omega
      have notHere : i ≠ missed := by omega
      rw [if_neg notNewer, if_neg notHere, bits, isOlder]
      constructor
      · rintro (early | isOld)
        · exact .inl (by omega)
        · exact .inr (.inr isOld)
      · rintro (early | isNew | isOld)
        · exact .inl (by omega)
        · omega
        · exact .inr isOld

end SlotsKnown

section Runs

variable {X : Type} {rules : Rules X} {lastCheckpoint : Option UInt32}
  {start state : ChainState} {startRest rest : X} {slots : List Nat}
  {chain : List Block} {measured : Participation}

theorem Measured.extends
    (run :
      Measured rules lastCheckpoint start startRest slots chain state rest
        measured) :
    Extends rules [] start startRest chain state rest := by
  induction run with
  | genesis => exact .none
  | block _ _ applied ih => exact .block ih applied

theorem SlotsKnown.genesis (genesis : Genesis start)
    (first : start.currentAslot = 0) : SlotsKnown [0] start initial := by
  refine ⟨by rw [first]; rfl, List.pairwise_singleton _ _,
    by rw [genesis.head]; rfl, ?_⟩
  intro i inside
  have isSet : initial.recentSlotsFilled.getLsbD i = true := by
    rw [initial, BitVec.getLsbD_allOnes]
    exact decide_eq_true inside
  simp [isSet, first]

/-- Fewer than `2 ^ 32` blocks do not take the slots out of the 64 bits. -/
theorem Measured.known (genesis : Genesis start)
    (first : start.currentAslot = 0)
    (run :
      Measured rules lastCheckpoint start startRest slots chain state rest
        measured) :
    SlotsKnown slots state measured ∧
      state.currentAslot.toNat ≤
        state.headBlockNumber.toNat * (2 ^ 32 - 1) := by
  induction run with
  | genesis =>
      refine ⟨.genesis genesis first, ?_⟩
      rw [first]
      exact Nat.zero_le _
  | @block slots chain state after _ _ _ _ block earlier timely applied ih =>
      obtain ⟨known, bounded⟩ := ih
      obtain ⟨heads, credits, _⟩ :=
        earlier.extends.keeps genesis.heads genesis.credits
      have number :
          after.headBlockNumber.toNat = state.headBlockNumber.toNat + 1 := by
        rw [(applyBlock_spec heads credits applied).1.numbered,
          heads.numbered, List.length_cons]
      have blocks := after.headBlockNumber.toNat_lt
      have slot := (state.getSlotAtTime block.timestamp).toNat_lt
      have aslot :
          after.currentAslot.toNat =
            state.currentAslot.toNat +
              (state.getSlotAtTime block.timestamp).toNat := by
        rw [applyBlock_aslot applied, UInt64.toNat_add, UInt32.toNat_toUInt64]
        apply Nat.mod_eq_of_lt
        show _ < 2 ^ 64
        omega
      exact ⟨known.push timely aslot number, by omega⟩

/-- In every chain built from genesis the participation rate is the share of
filled slots among the 128 slots before that of the head block. -/
theorem participation_measured (genesis : Genesis start)
    (first : start.currentAslot = 0)
    (run :
      Measured rules lastCheckpoint start startRest slots chain state rest
        measured) :
    SlotsKnown slots state measured ∧
      witnessParticipationRate measured =
        GRAPHENE_100_PERCENT *
          (List.range 128).countP
            (fun i =>
              state.currentAslot.toNat ≤ i ∨
                state.currentAslot.toNat - 1 - i ∈ slots) / 128 ∧
      witnessParticipationRate measured ≤ GRAPHENE_100_PERCENT := by
  obtain ⟨known, _⟩ := run.known genesis first
  refine ⟨known, ?_, ?_⟩
  · unfold witnessParticipationRate popcount
    congr 2
    refine List.countP_congr fun i member => ?_
    rw [known.bits i (List.mem_range.mp member)]
    simp
  · have few : popcount measured.recentSlotsFilled ≤ 128 :=
      List.countP_le_length.trans (by simp)
    unfold witnessParticipationRate GRAPHENE_100_PERCENT
    omega

end Runs

/-- A first block that comes one slot late. -/
def lateBlock : Block where
  previous := ⟨0, 0⟩
  timestamp := 110
  witness := 1
  digest := 51
  signature := 11

/-- The slot before it was missed, and the rate is 127 out of 128. -/
theorem participation_measured_late :
    ∃ after : ChainState,
      after.currentAslot = 2 ∧
        SlotsKnown [2, 0] after (initial.update none 1 1) ∧
        witnessParticipationRate (initial.update none 1 1) = 9921 := by
  have genesis : Genesis twoWitnesses :=
    ⟨rfl, rfl, rfl, by decide, by decide⟩
  have applied :
      ∃ after,
        applyBlock idleRules ⟨⟨false, false⟩, false⟩ lateBlock twoWitnesses () =
            .ok (after, ()) ∧
          after.currentAslot = 2 :=
    ⟨_, rfl, rfl⟩
  obtain ⟨after, applied, aslot⟩ := applied
  have run :
      Measured idleRules none twoWitnesses () [2, 0] [lateBlock] after ()
        (initial.update none 1 1) :=
    .block .genesis (by decide) applied
  obtain ⟨known, rate, _⟩ := participation_measured genesis rfl run
  refine ⟨after, aslot, known, ?_⟩
  rw [rate, aslot]
  decide +kernel

end GxbCore.Schedule
