import Mathlib.Data.List.Rotate
import Mathlib.Data.List.Perm.Basic
import GxbCore.Schedule.Slots

/-!
# The witness schedule

Each time the head number is a multiple of the number of active witnesses, the
schedule is made anew: the active witnesses are copied and every position is
swapped with one from there on, chosen by a generator that is seeded with the
head time.  Slot after slot then takes the next witness of the schedule.
-/

namespace GxbCore.Schedule

/-- The multiplier of the generator. -/
def scrambler : UInt64 :=
  2685821657736338717

/-- The generator of `update_witness_schedule` at one index. -/
def scramble (nowHi : UInt64) (i : UInt32) : UInt64 :=
  let k := nowHi + i.toUInt64 * scrambler
  let k := k ^^^ (k >>> 12)
  let k := k ^^^ (k <<< 25)
  let k := k ^^^ (k >>> 27)
  k * scrambler

/-- The index `j` that index `i` is swapped with. -/
def swapTarget (nowHi : UInt64) (size : Nat) (i : UInt32) : UInt32 :=
  let jmax := UInt32.ofNat (size - i.toNat)
  (i.toUInt64 + scramble nowHi i % jmax.toUInt64).toUInt32

/-- `std::swap` of two entries of a vector. -/
def swapEntries (ids : List WitnessId) (i j : Nat) :
    Except ScheduleError (List WitnessId) := do
  let first ← orThrow ids[i]? ScheduleError.badIndex
  let second ← orThrow ids[j]? ScheduleError.badIndex
  return (ids.set i second).set j first

def shuffleRound (nowHi : UInt64) (ids : List WitnessId) (i : Nat) :
    Except ScheduleError (List WitnessId) :=
  swapEntries ids i (swapTarget nowHi ids.length (UInt32.ofNat i)).toNat

/-- The loop of `update_witness_schedule`. -/
def shuffle (nowHi : UInt64) (ids : List WitnessId) :
    Except ScheduleError (List WitnessId) :=
  (List.range ids.length).foldlM (shuffleRound nowHi) ids

variable {nowHi : UInt64} {state : ChainState} {first : UInt32}

theorem toNat_swapTarget {size i : Nat} (inside : i < size)
    (small : size < 2 ^ 32) :
    (swapTarget nowHi size (UInt32.ofNat i)).toNat =
      i + (scramble nowHi (UInt32.ofNat i)).toNat % (size - i) := by
  have index : (UInt32.ofNat i).toNat = i :=
    UInt32.toNat_ofNat_of_lt' (Nat.lt_trans inside small)
  have room : (UInt32.ofNat (size - i)).toNat = size - i :=
    UInt32.toNat_ofNat_of_lt' (Nat.lt_of_le_of_lt (Nat.sub_le _ _) small)
  have rest : (scramble nowHi (UInt32.ofNat i)).toNat % (size - i) < size - i :=
    Nat.mod_lt _ (Nat.sub_pos_of_lt inside)
  simp only [swapTarget, index, UInt64.toNat_toUInt32, UInt64.toNat_add,
    UInt64.toNat_mod, UInt32.toNat_toUInt64, room]
  omega

/-- The index chosen lies between the position and the end. -/
theorem swapTarget_bounds {nowHi : UInt64} {size i : Nat} (inside : i < size)
    (small : size < 2 ^ 32) :
    i ≤ (swapTarget nowHi size (UInt32.ofNat i)).toNat ∧
      (swapTarget nowHi size (UInt32.ofNat i)).toNat < size := by
  have rest : (scramble nowHi (UInt32.ofNat i)).toNat % (size - i) < size - i :=
    Nat.mod_lt _ (Nat.sub_pos_of_lt inside)
  rw [toNat_swapTarget inside small]
  omega

theorem swapEntries_perm {ids after : List WitnessId} {i j : Nat}
    (swapped : swapEntries ids i j = .ok after) : after.Perm ids := by
  simp only [swapEntries, bind_eq_ok, orThrow_eq_ok, pure, Except.pure,
    Except.ok.injEq] at swapped
  obtain ⟨first, isFirst, second, isSecond, rfl⟩ := swapped
  obtain ⟨firstInside, rfl⟩ := List.getElem?_eq_some_iff.mp isFirst
  obtain ⟨secondInside, rfl⟩ := List.getElem?_eq_some_iff.mp isSecond
  exact List.set_set_perm firstInside secondInside

theorem swapEntries_returns {ids : List WitnessId} {i j : Nat}
    (firstInside : i < ids.length) (secondInside : j < ids.length) :
    ∃ after, swapEntries ids i j = .ok after := by
  refine ⟨(ids.set i ids[j]).set j ids[i], ?_⟩
  simp only [swapEntries, List.getElem?_eq_getElem firstInside,
    List.getElem?_eq_getElem secondInside, orThrow]
  rfl

theorem shuffle_returns
    (nowHi : UInt64) {ids : List WitnessId} (small : ids.length < 2 ^ 32) :
    ∃ after, shuffle nowHi ids = .ok after := by
  have loop :
      ∀ (rounds : List Nat) (current : List WitnessId),
        current.length = ids.length →
        (∀ i ∈ rounds, i < ids.length) →
        ∃ after, rounds.foldlM (shuffleRound nowHi) current = .ok after := by
    intro rounds
    induction rounds with
    | nil =>
        intro current _ _
        exact ⟨current, rfl⟩
    | cons i rounds ih =>
        intro current sameLength inside
        have here : i < current.length :=
          sameLength ▸ inside i List.mem_cons_self
        have bounds := @swapTarget_bounds nowHi _ _ here (sameLength ▸ small)
        obtain ⟨next, swapped⟩ := swapEntries_returns here bounds.2
        obtain ⟨after, returned⟩ :=
          ih next
            ((swapEntries_perm swapped).length_eq.trans sameLength)
            (fun other member => inside other (List.mem_cons_of_mem i member))
        refine ⟨after, ?_⟩
        rw [List.foldlM_cons]
        exact bind_eq_ok.mpr ⟨next, swapped, returned⟩
  exact loop (List.range ids.length) ids rfl fun i member =>
    List.mem_range.mp member

/-- What the loop leaves is a permutation of what it started with. -/
theorem shuffle_perm {ids after : List WitnessId}
    (shuffled : shuffle nowHi ids = .ok after) : after.Perm ids := by
  refine @foldlM_keeps _ _ _ _ (fun current => current.Perm ids) _ _ _ ?_
    (List.Perm.refl ids) shuffled
  intro i _ current next perm swapped
  exact (swapEntries_perm swapped).trans perm

theorem ActiveWitnesses.distinct (active : ActiveWitnesses) :
    active.ids.Nodup :=
  active.ascending.imp fun less => Nat.ne_of_lt less

def shuffleActive (nowHi : UInt64) (active : ActiveWitnesses) :
    Except ScheduleError ShuffledWitnesses :=
  match shuffled : shuffle nowHi active.ids with
  | .error error => .error error
  | .ok ids =>
      .ok ⟨ids, (shuffle_perm shuffled).nodup_iff.mpr active.distinct⟩

/-- Is it time for a new schedule? -/
def ChainState.Reschedules (state : ChainState) : Prop :=
  state.headBlockNumber.toNat % state.activeWitnesses.ids.length = 0

instance (state : ChainState) : Decidable state.Reschedules :=
  inferInstanceAs (Decidable (_ = _))

/-- `database::update_witness_schedule`; without active witnesses the source
divides by zero. -/
def updateWitnessSchedule (state : ChainState) :
    Except ScheduleError ChainState := do
  require (state.activeWitnesses.ids ≠ []) ScheduleError.noActiveWitness
  if state.Reschedules then
    let nowHi := state.time.toUInt64 <<< 32
    let shuffled ← shuffleActive nowHi state.activeWitnesses
    return { state with currentShuffledWitnesses := shuffled }
  else
    return state

theorem shuffleActive_perm
    {active : ActiveWitnesses} {shuffled : ShuffledWitnesses}
    (returned : shuffleActive nowHi active = .ok shuffled) :
    shuffled.ids.Perm active.ids := by
  simp only [shuffleActive] at returned
  split at returned
  · cases returned
  · next ids isShuffle =>
      cases returned
      exact shuffle_perm isShuffle

theorem shuffleActive_returns (nowHi : UInt64) {active : ActiveWitnesses}
    (small : active.ids.length < 2 ^ 32) :
    ∃ shuffled, shuffleActive nowHi active = .ok shuffled := by
  obtain ⟨after, isShuffle⟩ := shuffle_returns nowHi small
  simp only [shuffleActive]
  split
  · next error isError =>
      rw [isShuffle] at isError
      cases isError
  · exact ⟨_, rfl⟩

/-- A new schedule is a permutation of the active witnesses; otherwise nothing
changes. -/
theorem updateWitnessSchedule_spec (present : state.activeWitnesses.ids ≠ [])
    (small : state.activeWitnesses.ids.length < 2 ^ 32) :
    ∃ shuffled : ShuffledWitnesses,
      updateWitnessSchedule state =
        .ok { state with currentShuffledWitnesses := shuffled } ∧
      (state.Reschedules →
        shuffled.ids.Perm state.activeWitnesses.ids) ∧
      (¬ state.Reschedules → shuffled = state.currentShuffledWitnesses) := by
  by_cases reschedules : state.Reschedules
  · obtain ⟨shuffled, returned⟩ :=
      shuffleActive_returns (state.time.toUInt64 <<< 32) small
    refine ⟨shuffled, ?_, ?_, ?_⟩
    · simp [updateWitnessSchedule, require, present, reschedules, returned,
        bind, Except.bind, pure, Except.pure]
    · intro _
      exact shuffleActive_perm returned
    · intro not
      exact absurd reschedules not
  · refine ⟨state.currentShuffledWitnesses, ?_, ?_, ?_⟩
    · simp [updateWitnessSchedule, require, present, reschedules, bind,
        Except.bind, pure, Except.pure]
    · intro now
      exact absurd now reschedules
    · intro _
      rfl

/-- The witnesses of `count` slots from `first` on. -/
def ChainState.turns (state : ChainState) (first : UInt32) (count : Nat) :
    List (Option WitnessId) :=
  (List.range count).map fun offset =>
    state.getScheduledWitness (first + UInt32.ofNat offset)

/-- Neither the slot number nor the absolute slot wraps within `count` slots
from `first` on. -/
structure ChainState.SlotsFit (state : ChainState) (first : UInt32)
    (count : Nat) : Prop where
  slots : first.toNat + count ≤ 2 ^ 32
  aslots : state.currentAslot.toNat + first.toNat + count ≤ 2 ^ 64

theorem ChainState.getScheduledWitness_add {count offset : Nat}
    (fit : state.SlotsFit first count) (inside : offset < count) :
    state.getScheduledWitness (first + UInt32.ofNat offset) =
      state.currentShuffledWitnesses.ids[
        (state.currentAslot.toNat + first.toNat + offset) %
          state.currentShuffledWitnesses.ids.length]? := by
  have slots := fit.slots
  have aslots := fit.aslots
  have small : (UInt32.ofNat offset).toNat = offset :=
    UInt32.toNat_ofNat_of_lt' (show offset < 2 ^ 32 by omega)
  have slot : (first + UInt32.ofNat offset).toNat = first.toNat + offset := by
    rw [UInt32.toNat_add, small]
    omega
  simp only [getScheduledWitness, UInt64.toNat_add, UInt32.toNat_toUInt64, slot]
  congr 2
  omega

/-- A whole round of slots goes once around the schedule, from the place of its
first slot on. -/
theorem ChainState.turns_eq_rotate
    (fit : state.SlotsFit first state.currentShuffledWitnesses.ids.length) :
    state.turns first state.currentShuffledWitnesses.ids.length =
      (state.currentShuffledWitnesses.ids.rotate
        (state.currentAslot.toNat + first.toNat)).map some := by
  apply List.ext_getElem
  · simp [turns]
  · intro offset left right
    have inside : offset < state.currentShuffledWitnesses.ids.length := by
      simpa [turns] using left
    simp only [turns, List.getElem_map, List.getElem_range,
      getScheduledWitness_add fit inside, List.getElem_rotate]
    rw [Nat.add_comm offset, List.getElem?_eq_getElem]

theorem ChainState.turns_perm
    (fit : state.SlotsFit first state.currentShuffledWitnesses.ids.length) :
    (state.turns first state.currentShuffledWitnesses.ids.length).Perm
      (state.currentShuffledWitnesses.ids.map some) := by
  rw [turns_eq_rotate fit]
  exact (List.rotate_perm _ _).map some

/-- Every witness of the schedule has one slot among as many consecutive ones
as there are witnesses. -/
theorem ChainState.exists_unique_turn {witness : WitnessId}
    (fit : state.SlotsFit first state.currentShuffledWitnesses.ids.length)
    (scheduled : witness ∈ state.currentShuffledWitnesses.ids) :
    ∃! offset, offset < state.currentShuffledWitnesses.ids.length ∧
      state.getScheduledWitness (first + UInt32.ofNat offset) =
        some witness := by
  have perm := turns_perm fit
  have distinct :
      (state.turns first
        state.currentShuffledWitnesses.ids.length).Nodup := by
    rw [perm.nodup_iff]
    exact state.currentShuffledWitnesses.distinct.map
      fun _ _ same => Option.some.inj same
  have takes :
      some witness ∈
        state.turns first state.currentShuffledWitnesses.ids.length :=
    perm.mem_iff.mpr (List.mem_map_of_mem scheduled)
  obtain ⟨offset, inside, turn⟩ := List.mem_map.mp takes
  refine ⟨offset, ⟨List.mem_range.mp inside, turn⟩, ?_⟩
  rintro other ⟨otherInside, otherTurn⟩
  exact List.inj_on_of_nodup_map distinct (List.mem_range.mpr otherInside)
    inside (otherTurn.trans turn.symm)

/-- The schedule is fair: a shuffle stays within its bounds and permutes the
active witnesses, and every round of consecutive slots gives each witness of
the schedule one turn. -/
theorem witness_schedule_fair
    (state : ChainState)
    (small : state.activeWitnesses.ids.length < 2 ^ 32) :
    (∀ (nowHi : UInt64) (i : Nat),
      i < state.activeWitnesses.ids.length →
      i ≤ (swapTarget nowHi state.activeWitnesses.ids.length
          (UInt32.ofNat i)).toNat ∧
        (swapTarget nowHi state.activeWitnesses.ids.length
          (UInt32.ofNat i)).toNat < state.activeWitnesses.ids.length) ∧
    (state.activeWitnesses.ids ≠ [] →
      ∃ shuffled : ShuffledWitnesses,
        updateWitnessSchedule state =
          .ok { state with currentShuffledWitnesses := shuffled } ∧
        (state.Reschedules →
          shuffled.ids.Perm state.activeWitnesses.ids) ∧
        (¬ state.Reschedules →
          shuffled = state.currentShuffledWitnesses)) ∧
    (∀ first : UInt32,
      state.SlotsFit first state.currentShuffledWitnesses.ids.length →
      (state.turns first state.currentShuffledWitnesses.ids.length).Perm
        (state.currentShuffledWitnesses.ids.map some) ∧
      ∀ witness ∈ state.currentShuffledWitnesses.ids,
        ∃! offset, offset < state.currentShuffledWitnesses.ids.length ∧
          state.getScheduledWitness (first + UInt32.ofNat offset) =
            some witness) := by
  refine ⟨?_, ?_, ?_⟩
  · intro nowHi i inside
    exact swapTarget_bounds inside small
  · intro present
    exact updateWitnessSchedule_spec present small
  · intro first fit
    refine ⟨ChainState.turns_perm fit, ?_⟩
    intro witness scheduled
    exact ChainState.exists_unique_turn fit scheduled

theorem witness_schedule_fair_afterMaintenance :
    (afterMaintenance.turns 2 3).Perm [some 2, some 3, some 1] ∧
      (∃ offset, offset < 3 ∧
        afterMaintenance.getScheduledWitness (2 + UInt32.ofNat offset) =
          some 1) ∧
      ∃ shuffled : ShuffledWitnesses,
        updateWitnessSchedule { afterMaintenance with headBlockNumber := 9 } =
          .ok { afterMaintenance with
            headBlockNumber := 9
            currentShuffledWitnesses := shuffled } ∧
        shuffled.ids.Perm [1, 2, 3] := by
  have fair := witness_schedule_fair afterMaintenance (by decide)
  have turns := fair.2.2 2 ⟨by decide, by decide⟩
  have anew :=
    witness_schedule_fair { afterMaintenance with headBlockNumber := 9 }
      (by decide)
  refine ⟨turns.1, ?_, ?_⟩
  · obtain ⟨offset, turn, _⟩ := turns.2 1 (by decide)
    exact ⟨offset, turn⟩
  · obtain ⟨shuffled, updated, perm, _⟩ := anew.2.1 (by decide)
    exact ⟨shuffled, updated, perm (by decide)⟩

end GxbCore.Schedule
