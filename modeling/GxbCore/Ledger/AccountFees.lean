import Mathlib.Algebra.Group.Nat.Defs
import GxbCore.Lib.Fallible
import GxbCore.Lib.Snapshots

/-!
# The fee of an account in a maintenance interval

Every `accounts_per_fee_scale` registrations of an interval, the basic fee of
`account_create` is shifted to the left, and the maintenance shifts it back by
as much as the count of the interval says.  The fee is a number of 64 bits, and
nothing bounds the parameters: bits may be lost, a shift may be by 64 or more,
which has no meaning, and the number of accounts may be zero.

Fees and counts are objects of the database, so that popping a block restores
them.
-/

namespace GxbCore.AccountFees

/-- What is wrong with a call: the fee schedule has no entry, or the source has
no defined behaviour. -/
inductive FeeFault
  | missingFee
  | shiftTooWide
  | divisionByZero
  deriving Repr, DecidableEq

/-- The chain parameters that the fee of an account depends on; the entry of the
fee schedule may be missing. -/
structure FeeParameters where
  basicFee : Option UInt64
  accountsPerFeeScale : UInt16
  accountFeeScaleBitshifts : UInt8
  deriving Repr, DecidableEq

structure FeeState where
  parameters : FeeParameters
  pendingParameters : Option FeeParameters
  accountsRegisteredThisInterval : UInt32
  deriving Repr, DecidableEq

/-- `basic_fee <<= account_fee_scale_bitshifts` -/
def scaleFee (p : FeeParameters) : Except FeeFault FeeParameters := do
  let basicFee ← orThrow p.basicFee FeeFault.missingFee
  require (p.accountFeeScaleBitshifts.toNat < 64) FeeFault.shiftTooWide
  return { p with
    basicFee := some (basicFee <<< p.accountFeeScaleBitshifts.toUInt64) }

/-- Is the fee scaled when the count becomes `count`? -/
def FeeParameters.Scales (p : FeeParameters) (count : Nat) : Prop :=
  count % p.accountsPerFeeScale.toNat = 0 ∧ p.accountFeeScaleBitshifts ≠ 0

instance (p : FeeParameters) (count : Nat) : Decidable (p.Scales count) :=
  inferInstanceAs (Decidable (_ ∧ _))

/-- The part of `account_create_evaluator::do_apply` that counts the account and
scales the fee. -/
def registerAccount (s : FeeState) : Except FeeFault FeeState := do
  let count := s.accountsRegisteredThisInterval + 1
  require (s.parameters.accountsPerFeeScale ≠ 0) FeeFault.divisionByZero
  if s.parameters.Scales count.toNat then
    let parameters ← scaleFee s.parameters
    return { s with
      parameters := parameters
      accountsRegisteredThisInterval := count }
  else
    return { s with accountsRegisteredThisInterval := count }

/-- The part of `perform_chain_maintenance` that removes the scaling; the number
of bits is computed in 32 bits. -/
def removeScaling (s : FeeState) : Except FeeFault FeeParameters := do
  let p := s.parameters
  let basicFee ← orThrow p.basicFee FeeFault.missingFee
  require (p.accountsPerFeeScale ≠ 0) FeeFault.divisionByZero
  let bits :=
    p.accountFeeScaleBitshifts.toUInt32 *
      (s.accountsRegisteredThisInterval / p.accountsPerFeeScale.toUInt32)
  require (bits.toNat < 64) FeeFault.shiftTooWide
  return { p with basicFee := some (basicFee >>> bits.toUInt64) }

/-- The maintenance: pending parameters are installed and a new interval
begins. -/
def maintainFees (s : FeeState) : Except FeeFault FeeState := do
  let parameters ← removeScaling s
  return {
    parameters := s.pendingParameters.getD parameters
    pendingParameters := none
    accountsRegisteredThisInterval := 0 }

/-- A state, with the parameters that its interval began with. -/
structure Interval where
  state : FeeState
  start : FeeParameters

/-- What the steps of a run have to meet. -/
structure Condition where
  /-- of the parameters that an interval begins with -/
  begins : FeeParameters → Prop
  /-- of the state before a registration -/
  registers : FeeState → Prop

/-- Registrations, maintenances and proposals of new parameters, with sessions
that are kept, undone or merged: blocks that are applied, popped and applied
again. -/
inductive FeeRun (condition : Condition) : Snapshots Interval → Prop
  | genesis {p : FeeParameters} {limit : Nat}
      (begins : condition.begins p) :
      FeeRun condition ⟨⟨⟨p, none, 0⟩, p⟩, [], limit⟩
  | register {node : Snapshots Interval} {after : FeeState}
      (run : FeeRun condition node)
      (registers : condition.registers node.current.state)
      (registered : registerAccount node.current.state = .ok after) :
      FeeRun condition (node.write ⟨after, node.current.start⟩)
  | propose {node : Snapshots Interval} (p : FeeParameters)
      (run : FeeRun condition node) :
      FeeRun condition
        (node.write
          ⟨{ node.current.state with pendingParameters := some p },
            node.current.start⟩)
  | maintain {node : Snapshots Interval} {after : FeeState}
      (run : FeeRun condition node)
      (maintained : maintainFees node.current.state = .ok after)
      (begins : condition.begins after.parameters) :
      FeeRun condition (node.write ⟨after, after.parameters⟩)
  | save {node : Snapshots Interval} (run : FeeRun condition node) :
      FeeRun condition node.save
  | pop {node after : Snapshots Interval} (run : FeeRun condition node)
      (popped : node.restore = some after) : FeeRun condition after
  | merge {node : Snapshots Interval} (run : FeeRun condition node) :
      FeeRun condition node.merge
  | resize {node : Snapshots Interval} (limit : Nat)
      (run : FeeRun condition node) : FeeRun condition (node.setLimit limit)

def Scalable (p : FeeParameters) : Prop :=
  p.basicFee.isSome ∧ p.accountsPerFeeScale ≠ 0

/-- The registration loses no bit of the fee, and what the interval shifts stays
below 64 bits. -/
structure KeepsBits (s : FeeState) : Prop where
  counted : s.accountsRegisteredThisInterval.toNat + 1 < 2 ^ 32
  fits :
    s.parameters.Scales (s.accountsRegisteredThisInterval.toNat + 1) →
      ∀ fee ∈ s.parameters.basicFee,
        fee.toNat * 2 ^ s.parameters.accountFeeScaleBitshifts.toNat < 2 ^ 64 ∧
        s.parameters.accountFeeScaleBitshifts.toNat *
            ((s.accountsRegisteredThisInterval.toNat + 1) /
              s.parameters.accountsPerFeeScale.toNat) <
          64

/-- The fee loses no bits. -/
def lossless : Condition where
  begins := Scalable
  registers := KeepsBits

/-- The fee is that of the start, scaled once for every full number of
accounts. -/
structure Scaled (i : Interval) : Prop where
  perScale : i.state.parameters.accountsPerFeeScale ≠ 0
  samePerScale :
    i.state.parameters.accountsPerFeeScale = i.start.accountsPerFeeScale
  sameBits :
    i.state.parameters.accountFeeScaleBitshifts =
      i.start.accountFeeScaleBitshifts
  narrow :
    i.state.parameters.accountFeeScaleBitshifts.toNat *
        (i.state.accountsRegisteredThisInterval.toNat /
          i.state.parameters.accountsPerFeeScale.toNat) <
      64
  scaled :
    ∃ start fee : UInt64,
      i.start.basicFee = some start ∧
      i.state.parameters.basicFee = some fee ∧
      fee.toNat =
        start.toNat *
          2 ^ (i.state.parameters.accountFeeScaleBitshifts.toNat *
            (i.state.accountsRegisteredThisInterval.toNat /
              i.state.parameters.accountsPerFeeScale.toNat))

theorem Scaled.begin {p : FeeParameters} (scalable : Scalable p)
    (pending : Option FeeParameters) : Scaled ⟨⟨p, pending, 0⟩, p⟩ := by
  obtain ⟨fee, isFee⟩ := Option.isSome_iff_exists.mp scalable.1
  refine ⟨scalable.2, rfl, rfl, ?_, fee, fee, isFee, isFee, ?_⟩
  · simp
  · simp

theorem toNat_shiftRight_scaled
    {start fee : UInt64} {bits : UInt32} (narrow : bits.toNat < 64)
    (scaled : fee.toNat = start.toNat * 2 ^ bits.toNat) :
    fee >>> bits.toUInt64 = start := by
  apply UInt64.toNat_inj.mp
  rw [UInt64.toNat_shiftRight, UInt32.toNat_toUInt64,
    Nat.mod_eq_of_lt narrow, Nat.shiftRight_eq_div_pow, scaled,
    Nat.mul_div_cancel _ (Nat.two_pow_pos _)]

theorem toNat_shiftLeft_lossless {fee : UInt64} {bits : UInt8}
    (narrow : bits.toNat < 64) (fits : fee.toNat * 2 ^ bits.toNat < 2 ^ 64) :
    (fee <<< bits.toUInt64).toNat = fee.toNat * 2 ^ bits.toNat := by
  rw [UInt64.toNat_shiftLeft, UInt8.toNat_toUInt64, Nat.mod_eq_of_lt narrow,
    Nat.shiftLeft_eq, Nat.mod_eq_of_lt fits]

/-- The maintenance gives back the fee of the start. -/
theorem Scaled.removeScaling {i : Interval} (ok : Scaled i) :
    removeScaling i.state =
      .ok { i.state.parameters with basicFee := i.start.basicFee } := by
  obtain ⟨start, fee, isStart, isFee, scaled⟩ := ok.scaled
  have narrow := ok.narrow
  have perScale := ok.perScale
  have bits :
      (i.state.parameters.accountFeeScaleBitshifts.toUInt32 *
        (i.state.accountsRegisteredThisInterval /
          i.state.parameters.accountsPerFeeScale.toUInt32)).toNat =
        i.state.parameters.accountFeeScaleBitshifts.toNat *
          (i.state.accountsRegisteredThisInterval.toNat /
            i.state.parameters.accountsPerFeeScale.toNat) := by
    rw [UInt32.toNat_mul, UInt8.toNat_toUInt32, UInt32.toNat_div,
      UInt16.toNat_toUInt32]
    exact Nat.mod_eq_of_lt (Nat.lt_trans narrow (by decide))
  rw [← bits] at narrow scaled
  have back := toNat_shiftRight_scaled narrow scaled
  simp only [AccountFees.removeScaling, isFee, orThrow, require, perScale,
    ne_eq, not_false_eq_true, if_true, narrow, isStart, bind, Except.bind,
    pure, Except.pure, back]

theorem Scaled.le {i : Interval} (ok : Scaled i) :
    ∃ start fee : UInt64,
      i.start.basicFee = some start ∧
      i.state.parameters.basicFee = some fee ∧ start ≤ fee := by
  obtain ⟨start, fee, isStart, isFee, scaled⟩ := ok.scaled
  refine ⟨start, fee, isStart, isFee, ?_⟩
  rw [UInt64.le_iff_toNat_le, scaled]
  exact Nat.le_mul_of_pos_right _ (Nat.two_pow_pos _)

theorem Scaled.register {i : Interval} {after : FeeState}
    (ok : Scaled i) (keeps : KeepsBits i.state)
    (registered : registerAccount i.state = .ok after) :
    Scaled ⟨after, i.start⟩ := by
  have counted := keeps.counted
  have count :
      (i.state.accountsRegisteredThisInterval + 1).toNat =
        i.state.accountsRegisteredThisInterval.toNat + 1 := by
    rw [UInt32.toNat_add]
    exact Nat.mod_eq_of_lt counted
  obtain ⟨start, fee, isStart, isFee, scaled⟩ := ok.scaled
  simp only [registerAccount, bind_eq_ok, require_eq_ok, count] at registered
  obtain ⟨_, perScale, registered⟩ := registered
  by_cases scales :
      i.state.parameters.Scales
        (i.state.accountsRegisteredThisInterval.toNat + 1)
  · -- a full number of accounts: one more shift
    simp only [scales, if_true, scaleFee, bind_eq_ok, orThrow_eq_ok,
      require_eq_ok] at registered
    obtain ⟨parameters, ⟨basic, isBasic, _, narrow, made⟩, returned⟩ :=
      registered
    cases made
    cases returned
    rw [isFee] at isBasic
    cases isBasic
    obtain ⟨fits, below⟩ := keeps.fits scales fee isFee
    have more :
        (i.state.accountsRegisteredThisInterval.toNat + 1) /
            i.state.parameters.accountsPerFeeScale.toNat =
          i.state.accountsRegisteredThisInterval.toNat /
              i.state.parameters.accountsPerFeeScale.toNat +
            1 :=
      Nat.succ_div_of_mod_eq_zero scales.1
    refine ⟨perScale, ok.samePerScale, ok.sameBits, ?_, start, _, isStart, rfl,
      ?_⟩
    · show _ * ((i.state.accountsRegisteredThisInterval + 1).toNat / _) < 64
      rw [count]
      exact below
    · show (fee <<< _).toNat =
        start.toNat *
          2 ^ (_ * ((i.state.accountsRegisteredThisInterval + 1).toNat / _))
      rw [count, more, toNat_shiftLeft_lossless narrow fits, scaled,
        Nat.mul_succ, Nat.pow_add, Nat.mul_assoc]
  · -- the fee stays
    simp only [scales, if_false] at registered
    cases registered
    have same :
        i.state.parameters.accountFeeScaleBitshifts.toNat *
            ((i.state.accountsRegisteredThisInterval.toNat + 1) /
              i.state.parameters.accountsPerFeeScale.toNat) =
          i.state.parameters.accountFeeScaleBitshifts.toNat *
            (i.state.accountsRegisteredThisInterval.toNat /
              i.state.parameters.accountsPerFeeScale.toNat) := by
      by_cases noBits : i.state.parameters.accountFeeScaleBitshifts = 0
      · rw [noBits]
        simp
      · rw [Nat.succ_div_of_mod_ne_zero fun full => scales ⟨full, noBits⟩]
    refine ⟨perScale, ok.samePerScale, ok.sameBits, ?_, start, fee, isStart,
      isFee, ?_⟩
    · show _ * ((i.state.accountsRegisteredThisInterval + 1).toNat / _) < 64
      rw [count, same]
      exact ok.narrow
    · show fee.toNat =
        start.toNat *
          2 ^ (_ * ((i.state.accountsRegisteredThisInterval + 1).toNat / _))
      rw [count, same]
      exact scaled

theorem maintainFees_eq_ok {s after : FeeState}
    (maintained : maintainFees s = .ok after) :
    after = ⟨after.parameters, none, 0⟩ := by
  simp only [maintainFees, bind_eq_ok] at maintained
  obtain ⟨_, _, returned⟩ := maintained
  cases returned
  rfl

/-- Every state of a run and every state that it can go back to is scaled. -/
theorem FeeRun.scaled {node : Snapshots Interval} (run : FeeRun lossless node) :
    ∀ i ∈ node.current :: node.saved, Scaled i := by
  induction run with
  | genesis begins =>
      intro i member
      rw [List.mem_singleton.mp member]
      exact Scaled.begin begins none
  | @register node after run registers registered ih =>
      have current := ih node.current List.mem_cons_self
      intro i member
      rcases List.mem_cons.mp member with rfl | saved
      · exact current.register registers registered
      · exact ih i (List.mem_cons_of_mem _ saved)
  | @propose node p run ih =>
      have current := ih node.current List.mem_cons_self
      intro i member
      rcases List.mem_cons.mp member with rfl | saved
      · exact ⟨current.perScale, current.samePerScale, current.sameBits,
          current.narrow, current.scaled⟩
      · exact ih i (List.mem_cons_of_mem _ saved)
  | @maintain node after run maintained begins ih =>
      intro i member
      rcases List.mem_cons.mp member with rfl | saved
      · rw [maintainFees_eq_ok maintained]
        exact Scaled.begin begins none
      · exact ih i (List.mem_cons_of_mem _ saved)
  | @save node run ih =>
      intro i member
      rcases List.mem_cons.mp member with rfl | saved
      · exact ih _ List.mem_cons_self
      · rcases List.mem_cons.mp saved with rfl | older
        · exact ih _ List.mem_cons_self
        · exact ih i
            (List.mem_cons_of_mem _ (List.mem_of_mem_take older))
  | @pop node after run popped ih =>
      cases stack : node.saved with
      | nil =>
          rw [Snapshots.restore_of_nil stack] at popped
          cases popped
      | cons last older =>
          rw [Snapshots.restore_of_cons stack] at popped
          cases popped
          intro i member
          rw [stack] at ih
          exact ih i (List.mem_cons_of_mem _ member)
  | @merge node run ih =>
      intro i member
      rcases List.mem_cons.mp member with rfl | saved
      · exact ih _ List.mem_cons_self
      · exact ih i
          (List.mem_cons_of_mem _ (List.mem_of_mem_tail saved))
  | resize limit run ih => exact ih

/-- In every run whose registrations lose no bit, with popped and re-applied
blocks, the fee is never below the one that the interval began with, and the
maintenance gives that one back. -/
theorem account_fee_restored {node : Snapshots Interval}
    (run : FeeRun lossless node) :
    ∃ start fee : UInt64,
      node.current.start.basicFee = some start ∧
      node.current.state.parameters.basicFee = some fee ∧
      start ≤ fee ∧
      ∃ parameters,
        removeScaling node.current.state = .ok parameters ∧
        parameters.basicFee = some start := by
  have scaled := run.scaled node.current List.mem_cons_self
  obtain ⟨start, fee, isStart, isFee, le⟩ := scaled.le
  exact ⟨start, fee, isStart, isFee, le, _, scaled.removeScaling, isStart⟩

def eachAccount (bits : UInt8) : FeeParameters :=
  ⟨some 100000, 1, bits⟩

theorem account_fee_restored_once :
    ∃ node : Snapshots Interval,
      node.current.state.parameters.basicFee = some 1600000 ∧
      ∃ parameters,
        removeScaling node.current.state = .ok parameters ∧
        parameters.basicFee = some 100000 := by
  have genesis :
      FeeRun lossless
        ⟨⟨⟨eachAccount 4, none, 0⟩, eachAccount 4⟩, [], 1⟩ :=
    .genesis ⟨rfl, by decide⟩
  have keeps : KeepsBits ⟨eachAccount 4, none, 0⟩ := by
    refine ⟨by decide, ?_⟩
    intro _ fee isFee
    cases isFee
    decide
  have registered :
      registerAccount ⟨eachAccount 4, none, 0⟩ =
        .ok ⟨⟨some 1600000, 1, 4⟩, none, 1⟩ := by decide
  have run := FeeRun.register genesis.save keeps registered
  obtain ⟨start, fee, isStart, isFee, _, restored⟩ := account_fee_restored run
  cases isStart
  exact ⟨_, rfl, restored⟩

/-- Sixty bits are too many: the fee is lost. -/
theorem account_fee_lost :
    ∃ node : Snapshots Interval,
      FeeRun ⟨Scalable, fun _ => True⟩ node ∧
      node.current.start.basicFee = some 100000 ∧
      node.current.state.parameters.basicFee = some 0 ∧
      removeScaling node.current.state = .ok ⟨some 0, 1, 60⟩ := by
  have genesis :
      FeeRun ⟨Scalable, fun _ => True⟩
        ⟨⟨⟨eachAccount 60, none, 0⟩, eachAccount 60⟩, [], 1⟩ :=
    .genesis ⟨rfl, by decide⟩
  have registered :
      registerAccount ⟨eachAccount 60, none, 0⟩ =
        .ok ⟨⟨some 0, 1, 60⟩, none, 1⟩ := by decide
  exact ⟨_, .register genesis trivial registered, rfl, rfl, by decide⟩

end GxbCore.AccountFees
